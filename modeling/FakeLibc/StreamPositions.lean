import FakeLibc.Lib.Loop
import FakeLibc.StdStreams

namespace FakeLibc.StreamPositions

open FakeLibc.Lib.Loop
open FakeLibc.StdStreams (Layout getActualFp layout)

inductive Call
  | fseek (stream : Nat) (offset whence : Int)
  | fseeko (stream : Nat) (offset whence : Int)
  | ftell (stream : Nat)
  | ftello (stream : Nat)
  | rewind (stream : Nat)
  | feof (stream : Nat)
  | fgetpos (stream pos : Nat)
  | fsetpos (stream pos : Nat)
  | funopen (cookie readfn writefn seekfn closefn : Nat)
deriving DecidableEq

/-- The function of this library or the one of glibc that has the same name. -/
inductive Place
  | wrapper
  | glibc
deriving DecidableEq

abbrev Body := Call → Place × Call

/-- What a wrapper calls. After `LOAD_GLIBC_SYMBOL(fgetpos)` the name of glibc's
function is `glibc_fgetpos`, and `fgetpos` is still the wrapper. -/
def wrapper (l : Layout) : Body
  | .fseek stream offset whence => (.glibc, .fseek (getActualFp l stream) offset whence)
  | .fseeko stream offset whence => (.glibc, .fseeko (getActualFp l stream) offset whence)
  | .ftell stream => (.glibc, .ftell (getActualFp l stream))
  | .ftello stream => (.glibc, .ftello stream)
  | .rewind stream => (.glibc, .rewind stream)
  | .feof stream => (.glibc, .feof stream)
  | .fgetpos stream pos => (.wrapper, .fgetpos (getActualFp l stream) pos)
  | .fsetpos stream pos => (.wrapper, .fsetpos (getActualFp l stream) pos)
  | .funopen cookie readfn writefn seekfn closefn =>
    (.wrapper, .funopen cookie readfn writefn seekfn closefn)

variable {W P : Type*}

/-- glibc's functions always return. -/
abbrev Glibc (W : Type*) := Call → W → Int × W

structure Frame (W : Type*) where
  place : Place
  call : Call
  world : W

structure Result (W : Type*) where
  asked : Call
  ret : Int
  world : W

def next (body : Body) (glibc : Glibc W) : Frame W → Frame W ⊕ Result W
  | ⟨.wrapper, call, w⟩ => .inl ⟨(body call).1, (body call).2, w⟩
  | ⟨.glibc, call, w⟩ => .inr ⟨call, (glibc call w).1, (glibc call w).2⟩

def run (body : Body) (glibc : Glibc W) (fuel : Nat) (call : Call) (w : W) : Option (Result W) :=
  loop (next body glibc) fuel ⟨.wrapper, call, w⟩

def play (body : Body) (glibc : Glibc W) (fuel : Nat) : List Call → W → Option W
  | [], w => some w
  | call :: calls, w =>
    (run body glibc fuel call w).bind (fun r => play body glibc fuel calls r.world)

/-- `fgetpos` and, after other calls, `fsetpos` each ask glibc's function once about
the actual stream, and then the stream is where it was. -/
def Restores (l : Layout) (body : Body) (glibc : Glibc W) (position : W → Nat → P)
    (stream pos : Nat) (between : List Call) (w : W) : Prop :=
  ∃ fuel saved w' restored,
    run body glibc fuel (.fgetpos stream pos) w = some saved ∧
      saved.asked = .fgetpos (getActualFp l stream) pos ∧
      play body glibc fuel between saved.world = some w' ∧
      run body glibc fuel (.fsetpos stream pos) w' = some restored ∧
      restored.asked = .fsetpos (getActualFp l stream) pos ∧
      position restored.world (getActualFp l stream) = position w (getActualFp l stream)

def Opens (body : Body) (glibc : Glibc W) (cookie readfn writefn seekfn closefn : Nat)
    (w : W) : Prop :=
  ∃ fuel r, run body glibc fuel (.funopen cookie readfn writefn seekfn closefn) w = some r ∧
    r.asked = .funopen cookie readfn writefn seekfn closefn

/-- glibc's `fsetpos` restores what its `fgetpos` saved, as long as nothing else is
saved in the same place. -/
structure Restoring (glibc : Glibc W) (position saved : W → Nat → P) : Prop where
  fgetpos : ∀ fp pos w, saved (glibc (.fgetpos fp pos) w).2 pos = position w fp
  fsetpos : ∀ fp pos w, position (glibc (.fsetpos fp pos) w).2 fp = saved w pos
  other : ∀ call pos w, (∀ fp, call ≠ .fgetpos fp pos) → saved (glibc call w).2 pos = saved w pos

section Run

variable {body : Body} {glibc : Glibc W} {call : Call}

theorem run_forwarded (h : (body call).1 = .glibc) (fuel : Nat) (w : W) :
    run body glibc (fuel + 2) call w =
      some ⟨(body call).2, (glibc (body call).2 w).1, (glibc (body call).2 w).2⟩ := by
  have hwrapper : next body glibc ⟨.wrapper, call, w⟩ = .inl ⟨.glibc, (body call).2, w⟩ := by
    rw [next, h]
  rw [run, loop_inl hwrapper]
  exact loop_inr rfl fuel

/-- A body that calls itself, whatever becomes of the arguments, never ends. -/
theorem run_reentered (Again : Call → Prop)
    (hagain : ∀ call, Again call → (body call).1 = .wrapper ∧ Again (body call).2)
    (h : Again call) (fuel : Nat) (w : W) : run body glibc fuel call w = none := by
  refine loop_eq_none (fun s => s.place = .wrapper ∧ Again s.call) ?_ ⟨rfl, h⟩ fuel
  rintro ⟨place, call, w⟩ ⟨hplace, hcall⟩
  obtain rfl : place = .wrapper := hplace
  exact ⟨_, rfl, hagain call hcall⟩

end Run

section Wrapper

variable (l : Layout) (glibc : Glibc W)

theorem fgetpos_reentered (stream pos fuel : Nat) (w : W) :
    run (wrapper l) glibc fuel (.fgetpos stream pos) w = none := by
  refine run_reentered (fun call => ∃ fp, call = .fgetpos fp pos) ?_ ⟨stream, rfl⟩ fuel w
  rintro call ⟨fp, rfl⟩
  exact ⟨rfl, getActualFp l fp, rfl⟩

theorem fsetpos_reentered (stream pos fuel : Nat) (w : W) :
    run (wrapper l) glibc fuel (.fsetpos stream pos) w = none := by
  refine run_reentered (fun call => ∃ fp, call = .fsetpos fp pos) ?_ ⟨stream, rfl⟩ fuel w
  rintro call ⟨fp, rfl⟩
  exact ⟨rfl, getActualFp l fp, rfl⟩

theorem funopen_reentered (cookie readfn writefn seekfn closefn fuel : Nat) (w : W) :
    run (wrapper l) glibc fuel (.funopen cookie readfn writefn seekfn closefn) w = none := by
  refine run_reentered
    (fun call => call = .funopen cookie readfn writefn seekfn closefn) ?_ rfl fuel w
  rintro call rfl
  exact ⟨rfl, rfl⟩

end Wrapper

/-- No position is ever saved or restored and no cookie is ever opened, whatever the
stream and whatever glibc does. -/
theorem positions_never_restored (l : Layout) (glibc : Glibc W) (position : W → Nat → P)
    (stream pos : Nat) (between : List Call) (cookie readfn writefn seekfn closefn : Nat) (w : W) :
    ¬ Restores l (wrapper l) glibc position stream pos between w ∧
      (∀ fuel, run (wrapper l) glibc fuel (.fsetpos stream pos) w = none) ∧
      ¬ Opens (wrapper l) glibc cookie readfn writefn seekfn closefn w := by
  refine ⟨?_, fun fuel => fsetpos_reentered l glibc stream pos fuel w, ?_⟩
  · rintro ⟨fuel, saved, _, _, hsaved, _⟩
    rw [fgetpos_reentered] at hsaved
    cases hsaved
  · rintro ⟨fuel, r, hr, _⟩
    rw [funopen_reentered] at hr
    cases hr

/-- The bodies with the names that the other wrappers use. -/
def forwarded (l : Layout) : Body := fun call => (.glibc, (wrapper l call).2)

section Forwarded

variable {l : Layout} {glibc : Glibc W} {position saved : W → Nat → P} {pos : Nat}

theorem play_forwarded (h : Restoring glibc position saved) {calls : List Call}
    (hcalls : ∀ call ∈ calls, ∀ fp, (wrapper l call).2 ≠ .fgetpos fp pos) (w : W) :
    ∃ w', play (forwarded l) glibc 2 calls w = some w' ∧ saved w' pos = saved w pos := by
  induction calls generalizing w with
  | nil => exact ⟨w, rfl, rfl⟩
  | cons call calls ih =>
    obtain ⟨hcall, hcalls⟩ := List.forall_mem_cons.mp hcalls
    obtain ⟨w', hplay, hsaved⟩ := ih hcalls (glibc (wrapper l call).2 w).2
    refine ⟨w', ?_, hsaved.trans (h.other _ pos w hcall)⟩
    rw [play, run_forwarded rfl]
    exact hplay

/-- With those names every position is restored. -/
theorem restores_forwarded (h : Restoring glibc position saved) (stream : Nat)
    {between : List Call} (hbetween : ∀ call ∈ between, ∀ fp, (wrapper l call).2 ≠ .fgetpos fp pos)
    (w : W) : Restores l (forwarded l) glibc position stream pos between w := by
  obtain ⟨w', hplay, hsaved⟩ :=
    play_forwarded h hbetween (glibc (.fgetpos (getActualFp l stream) pos) w).2
  refine ⟨2, _, w', _, run_forwarded rfl 0 w, rfl, hplay, run_forwarded rfl 0 w', rfl, ?_⟩
  calc position (glibc (.fsetpos (getActualFp l stream) pos) w').2 (getActualFp l stream)
      = saved w' pos := h.fsetpos _ pos w'
    _ = saved (glibc (.fgetpos (getActualFp l stream) pos) w).2 pos := hsaved
    _ = position w (getActualFp l stream) := h.fgetpos _ pos w

end Forwarded

structure Positions where
  position : Nat → Nat
  saved : Nat → Nat

def savePositions : Glibc Positions
  | .fgetpos fp pos, w => (0, { w with saved := Function.update w.saved pos (w.position fp) })
  | .fsetpos fp pos, w => (0, { w with position := Function.update w.position fp (w.saved pos) })
  | .rewind fp, w => (0, { w with position := Function.update w.position fp 0 })
  | _, w => (0, w)

theorem restoring_savePositions :
    Restoring savePositions Positions.position Positions.saved where
  fgetpos fp pos w := Function.update_self ..
  fsetpos fp pos w := Function.update_self ..
  other call pos w hother := by
    cases call with
    | fgetpos fp pos' =>
      have hne : pos ≠ pos' := fun he => hother fp (he ▸ rfl)
      exact Function.update_of_ne hne _ _
    | _ => rfl

/-- Not even the position of the standard output is. -/
theorem not_restores_stdout :
    Restoring savePositions Positions.position Positions.saved ∧
      ¬ Restores layout (wrapper layout) savePositions Positions.position 1084 64 [.rewind 16]
        ⟨fun _ => 7, fun _ => 0⟩ := by
  refine ⟨restoring_savePositions, ?_⟩
  rintro ⟨fuel, saved, _, _, hsaved, _⟩
  rw [fgetpos_reentered] at hsaved
  cases hsaved

end FakeLibc.StreamPositions

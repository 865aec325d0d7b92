import FakeLibc.Lib.Run
import Mathlib.Algebra.Group.Nat.Defs
import Mathlib.Algebra.Ring.Int.Defs

namespace FakeLibc.RemoteBuffers

open FakeLibc.Lib.Run

inductive Disposal
  | allocFree
  | unregisterBuffer
  | nativeHandleClose
  | nativeHandleDelete
deriving DecidableEq

/-- The members of a `RemoteWindowBuffer` that decide on its end. `alloc` says
that it has an allocator. -/
structure RemoteWindowBuffer where
  allocated : Bool
  alloc : Bool
  refcount : BitVec 32
deriving DecidableEq

def remoteWindowBuffer (alloc : Bool) : RemoteWindowBuffer := ⟨false, alloc, 0⟩

def setAllocated (b : RemoteWindowBuffer) (allocated : Bool) : RemoteWindowBuffer :=
  { b with allocated := allocated }

def incRef (b : RemoteWindowBuffer) : RemoteWindowBuffer := { b with refcount := b.refcount + 1 }

/-- The buffer is deleted when the count was 1. -/
def decRef (b : RemoteWindowBuffer) : Option RemoteWindowBuffer :=
  if b.refcount = 1 then none else some { b with refcount := b.refcount - 1 }

def dispose (b : RemoteWindowBuffer) : List Disposal :=
  if !b.allocated then [.unregisterBuffer, .nativeHandleClose, .nativeHandleDelete]
  else if b.alloc then [.allocFree]
  else []

inductive Constructor
  | create
  | createServer
deriving DecidableEq

def Constructor.build : Constructor → RemoteWindowBuffer
  | .create => incRef (remoteWindowBuffer false)
  | .createServer => incRef (setAllocated (remoteWindowBuffer true) true)

/-- One buffer, which is null once it is deleted, with its `wl_buffer` resource.
`acquired` counts the references that were acquired and not yet released. -/
structure State where
  resource : Bool
  buf : Option RemoteWindowBuffer
  acquired : Nat
  log : List Disposal
deriving DecidableEq

def start (c : Constructor) : State := ⟨true, some c.build, 0, []⟩

def State.unref (s : State) (b : RemoteWindowBuffer) : State :=
  match decRef b with
  | none => { s with buf := none, log := s.log ++ dispose b }
  | some b => { s with buf := some b }

/-- `out` says that there is a place for the result. -/
def eglHybrisAcquireNativeBufferWL (s : State) (b : RemoteWindowBuffer) (out : Bool) : State :=
  if !out then s
  else if !b.allocated then s
  else { s with buf := some (incRef b), acquired := s.acquired + 1 }

def eglHybrisReleaseNativeBuffer (s : State) (b : RemoteWindowBuffer) : State :=
  { s with acquired := s.acquired - 1 }.unref b

def serverWleglBufferDtor (s : State) (b : RemoteWindowBuffer) : State :=
  { s with resource := false }.unref b

inductive Action
  | acquire (out : Bool)
  | release
  | destroyResource
deriving DecidableEq

/-- A reference is released once, and the resource is not used after its end.
The use of a deleted buffer ends the process. -/
def step (s : State) : Action → Option State
  | .acquire out =>
    if s.resource then s.buf.map (fun b => eglHybrisAcquireNativeBufferWL s b out) else none
  | .release =>
    if 0 < s.acquired then s.buf.map (fun b => eglHybrisReleaseNativeBuffer s b) else none
  | .destroyResource =>
    if s.resource then s.buf.map (fun b => serverWleglBufferDtor s b) else none

def State.references (s : State) : Nat := (if s.resource then 1 else 0) + s.acquired

def Constructor.disposal : Constructor → List Disposal
  | .create => [.unregisterBuffer, .nativeHandleClose, .nativeHandleDelete]
  | .createServer => [.allocFree]

/-- The buffer is deleted when nothing refers to it any more, and then its
handle is given back as it was obtained. -/
structure Released (c : Constructor) (s : State) : Prop where
  deleted : s.buf = none ↔ s.resource = false ∧ s.acquired = 0
  disposed : s.log = if s.buf = none then c.disposal else []

/-- The count of 32 bits suffices. -/
def Bounded (s : State) : Action → Prop
  | .acquire _ => s.references < 2 ^ 32
  | _ => True

instance (s : State) (a : Action) : Decidable (Bounded s a) := by
  cases a <;> simp only [Bounded] <;> infer_instance

structure Counted (c : Constructor) (s : State) (b : RemoteWindowBuffer) : Prop where
  dispose : dispose b = c.disposal
  refcount : b.refcount = BitVec.ofNat 32 s.references
  pos : 0 < s.references
  le : s.references ≤ 2 ^ 32
  log : s.log = []

def Inv (c : Constructor) (s : State) : Prop :=
  match s.buf with
  | none => s.references = 0 ∧ s.log = c.disposal
  | some b => Counted c s b

theorem references_eq_zero (s : State) :
    s.references = 0 ↔ s.resource = false ∧ s.acquired = 0 := by
  unfold State.references
  cases s.resource <;> simp

theorem Inv.released {c : Constructor} {s : State} (h : Inv c s) : Released c s := by
  cases hbuf : s.buf with
  | none =>
    rw [Inv, hbuf] at h
    exact ⟨iff_of_true hbuf ((references_eq_zero s).mp h.1), by rw [if_pos hbuf, h.2]⟩
  | some b =>
    rw [Inv, hbuf] at h
    have hne : s.buf ≠ none := hbuf ▸ Option.some_ne_none b
    refine ⟨iff_of_false hne (fun hzero => ?_), by rw [if_neg hne, h.log]⟩
    have hpos := h.pos
    rw [(references_eq_zero s).mpr hzero] at hpos
    exact Nat.lt_irrefl 0 hpos

theorem inv_start (c : Constructor) : Inv c (start c) := by
  cases c with
  | create => exact ⟨rfl, rfl, by decide, by decide, rfl⟩
  | createServer => exact ⟨rfl, rfl, by decide, by decide, rfl⟩

section Count

variable {n : Nat}

theorem ofNat_eq_one_iff (hpos : 0 < n) (hle : n ≤ 2 ^ 32) : BitVec.ofNat 32 n = 1 ↔ n = 1 := by
  rw [← BitVec.toNat_inj, BitVec.toNat_ofNat]
  have hone : (1 : BitVec 32).toNat = 1 := rfl
  omega

theorem ofNat_add_one (n : Nat) : BitVec.ofNat 32 n + 1 = BitVec.ofNat 32 (n + 1) := by
  apply BitVec.eq_of_toNat_eq
  simp [BitVec.toNat_add]

theorem ofNat_sub_one (hpos : 0 < n) : BitVec.ofNat 32 n - 1 = BitVec.ofNat 32 (n - 1) := by
  obtain ⟨m, rfl⟩ := Nat.exists_eq_succ_of_ne_zero (Nat.ne_of_gt hpos)
  rw [Nat.succ_eq_add_one, ← ofNat_add_one, Nat.add_sub_cancel]
  exact BitVec.add_sub_cancel _ _

end Count

section Step

variable {c : Constructor} {s t : State} {b : RemoteWindowBuffer}

theorem inv_unref (h : Counted c s b) (hlog : t.log = []) (ht : t.references + 1 = s.references) :
    Inv c (t.unref b) := by
  have hiff := ofNat_eq_one_iff h.pos h.le
  rw [← h.refcount] at hiff
  unfold State.unref decRef
  by_cases hone : b.refcount = 1
  · rw [if_pos hone]
    have hrefs := hiff.mp hone
    refine ⟨?_, ?_⟩
    · exact Nat.succ.inj (ht.trans hrefs)
    · rw [hlog, h.dispose]
      rfl
  · rw [if_neg hone]
    have hne : s.references ≠ 1 := fun hrefs => hone (hiff.mpr hrefs)
    have hpos := h.pos
    have hle := h.le
    have hsub : s.references - 1 = t.references := by omega
    refine ⟨h.dispose, ?_, ?_, ?_, hlog⟩
    · rw [h.refcount, ofNat_sub_one hpos, hsub]
      rfl
    · exact (by omega : 0 < t.references)
    · exact (by omega : t.references ≤ 2 ^ 32)

theorem inv_acquire (h : Counted c s b) (hbuf : s.buf = some b) (hres : s.resource = true)
    (hlt : s.references < 2 ^ 32) (out : Bool) :
    Inv c (eglHybrisAcquireNativeBufferWL s b out) := by
  have hsame : Inv c s := by
    rw [Inv, hbuf]
    exact h
  unfold eglHybrisAcquireNativeBufferWL
  split
  · exact hsame
  · split
    · exact hsame
    · have hrefs : ∀ buf log, State.references ⟨s.resource, buf, s.acquired + 1, log⟩ =
          s.references + 1 := by
        intro buf log
        simp only [State.references, hres]
        omega
      refine ⟨h.dispose, ?_, ?_, ?_, h.log⟩
      · rw [hrefs, ← ofNat_add_one, ← h.refcount]
        rfl
      · rw [hrefs]
        exact Nat.succ_pos _
      · rw [hrefs]
        exact hlt

theorem inv_step {a : Action} (hs : Inv c s) (hc : Bounded s a) (h : step s a = some t) :
    Inv c t := by
  cases a with
  | acquire out =>
    obtain ⟨hres, h⟩ := Option.ite_none_right_eq_some.mp h
    obtain ⟨b, hbuf, rfl⟩ := Option.map_eq_some_iff.mp h
    rw [Inv, hbuf] at hs
    exact inv_acquire hs hbuf hres hc out
  | release =>
    obtain ⟨hacq, h⟩ := Option.ite_none_right_eq_some.mp h
    obtain ⟨b, hbuf, rfl⟩ := Option.map_eq_some_iff.mp h
    rw [Inv, hbuf] at hs
    refine inv_unref hs hs.log ?_
    simp only [State.references]
    omega
  | destroyResource =>
    obtain ⟨hres, h⟩ := Option.ite_none_right_eq_some.mp h
    obtain ⟨b, hbuf, rfl⟩ := Option.map_eq_some_iff.mp h
    rw [Inv, hbuf] at hs
    refine inv_unref hs hs.log ?_
    simp only [State.references, hres]
    simp
    omega

end Step

/-- Whatever the order, a buffer is released once, if there are never more than
`2 ^ 32` references to it. -/
theorem released_of_bounded (c : Constructor) (actions : List Action)
    (hbounded : Guarded step Bounded (start c) actions) :
    Always step (Released c) (start c) actions :=
  (always_of_guarded (fun _ _ _ hs hc h => inv_step hs hc h) (inv_start c) hbounded).mono
    (fun _ hs => hs.released)

theorem released_of_bounded_outlived :
    Always step (Released .createServer) (start .createServer)
      [.acquire true, .acquire true, .destroyResource, .release, .release] :=
  released_of_bounded _ _ (by decide)

theorem exec_acquire (n : Nat) (s : State) (b : RemoteWindowBuffer) (hres : s.resource = true)
    (hbuf : s.buf = some b) (halloc : b.allocated = true) :
    exec step s (List.replicate n (.acquire true)) = some { s with
      buf := some { b with refcount := b.refcount + BitVec.ofNat 32 n }
      acquired := s.acquired + n } := by
  induction n generalizing s b with
  | zero =>
    have hsame : ({ b with refcount := b.refcount + BitVec.ofNat 32 0 } : RemoteWindowBuffer) = b :=
      congrArg (RemoteWindowBuffer.mk b.allocated b.alloc) (BitVec.add_zero b.refcount)
    rw [hsame, ← hbuf]
    rfl
  | succ n ih =>
    have hstep : step s (.acquire true) =
        some { s with buf := some (incRef b), acquired := s.acquired + 1 } := by
      simp [step, hres, hbuf, eglHybrisAcquireNativeBufferWL, halloc]
    have hcount : b.refcount + 1 + BitVec.ofNat 32 n = b.refcount + BitVec.ofNat 32 (n + 1) := by
      rw [← ofNat_add_one, BitVec.add_assoc, BitVec.add_comm 1]
    rw [List.replicate_succ, exec_cons, hstep, Option.bind_some]
    refine (ih { s with buf := some (incRef b), acquired := s.acquired + 1 } (incRef b) hres rfl
      halloc).trans ?_
    simp only [incRef, hcount, Nat.add_assoc, Nat.add_comm 1]

/-- When acquisitions have brought the count back to 1, the first release
deletes the buffer. -/
theorem exec_wrapped {n : Nat} (hpos : 0 < n) (hzero : BitVec.ofNat 32 n = 0#32) :
    exec step (start .createServer) (List.replicate n (.acquire true) ++ [.release]) =
      some ⟨true, none, n - 1, [.allocFree]⟩ := by
  have hacquired := exec_acquire n (start .createServer) _ rfl rfl rfl
  rw [hzero, BitVec.add_zero] at hacquired
  rw [exec_append, hacquired]
  simp [step, start, hpos, eglHybrisReleaseNativeBuffer, State.unref, decRef, Constructor.build,
    incRef, setAllocated, remoteWindowBuffer, dispose]

theorem not_released_wrapped :
    ¬ Always step (Released .createServer) (start .createServer)
      (List.replicate (2 ^ 32) (.acquire true) ++ [.release]) := by
  intro h
  have hrun := exec_wrapped (n := 2 ^ 32) (by decide) rfl
  have hlast := (h _ _ List.prefix_rfl hrun).deleted.mp rfl
  exact absurd hlast.1 (by decide)

end FakeLibc.RemoteBuffers

import FakeLibc.Lib.Run

namespace FakeLibc.StdStreams

open FakeLibc.Lib.Run

/-- A stream is the address of a `FILE` of either library. Three lie in the
array `__sF`, and those of glibc elsewhere. -/
structure Layout where
  sF : Nat
  size : Nat
  stdin : Nat
  stdout : Nat
  stderr : Nat
  pos : 0 < size
  stdin_outside : stdin < sF ∨ sF + 3 * size ≤ stdin
  stdout_outside : stdout < sF ∨ sF + 3 * size ≤ stdout
  stderr_outside : stderr < sF ∨ sF + 3 * size ≤ stderr

def Layout.Inside (l : Layout) (p : Nat) : Prop := l.sF ≤ p ∧ p < l.sF + 3 * l.size

instance (l : Layout) (p : Nat) : Decidable (l.Inside p) :=
  inferInstanceAs (Decidable (l.sF ≤ p ∧ p < l.sF + 3 * l.size))

def Layout.standard (l : Layout) : List Nat := [l.sF, l.sF + l.size, l.sF + 2 * l.size]

def getActualFp (l : Layout) (fp : Nat) : Nat :=
  if fp = l.sF then l.stdin
  else if fp = l.sF + l.size then l.stdout
  else if fp = l.sF + 2 * l.size then l.stderr
  else fp

/-- The exported functions that take a stream, `freopen` apart. -/
inductive Entry
  | vfprintf | fprintf | fputs | fputc | fgetc | fgets | getc | ungetc | fread | fwrite | fflush
  | fscanf | vfscanf | fwprintf | fwscanf | fgetwc | fgetws | fputwc | fputws | fwide | getwc
  | putwc | fclose | getline | ferror | fseek | fseeko | ftell | fileno | vfwprintf | vfwscanf
  | rewind | ftello | feof | fgetpos | fsetpos | clearerr | clearerrUnlocked | endmntent
  | getmntent | getmntentR | putc | putcUnlocked | setbuf | setbuffer | setlinebuf | setvbuf
deriving DecidableEq

inductive Route
  | actual
  | asGiven
  | nowhere
deriving DecidableEq

/-- The last row is bound to glibc as it is, and the row before it calls itself
until the stack is used up. -/
def route : Entry → Route
  | .vfprintf | .fprintf | .fputs | .fputc | .fgetc | .fgets | .getc | .ungetc | .fread | .fwrite
  | .fflush | .fscanf | .vfscanf | .fwprintf | .fwscanf | .fgetwc | .fgetws | .fputwc | .fputws
  | .fwide | .getwc | .putwc | .fclose | .getline | .ferror | .fseek | .fseeko | .ftell
  | .fileno => .actual
  | .vfwprintf | .vfwscanf | .rewind | .ftello | .feof => .asGiven
  | .fgetpos | .fsetpos => .nowhere
  | .clearerr | .clearerrUnlocked | .endmntent | .getmntent | .getmntentR | .putc | .putcUnlocked
  | .setbuf | .setbuffer | .setlinebuf | .setvbuf => .asGiven

def received (l : Layout) (e : Entry) (stream : Nat) : Option Nat :=
  match route e with
  | .actual => some (getActualFp l stream)
  | .asGiven => some stream
  | .nowhere => none

/-- The streams that were handed out, and each stream argument with what glibc
received for it. -/
structure State where
  opened : List Nat
  log : List (Nat × Nat)
deriving DecidableEq

def start : State := ⟨[], []⟩

inductive Call
  | fopen (result : Nat)
  | fdopen (result : Nat)
  | freopen (stream result : Nat)
  | call (e : Entry) (stream : Nat)
deriving DecidableEq

/-- glibc returns no address inside `__sF`, and a client passes on a standard
stream or what it was given. -/
def Enabled (l : Layout) (s : State) : Call → Prop
  | .fopen result => ¬ l.Inside result
  | .fdopen result => ¬ l.Inside result
  | .freopen stream result => stream ∈ l.standard ++ s.opened ∧ ¬ l.Inside result
  | .call _ stream => stream ∈ l.standard ++ s.opened

instance (l : Layout) (s : State) : (c : Call) → Decidable (Enabled l s c)
  | .fopen result => inferInstanceAs (Decidable (¬ l.Inside result))
  | .fdopen result => inferInstanceAs (Decidable (¬ l.Inside result))
  | .freopen stream result =>
    inferInstanceAs (Decidable (stream ∈ l.standard ++ s.opened ∧ ¬ l.Inside result))
  | .call _ stream => inferInstanceAs (Decidable (stream ∈ l.standard ++ s.opened))

def State.opens (s : State) (result : Nat) : State :=
  if result = 0 then s else { s with opened := result :: s.opened }

def State.receives (s : State) (stream : Nat) : Option Nat → State
  | none => s
  | some fp => { s with log := (stream, fp) :: s.log }

def perform (l : Layout) (s : State) : Call → State
  | .fopen result => s.opens result
  | .fdopen result => s.opens result
  | .freopen stream result => (s.receives stream (some (getActualFp l stream))).opens result
  | .call e stream => s.receives stream (received l e stream)

def step (l : Layout) (s : State) (c : Call) : Option State :=
  if Enabled l s c then some (perform l s c) else none

/-- glibc receives the actual stream of every argument, and nothing in `__sF`. -/
def Translated (l : Layout) (s : State) : Prop :=
  ∀ e ∈ s.log, e.2 = getActualFp l e.1 ∧ ¬ l.Inside e.2

/-- What passes its argument on as given does not get a standard stream. -/
def Kept (l : Layout) : Call → Prop
  | .call e stream => route e = .asGiven → stream ∉ l.standard
  | _ => True

structure Inv (l : Layout) (s : State) : Prop where
  translated : Translated l s
  opened : ∀ fp ∈ s.opened, ¬ l.Inside fp

variable {l : Layout} {s t : State} {c : Call} {fp : Nat}

theorem inside_of_standard (h : fp ∈ l.standard) : l.Inside fp := by
  have hpos := l.pos
  simp only [Layout.standard, List.mem_cons, List.not_mem_nil, or_false] at h
  unfold Layout.Inside
  omega

theorem getActualFp_of_not_standard (h : fp ∉ l.standard) : getActualFp l fp = fp := by
  simp only [Layout.standard, List.mem_cons, List.not_mem_nil, or_false, not_or] at h
  simp [getActualFp, h]

theorem not_inside_getActualFp (h : fp ∈ l.standard ∨ ¬ l.Inside fp) :
    ¬ l.Inside (getActualFp l fp) := by
  by_cases hs : fp ∈ l.standard
  · have hin := l.stdin_outside
    have hout := l.stdout_outside
    have herr := l.stderr_outside
    simp only [Layout.standard, List.mem_cons, List.not_mem_nil, or_false] at hs
    unfold getActualFp Layout.Inside
    split
    · omega
    · split
      · omega
      · split <;> omega
  · rw [getActualFp_of_not_standard hs]
    exact h.resolve_left hs

theorem not_inside_of_mem (hi : Inv l s) (h : fp ∈ l.standard ++ s.opened) :
    fp ∈ l.standard ∨ ¬ l.Inside fp := (List.mem_append.mp h).imp id (hi.opened fp)

theorem inv_opens (hi : Inv l s) {result : Nat} (h : ¬ l.Inside result) :
    Inv l (s.opens result) := by
  unfold State.opens
  split
  · exact hi
  · exact ⟨hi.translated, List.forall_mem_cons.mpr ⟨h, hi.opened⟩⟩

theorem inv_receives (hi : Inv l s) {stream : Nat}
    (h : stream ∈ l.standard ∨ ¬ l.Inside stream) :
    Inv l (s.receives stream (some (getActualFp l stream))) :=
  ⟨List.forall_mem_cons.mpr ⟨⟨rfl, not_inside_getActualFp h⟩, hi.translated⟩, hi.opened⟩

/-- The one way to miss the translation is to pass a standard stream on. -/
theorem received_eq (e : Entry) (h : route e = .asGiven → fp ∉ l.standard) :
    received l e fp = none ∨ received l e fp = some (getActualFp l fp) := by
  unfold received
  cases hr : route e with
  | actual => exact .inr rfl
  | asGiven => exact .inr (by rw [getActualFp_of_not_standard (h hr)])
  | nowhere => exact .inl rfl

theorem step_cases (h : step l s c = some t) : Enabled l s c ∧ t = perform l s c := by
  unfold step at h
  split at h
  · rename_i he
    exact ⟨he, (Option.some.inj h).symm⟩
  · cases h

theorem inv_step (hi : Inv l s) (hc : Kept l c) (h : step l s c = some t) : Inv l t := by
  obtain ⟨he, rfl⟩ := step_cases h
  cases c with
  | fopen result => exact inv_opens hi he
  | fdopen result => exact inv_opens hi he
  | freopen stream result => exact inv_opens (inv_receives hi (not_inside_of_mem hi he.1)) he.2
  | call e stream =>
    simp only [perform]
    obtain hr | hr := received_eq e hc
    · rw [hr]
      exact hi
    · rw [hr]
      exact inv_receives hi (not_inside_of_mem hi he)

theorem not_translated_of_not_kept (hc : ¬ Kept l c) (h : step l s c = some t) :
    ¬ Translated l t := by
  obtain ⟨_, rfl⟩ := step_cases h
  cases c with
  | call e stream =>
    simp only [Kept, Classical.not_imp, not_not] at hc
    obtain ⟨hr, hs⟩ := hc
    intro ht
    have hreceived : received l e stream = some stream := by rw [received, hr]
    have hlog := ht (stream, stream) (by simp [perform, hreceived, State.receives])
    exact hlog.2 (inside_of_standard hs)
  | _ => exact absurd trivial hc

theorem translated_iff_kept {calls : List Call} (hrun : (exec (step l) start calls).isSome) :
    Always (step l) (Translated l) start calls ↔
      Guarded (step l) (fun _ => Kept l) start calls :=
  always_iff_guarded (fun _ hi => hi.translated) (fun _ _ _ => inv_step)
    (fun _ _ _ _ => not_translated_of_not_kept)
    ⟨fun _ h => absurd h List.not_mem_nil, fun _ h => absurd h List.not_mem_nil⟩ hrun

def layout : Layout where
  sF := 1000
  size := 84
  stdin := 8
  stdout := 16
  stderr := 24
  pos := by decide
  stdin_outside := by decide
  stdout_outside := by decide
  stderr_outside := by decide

theorem translated_iff_kept_file :
    Always (step layout) (Translated layout) start
        [.call .fputs 1084, .fopen 64, .call .rewind 64, .freopen 1084 16, .call .feof 16] ↔
      Guarded (step layout) (fun _ => Kept layout) start
        [.call .fputs 1084, .fopen 64, .call .rewind 64, .freopen 1084 16, .call .feof 16] :=
  translated_iff_kept (by decide)

/-- A character goes to Android's own `stdout`. -/
theorem not_translated_putc :
    ¬ ∀ calls, (exec (step layout) start calls).isSome →
      Always (step layout) (Translated layout) start calls := by
  intro h
  have ht := h [.call .putc 1084] (by decide) _ _ List.prefix_rfl rfl
  exact absurd (ht (1084, 1084) (by decide)).2 (by decide)

end FakeLibc.StdStreams

import FakeLibc.FbDevWindow
import FakeLibc.Lib.Counting

namespace FakeLibc.FbDevStep

open FakeLibc.Lib.RefCount FakeLibc.Lib.Counting FakeLibc.FbDevWindow

def allocated (w : Window) (ok : Nat) : Window :=
  if w.allocateBuffers then reallocateBuffers w ok else w

def found (legacy : Bool) (w : Window) : Option Buffer := (freeNonFront w).or (freeFront legacy w)

def foundFree (legacy : Bool) (w : Window) : Option Buffer :=
  if w.freeBufs = 0 then none else found legacy w

/-- The window in which a call looks for a buffer. -/
def seen (w : Window) : Call → Window
  | .dequeueBuffer ok => allocated w ok
  | _ => w

def returned (legacy : Bool) (w : Window) : Call → Option Buffer
  | .dequeueBuffer ok => foundFree legacy (allocated w ok)
  | .wakeFree => foundFree legacy w
  | .wakeBuf => found legacy w
  | _ => none

def Dequeues : Call → Prop
  | .dequeueBuffer _ | .wakeFree | .wakeBuf => True
  | _ => False

def Sets : Call → Prop
  | .setUsage _ | .setBuffersFormat _ | .setBufferCount _ => True
  | _ => False

/-- All that a call can do. -/
inductive Move (legacy : Bool) (w : Window) : Call → Window → Prop
  | handOut {c : Call} {b : Buffer} (free buf : Nat) (hd : Dequeues c)
      (hb : returned legacy w c = some b) :
    Move legacy w c { handOut (seen w c) b with waitFree := free, waitBuf := buf }
  | wait {c : Call} (free buf : Nat) (hd : Dequeues c) (hb : returned legacy w c = none) :
    Move legacy w c { seen w c with waitFree := free, waitBuf := buf }
  | queue {b : Buffer} (hb : b ∈ w.held) (hbusy : w.busy b = 1) :
    Move legacy w (.queueBuffer b) (queueBuffer w b)
  | posted {b : Buffer} (hb : b ∈ w.posting) : Move legacy w (.posted b) (posted w b)
  | cancel {b : Buffer} (hb : b ∈ w.held) : Move legacy w (.cancelBuffer b) (cancelBuffer w b)
  | set {c : Call} (usage format count : Nat) (allocate : Bool) (hs : Sets c) :
    Move legacy w c
      { w with
        usage := usage, bufFormat := format, bufferCount := count, allocateBuffers := allocate }

variable {legacy : Bool} {w v : Window} {c : Call} {b : Buffer}

theorem take_of_found (h : found legacy w = some b) : take legacy w = handOut w b := by
  rw [take, show (freeNonFront w).or (freeFront legacy w) = some b from h]

theorem take_of_none (h : found legacy w = none) :
    take legacy w = { w with waitBuf := w.waitBuf + 1 } := by
  rw [take, show (freeNonFront w).or (freeFront legacy w) = none from h]

theorem awaitFree_of_foundFree (h : foundFree legacy w = some b) :
    awaitFree legacy w = handOut w b := by
  rw [foundFree, Option.ite_none_left_eq_some] at h
  rw [awaitFree, if_neg h.1, take_of_found h.2]

theorem awaitFree_of_none (h : foundFree legacy w = none) :
    ∃ free buf, awaitFree legacy w = { w with waitFree := free, waitBuf := buf } := by
  rw [awaitFree]
  split
  · exact ⟨_, _, rfl⟩
  · rename_i hfree
    rw [foundFree, if_neg hfree] at h
    exact ⟨_, _, take_of_none h⟩

theorem perform_of_step (h : step legacy w c = some v) :
    Enabled w c ∧ v = perform legacy w c := by
  rw [step, Option.ite_none_right_eq_some, Option.some.injEq] at h
  exact ⟨h.1, h.2.symm⟩

theorem move_of_step (h : step legacy w c = some v) : Move legacy w c v := by
  obtain ⟨he, rfl⟩ := perform_of_step h
  cases c with
  | dequeueBuffer ok =>
    cases hb : foundFree legacy (allocated w ok) with
    | none =>
      obtain ⟨free, buf, heq⟩ := awaitFree_of_none hb
      rw [perform, dequeueBuffer, ← allocated, heq]
      exact .wait free buf trivial hb
    | some b =>
      rw [perform, dequeueBuffer, ← allocated, awaitFree_of_foundFree hb]
      exact .handOut _ _ trivial hb
  | wakeFree =>
    cases hb : foundFree legacy { w with waitFree := w.waitFree - 1 } with
    | none =>
      obtain ⟨free, buf, heq⟩ := awaitFree_of_none hb
      rw [perform, heq]
      exact .wait free buf trivial hb
    | some b =>
      rw [perform, awaitFree_of_foundFree hb]
      exact .handOut _ _ trivial hb
  | wakeBuf =>
    cases hb : found legacy { w with waitBuf := w.waitBuf - 1 } with
    | none =>
      rw [perform, take_of_none hb]
      exact .wait _ _ trivial hb
    | some b =>
      rw [perform, take_of_found hb]
      exact .handOut _ _ trivial hb
  | queueBuffer b => exact .queue he.1 he.2
  | posted b => exact .posted he
  | cancelBuffer b => exact .cancel he
  | setUsage usage => exact .set _ _ _ _ trivial
  | setBuffersFormat format => exact .set _ _ _ _ trivial
  | setBufferCount cnt =>
    rw [perform, setBufferCount]
    split
    · exact .set _ _ _ _ trivial
    · exact .set w.usage w.bufFormat w.bufferCount w.allocateBuffers trivial

theorem returned_of_sets (w : Window) (hs : Sets c) : returned legacy w c = none := by
  cases c with
  | setUsage _ | setBuffersFormat _ | setBufferCount _ => rfl
  | _ => exact hs.elim

theorem seen_of_sets (w : Window) (hs : Sets c) : seen w c = w := by
  cases c with
  | setUsage _ | setBuffersFormat _ | setBufferCount _ => rfl
  | _ => exact hs.elim

def isFree (w : Window) (b : Buffer) : Bool := w.busy b = 0

def takable (w : Window) (b : Buffer) : Bool := w.frontBuf ≠ some b ∧ w.busy b = 0

def freeCount (w : Window) : Nat := w.bufs.list.countP (isFree w)

theorem freeNonFront_eq : freeNonFront w = w.bufs.list.find? (takable w) := rfl

theorem mem_of_freeNonFront (h : freeNonFront w = some b) :
    b ∈ w.bufs.list ∧ w.busy b = 0 ∧ w.frontBuf ≠ some b := by
  have htake := List.find?_some h
  simp only [decide_eq_true_eq] at htake
  exact ⟨List.mem_of_find?_eq_some h, htake.2, htake.1⟩

theorem busy_of_found (h : found legacy w = some b) : w.busy b = 0 := by
  obtain h | ⟨_, h⟩ := Option.or_eq_some_iff.mp h
  · exact (mem_of_freeNonFront h).2.1
  · rw [freeFront] at h
    split at h
    · exact of_decide_eq_true (Option.filter_eq_some_iff.mp h).2
    · cases h

theorem found_of_foundFree (h : foundFree legacy w = some b) : found legacy w = some b :=
  (Option.ite_none_left_eq_some.mp h).2

theorem found_of_returned (h : returned legacy w c = some b) :
    found legacy (seen w c) = some b := by
  cases c with
  | dequeueBuffer ok => exact found_of_foundFree h
  | wakeFree => exact found_of_foundFree h
  | wakeBuf => exact h
  | _ => cases h

theorem returned_eq (legacy : Bool) (w : Window) (hd : Dequeues c) :
    returned legacy w c = foundFree legacy (seen w c) ∨
      returned legacy w c = found legacy (seen w c) := by
  cases c with
  | dequeueBuffer ok => exact .inl rfl
  | wakeFree => exact .inl rfl
  | wakeBuf => exact .inr rfl
  | _ => exact hd.elim

theorem list_reallocateBuffers (w : Window) (ok : Nat) :
    (reallocateBuffers w ok).bufs.list = List.range' w.bufs.next (min w.bufferCount ok) := by
  have h : (reallocateBuffers w ok).bufs.list = (w.bufs.clear.fill w.bufferCount ok).list := rfl
  rw [h, list_fill]
  rfl

theorem busy_reallocateBuffers {ok : Nat} (hb : b ∈ (reallocateBuffers w ok).bufs.list) :
    (reallocateBuffers w ok).busy b = 0 := if_pos hb

theorem freeCount_reallocateBuffers (w : Window) (ok : Nat) :
    (reallocateBuffers w ok).freeBufs = freeCount (reallocateBuffers w ok) := by
  have hall : freeCount (reallocateBuffers w ok) = (reallocateBuffers w ok).bufs.list.length := by
    refine List.countP_eq_length.mpr fun b hb => ?_
    rw [isFree, busy_reallocateBuffers hb]
    rfl
  rw [hall]
  rfl

theorem nodup_reallocateBuffers (w : Window) (ok : Nat) :
    (reallocateBuffers w ok).bufs.list.Nodup := by
  rw [list_reallocateBuffers]
  exact List.nodup_range'

/-- What holds before and after the list is made anew holds of the window in
which a call looks for a buffer. -/
theorem seen_of_both {P : Window → Prop} (h : P w) (hnew : ∀ ok, P (reallocateBuffers w ok))
    (c : Call) : P (seen w c) := by
  cases c with
  | dequeueBuffer ok =>
    rw [seen, allocated]
    split
    · exact hnew ok
    · exact h
  | _ => exact h

theorem seen_held (w : Window) (c : Call) : (seen w c).held = w.held :=
  seen_of_both (P := fun v => v.held = w.held) rfl (fun _ => rfl) c

theorem seen_posting (w : Window) (c : Call) : (seen w c).posting = w.posting :=
  seen_of_both (P := fun v => v.posting = w.posting) rfl (fun _ => rfl) c

theorem seen_outstanding (w : Window) (c : Call) : outstanding (seen w c) = outstanding w := by
  rw [outstanding, seen_held, seen_posting]
  rfl

theorem perm_posted (hb : b ∈ w.posting) :
    (outstanding w).Perm (b :: outstanding (posted w b)) :=
  ((List.perm_cons_erase hb).append_left w.held).trans List.perm_middle

theorem perm_cancelBuffer (hb : b ∈ w.held) :
    (outstanding w).Perm (b :: outstanding (cancelBuffer w b)) :=
  (List.perm_cons_erase hb).append_right w.posting

theorem perm_queueBuffer (hb : b ∈ w.held) :
    (outstanding w).Perm (outstanding (queueBuffer w b)) :=
  (perm_cancelBuffer hb).trans List.perm_middle.symm

theorem fbDevNativeWindow_empty (g : Garbage) (usage format framebuffers : Nat) :
    (fbDevNativeWindow g usage format framebuffers).bufs.list = [] ∧
      (fbDevNativeWindow g usage format framebuffers).freeBufs = g.freeBufs ∧
      outstanding (fbDevNativeWindow g usage format framebuffers) = [] := by
  rw [fbDevNativeWindow, setBufferCount]
  split <;> exact ⟨rfl, rfl, rfl⟩

theorem freeCount_congr (hlist : v.bufs.list = w.bufs.list)
    (hfree : ∀ d ∈ w.bufs.list, isFree w d = isFree v d) : freeCount v = freeCount w := by
  rw [freeCount, freeCount, hlist]
  apply List.countP_congr
  intro d hd
  rw [hfree d hd]

/-- What a new busy value does to the number of free buffers. -/
theorem freeCount_update (hl : w.bufs.list.Nodup) (hlist : v.bufs.list = w.bufs.list) {x : Nat}
    (hbusy : v.busy = Function.update w.busy b x) :
    freeCount v + (if b ∈ w.bufs.list ∧ w.busy b = 0 then 1 else 0) =
      freeCount w + (if b ∈ w.bufs.list ∧ x = 0 then 1 else 0) := by
  have hother : ∀ d, d ≠ b → isFree w d = isFree v d := fun d hd => by
    rw [isFree, isFree, hbusy, Function.update_of_ne hd]
  by_cases hb : b ∈ w.bufs.list
  · have h := countP_change (q := isFree v) hl hb hother
    simpa [hb, isFree, hbusy, freeCount, hlist] using h
  · have h : freeCount v = freeCount w :=
      freeCount_congr hlist (fun d hd => hother d (fun heq => hb (heq ▸ hd)))
    simp [hb, h]

end FakeLibc.FbDevStep

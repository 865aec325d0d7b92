import FakeLibc.FbDevStep
import FakeLibc.Lib.Condition

namespace FakeLibc.FbDevThreads

open FakeLibc.Lib.Run FakeLibc.Lib.Condition FakeLibc.FbDevWindow FakeLibc.FbDevStep

/-- The loops in which a thread waits: the two of `dequeueBuffer` and the one of
`lockBuffer`. -/
inductive Wait
  | free
  | buf
  | lock (b : Buffer)
deriving DecidableEq

def Wait.dequeues : Wait → Bool
  | .free | .buf => true
  | .lock _ => false

/-- The window with the threads that wait on its condition variable. -/
structure Threads where
  win : Window
  cond : CondVar Wait

/-- Test the condition of a loop, and of the one behind it. `none` goes through. -/
def test (legacy : Bool) (w : Window) : Wait → Option Wait
  | .free =>
    if w.freeBufs = 0 then some .free else if found legacy w = none then some .buf else none
  | .buf => if found legacy w = none then some .buf else none
  | .lock b => if w.frontBuf = some b then some (.lock b) else none

def goOn (legacy : Bool) (w : Window) : Wait → Window
  | .free => awaitFree legacy { w with waitFree := w.waitFree - 1 }
  | .buf => take legacy { w with waitBuf := w.waitBuf - 1 }
  | .lock _ => w

/-- `i` is the parked thread that a signal wakes, `j` the woken one that gets
the mutex. -/
inductive Action
  | dequeueBuffer (ok : Nat)
  | lockBuffer (b : Buffer)
  | queueBuffer (b : Buffer)
  | posted (b : Buffer) (i : Nat)
  | cancelBuffer (b : Buffer) (i : Nat)
  | resume (j : Nat)
  | setUsage (usage : Nat)
  | setBuffersFormat (format : Nat)
  | setBufferCount (cnt : Nat)
deriving DecidableEq

def Enabled (s : Threads) : Action → Prop
  | .queueBuffer b => b ∈ s.win.held ∧ s.win.busy b = 1
  | .posted b i => b ∈ s.win.posting ∧ s.cond.Signals i
  | .cancelBuffer b i => b ∈ s.win.held ∧ s.cond.Signals i
  | .resume j => j < s.cond.woken.length
  | _ => True

instance (s : Threads) : (a : Action) → Decidable (Enabled s a)
  | .queueBuffer b => inferInstanceAs (Decidable (b ∈ s.win.held ∧ s.win.busy b = 1))
  | .posted b i => inferInstanceAs (Decidable (b ∈ s.win.posting ∧ s.cond.Signals i))
  | .cancelBuffer b i => inferInstanceAs (Decidable (b ∈ s.win.held ∧ s.cond.Signals i))
  | .resume j => inferInstanceAs (Decidable (j < s.cond.woken.length))
  | .dequeueBuffer _ => .isTrue trivial
  | .lockBuffer _ => .isTrue trivial
  | .setUsage _ => .isTrue trivial
  | .setBuffersFormat _ => .isTrue trivial
  | .setBufferCount _ => .isTrue trivial

def perform (legacy : Bool) (s : Threads) : Action → Threads
  | .dequeueBuffer ok =>
    ⟨dequeueBuffer legacy s.win ok, s.cond.wait (test legacy (allocated s.win ok) .free)⟩
  | .lockBuffer b => ⟨s.win, s.cond.wait (test legacy s.win (.lock b))⟩
  | .queueBuffer b => ⟨queueBuffer s.win b, s.cond⟩
  | .posted b i => ⟨posted s.win b, s.cond.signal i⟩
  | .cancelBuffer b i => ⟨cancelBuffer s.win b, s.cond.signal i⟩
  | .resume j =>
    match s.cond.woken[j]? with
    | some k => ⟨goOn legacy s.win k, (s.cond.resume j).wait (test legacy s.win k)⟩
    | none => s
  | .setUsage usage => ⟨setUsage s.win usage, s.cond⟩
  | .setBuffersFormat format => ⟨setBuffersFormat s.win format, s.cond⟩
  | .setBufferCount cnt => ⟨setBufferCount s.win cnt, s.cond⟩

def threadStep (legacy : Bool) (s : Threads) (a : Action) : Option Threads :=
  if Enabled s a then some (perform legacy s a) else none

def threads (g : Garbage) (usage format framebuffers : Nat) : Threads :=
  ⟨fbDevNativeWindow g usage format framebuffers, .empty⟩

def Wait.call : Wait → Option Call
  | .free => some .wakeFree
  | .buf => some .wakeBuf
  | .lock _ => none

def call (s : Threads) : Action → Option Call
  | .dequeueBuffer ok => some (.dequeueBuffer ok)
  | .lockBuffer _ => none
  | .queueBuffer b => some (.queueBuffer b)
  | .posted b _ => some (.posted b)
  | .cancelBuffer b _ => some (.cancelBuffer b)
  | .resume j => s.cond.woken[j]?.bind Wait.call
  | .setUsage usage => some (.setUsage usage)
  | .setBuffersFormat format => some (.setBuffersFormat format)
  | .setBufferCount cnt => some (.setBufferCount cnt)

structure Agrees (s : Threads) : Prop where
  free : s.win.waitFree = s.cond.waiting (· = .free)
  buf : s.win.waitBuf = s.cond.waiting (· = .buf)

variable {legacy : Bool} {s t : Threads} {w : Window} {a : Action}

theorem waits_take (legacy : Bool) (w : Window) :
    (take legacy w).waitFree = w.waitFree ∧
      (take legacy w).waitBuf =
        w.waitBuf + (test legacy w .buf).toList.countP (· = .buf) := by
  cases h : found legacy w with
  | none => simp [take_of_none h, test, h]
  | some b => simp [take_of_found h, test, h, handOut]

theorem waits_awaitFree (legacy : Bool) (w : Window) :
    (awaitFree legacy w).waitFree =
        w.waitFree + (test legacy w .free).toList.countP (· = .free) ∧
      (awaitFree legacy w).waitBuf =
        w.waitBuf + (test legacy w .free).toList.countP (· = .buf) := by
  by_cases hfree : w.freeBufs = 0
  · simp [awaitFree, test, hfree]
  · have htest : test legacy w .free = test legacy w .buf := if_neg hfree
    obtain ⟨hf, hb⟩ := waits_take legacy w
    rw [awaitFree, if_neg hfree, htest, hf, hb]
    refine ⟨?_, rfl⟩
    cases h : found legacy w <;> simp [test, h]

theorem waits_allocated (w : Window) (ok : Nat) :
    (allocated w ok).waitFree = w.waitFree ∧ (allocated w ok).waitBuf = w.waitBuf := by
  rw [allocated]
  split <;> exact ⟨rfl, rfl⟩

theorem enabled_of_step (h : threadStep legacy s a = some t) :
    Enabled s a ∧ perform legacy s a = t := by
  rw [threadStep, Option.ite_none_right_eq_some, Option.some.injEq] at h
  exact h

theorem perform_resume {j : Nat} {k : Wait} (hk : s.cond.woken[j]? = some k) :
    perform legacy s (.resume j) =
      ⟨goOn legacy s.win k, (s.cond.resume j).wait (test legacy s.win k)⟩ := by
  rw [perform, hk]

theorem agrees_resume {j : Nat} {k : Wait} (hs : Agrees s) (hk : s.cond.woken[j]? = some k) :
    Agrees ⟨goOn legacy s.win k, (s.cond.resume j).wait (test legacy s.win k)⟩ := by
  have hfree := waiting_resume (p := (· = .free)) hk
  have hbuf := waiting_resume (p := (· = .buf)) hk
  rw [← hs.free] at hfree
  rw [← hs.buf] at hbuf
  cases k with
  | free =>
    obtain ⟨hf, hb⟩ := waits_awaitFree legacy { s.win with waitFree := s.win.waitFree - 1 }
    constructor <;> rw [waiting_wait]
    · refine hf.trans (congrArg (· + _) ?_)
      exact Nat.sub_eq_of_eq_add hfree.symm
    · exact hb.trans (congrArg (· + _) hbuf.symm)
  | buf =>
    obtain ⟨hf, hb⟩ := waits_take legacy { s.win with waitBuf := s.win.waitBuf - 1 }
    constructor <;> rw [waiting_wait]
    · refine hf.trans (hfree.symm.trans ?_)
      cases h : found legacy s.win <;> simp [test, h]
    · refine hb.trans (congrArg (· + _) ?_)
      exact Nat.sub_eq_of_eq_add hbuf.symm
  | lock b =>
    constructor <;> rw [waiting_wait]
    · refine hfree.symm.trans ?_
      by_cases h : s.win.frontBuf = some b <;> simp [test, h]
    · refine hbuf.symm.trans ?_
      by_cases h : s.win.frontBuf = some b <;> simp [test, h]

theorem agrees_step (hs : Agrees s) (h : threadStep legacy s a = some t) : Agrees t := by
  obtain ⟨he, rfl⟩ := enabled_of_step h
  cases a with
  | dequeueBuffer ok =>
    obtain ⟨hf, hb⟩ := waits_awaitFree legacy (allocated s.win ok)
    obtain ⟨hallf, hallb⟩ := waits_allocated s.win ok
    constructor <;> rw [perform, waiting_wait]
    · rw [← hs.free, ← hallf]
      exact hf
    · rw [← hs.buf, ← hallb]
      exact hb
  | lockBuffer b =>
    constructor <;> rw [perform, waiting_wait]
    · refine hs.free.trans ?_
      by_cases h : s.win.frontBuf = some b <;> simp [test, h]
    · refine hs.buf.trans ?_
      by_cases h : s.win.frontBuf = some b <;> simp [test, h]
  | resume j =>
    obtain ⟨k, hk⟩ : ∃ k, s.cond.woken[j]? = some k := ⟨_, List.getElem?_eq_getElem he⟩
    rw [perform_resume hk]
    exact agrees_resume hs hk
  | posted b i =>
    constructor <;> rw [perform, waiting_signal]
    · exact hs.free
    · exact hs.buf
  | cancelBuffer b i =>
    constructor <;> rw [perform, waiting_signal]
    · exact hs.free
    · exact hs.buf
  | setBufferCount cnt =>
    rw [perform, setBufferCount]
    split <;> exact ⟨hs.free, hs.buf⟩
  | _ => exact ⟨hs.free, hs.buf⟩

theorem waiting_pos {j : Nat} {k : Wait} (hk : s.cond.woken[j]? = some k) :
    0 < s.cond.waiting (· = k) := by
  have h := waiting_resume (p := (· = k)) hk
  simp at h
  omega

theorem window_step (hs : Agrees s) (h : threadStep legacy s a = some t) :
    (∀ c ∈ call s a, FbDevWindow.step legacy s.win c = some t.win) ∧
      (call s a = none → t.win = s.win) := by
  obtain ⟨he, rfl⟩ := enabled_of_step h
  cases a with
  | lockBuffer b => exact ⟨fun c hc => absurd hc (Option.not_mem_none c), fun _ => rfl⟩
  | resume j =>
    obtain ⟨k, hk⟩ : ∃ k, s.cond.woken[j]? = some k := ⟨_, List.getElem?_eq_getElem he⟩
    rw [perform_resume hk, call, hk, Option.bind_some]
    have hpos := waiting_pos hk
    cases k with
    | free =>
      rw [← hs.free] at hpos
      exact ⟨fun c hc => Option.some.inj hc ▸ if_pos hpos, nofun⟩
    | buf =>
      rw [← hs.buf] at hpos
      exact ⟨fun c hc => Option.some.inj hc ▸ if_pos hpos, nofun⟩
    | lock b => exact ⟨fun c hc => absurd hc (Option.not_mem_none c), fun _ => rfl⟩
  | queueBuffer b => exact ⟨fun c hc => Option.some.inj hc ▸ if_pos he, nofun⟩
  | posted b i => exact ⟨fun c hc => Option.some.inj hc ▸ if_pos he.1, nofun⟩
  | cancelBuffer b i => exact ⟨fun c hc => Option.some.inj hc ▸ if_pos he.1, nofun⟩
  | _ => exact ⟨fun c hc => Option.some.inj hc ▸ if_pos trivial, nofun⟩

theorem agrees_threads (g : Garbage) (usage format framebuffers : Nat) :
    Agrees (threads g usage format framebuffers) := by
  rw [threads, fbDevNativeWindow, setBufferCount]
  split <;> exact ⟨rfl, rfl⟩

/-- Whatever the threads do, their window is one that calls, one after the
other, lead to. -/
theorem calls_of_exec (hs : Agrees s) {as : List Action}
    (h : exec (threadStep legacy) s as = some t) :
    ∃ calls, exec (FbDevWindow.step legacy) s.win calls = some t.win := by
  induction as generalizing s with
  | nil =>
    obtain rfl := Option.some.inj h
    exact ⟨[], rfl⟩
  | cons a as ih =>
    obtain ⟨u, hu, h⟩ := Option.bind_eq_some_iff.mp h
    obtain ⟨calls, hcalls⟩ := ih (agrees_step hs hu) h
    obtain ⟨hcall, hnone⟩ := window_step hs hu
    cases hc : call s a with
    | none => exact ⟨calls, hnone hc ▸ hcalls⟩
    | some c => exact ⟨c :: calls, by rw [exec_cons, hcall c hc, Option.bind_some, hcalls]⟩

def rest (s : Threads) : Action → CondVar Wait
  | .resume j => s.cond.resume j
  | _ => s.cond

inductive Turn (legacy : Bool) (s : Threads) : Action → Threads → Prop
  | handOut {a : Action} {c : Call} {b : Buffer} (free buf : Nat) (hc : call s a = some c)
      (hd : Dequeues c) (hb : returned legacy s.win c = some b) :
    Turn legacy s a
      ⟨{ FbDevWindow.handOut (seen s.win c) b with waitFree := free, waitBuf := buf }, rest s a⟩
  | park {a : Action} {c : Call} {k : Wait} (free buf : Nat) (hc : call s a = some c)
      (hd : Dequeues c) (hb : returned legacy s.win c = none) (hk : k.dequeues)
      (htest : test legacy (seen s.win c) k = some k) :
    Turn legacy s a
      ⟨{ seen s.win c with waitFree := free, waitBuf := buf }, (rest s a).wait (some k)⟩
  | lock {a : Action} (b : Buffer) (hc : call s a = none) :
    Turn legacy s a ⟨s.win, (rest s a).wait (test legacy s.win (.lock b))⟩
  | queue {b : Buffer} (hb : b ∈ s.win.held) (hbusy : s.win.busy b = 1) :
    Turn legacy s (.queueBuffer b) ⟨FbDevWindow.queueBuffer s.win b, s.cond⟩
  | posted {b : Buffer} {i : Nat} (hb : b ∈ s.win.posting) (hi : s.cond.Signals i) :
    Turn legacy s (.posted b i) ⟨FbDevWindow.posted s.win b, s.cond.signal i⟩
  | cancel {b : Buffer} {i : Nat} (hb : b ∈ s.win.held) (hi : s.cond.Signals i) :
    Turn legacy s (.cancelBuffer b i) ⟨FbDevWindow.cancelBuffer s.win b, s.cond.signal i⟩
  | set {a : Action} {c : Call} (usage format count : Nat) (allocate : Bool)
      (hc : call s a = some c) (hs : Sets c) :
    Turn legacy s a
      ⟨{ s.win with
        usage := usage, bufFormat := format, bufferCount := count,
        allocateBuffers := allocate }, s.cond⟩

theorem awaitFree_cases (legacy : Bool) (w : Window) :
    (∃ b, foundFree legacy w = some b ∧ awaitFree legacy w = handOut w b ∧
        test legacy w .free = none) ∨
      ∃ k free buf, foundFree legacy w = none ∧
        awaitFree legacy w = { w with waitFree := free, waitBuf := buf } ∧ k.dequeues ∧
        test legacy w .free = some k ∧ test legacy w k = some k := by
  by_cases hfree : w.freeBufs = 0
  · right
    refine ⟨.free, w.waitFree + 1, w.waitBuf, if_pos hfree, if_pos hfree, rfl, ?_, ?_⟩ <;>
      exact if_pos hfree
  · have htest : test legacy w .free = test legacy w .buf := if_neg hfree
    have hfound : foundFree legacy w = found legacy w := if_neg hfree
    have htake : awaitFree legacy w = take legacy w := if_neg hfree
    rw [htest, hfound, htake]
    cases h : found legacy w with
    | none =>
      exact .inr ⟨.buf, w.waitFree, w.waitBuf + 1, rfl, take_of_none h, rfl, if_pos h, if_pos h⟩
    | some b => exact .inl ⟨b, rfl, take_of_found h, if_neg (by simp [h])⟩

theorem turn_resume {j : Nat} {k : Wait} (hk : s.cond.woken[j]? = some k) :
    Turn legacy s (.resume j)
      ⟨goOn legacy s.win k, (s.cond.resume j).wait (test legacy s.win k)⟩ := by
  have hcall : call s (.resume j) = k.call := by rw [call, hk, Option.bind_some]
  cases k with
  | free =>
    obtain ⟨b, hb, hwin, htest⟩ | ⟨k, free, buf, hb, hwin, hdk, htest, hself⟩ :=
      awaitFree_cases legacy { s.win with waitFree := s.win.waitFree - 1 }
    · have htest : test legacy s.win .free = none := htest
      rw [goOn, hwin, htest]
      exact .handOut _ _ hcall trivial hb
    · have htest : test legacy s.win .free = some k := htest
      rw [goOn, hwin, htest]
      exact .park _ _ hcall trivial hb hdk hself
  | buf =>
    cases hb : found legacy s.win with
    | none =>
      have htake : goOn legacy s.win .buf = _ :=
        take_of_none (w := { s.win with waitBuf := s.win.waitBuf - 1 }) hb
      have htest : test legacy s.win .buf = some .buf := if_pos hb
      rw [htake, htest]
      exact .park _ _ hcall trivial hb rfl htest
    | some b =>
      have htake : goOn legacy s.win .buf = _ :=
        take_of_found (w := { s.win with waitBuf := s.win.waitBuf - 1 }) hb
      have htest : test legacy s.win .buf = none := if_neg (by simp [hb])
      rw [htake, htest]
      exact .handOut _ _ hcall trivial hb
  | lock b => exact .lock b hcall

theorem turn_of_step (h : threadStep legacy s a = some t) : Turn legacy s a t := by
  obtain ⟨he, rfl⟩ := enabled_of_step h
  cases a with
  | dequeueBuffer ok =>
    rw [perform, dequeueBuffer, ← allocated]
    obtain ⟨b, hb, hwin, htest⟩ | ⟨k, free, buf, hb, hwin, hdk, htest, hself⟩ :=
      awaitFree_cases legacy (allocated s.win ok)
    · rw [hwin, htest]
      exact .handOut (c := .dequeueBuffer ok) _ _ rfl trivial hb
    · rw [hwin, htest]
      exact .park (c := .dequeueBuffer ok) free buf rfl trivial hb hdk hself
  | lockBuffer b => exact .lock b rfl
  | queueBuffer b => exact .queue he.1 he.2
  | posted b i => exact .posted he.1 he.2
  | cancelBuffer b i => exact .cancel he.1 he.2
  | resume j =>
    obtain ⟨k, hk⟩ : ∃ k, s.cond.woken[j]? = some k := ⟨_, List.getElem?_eq_getElem he⟩
    rw [perform_resume hk]
    exact turn_resume hk
  | setUsage usage => exact .set _ _ _ _ rfl trivial
  | setBuffersFormat format => exact .set _ _ _ _ rfl trivial
  | setBufferCount cnt =>
    rw [perform, setBufferCount]
    split
    · exact .set _ _ _ _ rfl trivial
    · exact .set s.win.usage s.win.bufFormat s.win.bufferCount s.win.allocateBuffers rfl trivial

theorem dequeue_cases {c : Call} (hc : call s a = some c) (hd : Dequeues c) :
    (∃ ok, a = .dequeueBuffer ok ∧ c = .dequeueBuffer ok) ∨
      ∃ j k, a = .resume j ∧ s.cond.woken[j]? = some k ∧ k.call = some c ∧ k.dequeues ∧
        seen s.win c = s.win := by
  cases a with
  | dequeueBuffer ok =>
    obtain rfl := Option.some.inj hc
    exact .inl ⟨ok, rfl, rfl⟩
  | resume j =>
    obtain ⟨k, hk, hc⟩ := Option.bind_eq_some_iff.mp hc
    refine .inr ⟨j, k, rfl, hk, hc, ?_⟩
    cases k with
    | free | buf =>
      obtain rfl := Option.some.inj hc
      exact ⟨rfl, rfl⟩
    | lock b => cases hc
  | lockBuffer b => cases hc
  | _ =>
    obtain rfl := Option.some.inj hc
    exact hd.elim

theorem parked_rest (s : Threads) (a : Action) : (rest s a).parked = s.cond.parked := by
  cases a <;> rfl

theorem countP_rest (s : Threads) (a : Action) :
    s.cond.woken.countP Wait.dequeues ≤
      (rest s a).woken.countP Wait.dequeues + (if call s a = none then 0 else 1) := by
  cases a with
  | resume j =>
    rw [rest, CondVar.resume, call]
    cases hk : s.cond.woken[j]? with
    | none => rw [List.eraseIdx_of_length_le (List.getElem?_eq_none_iff.mp hk)]; simp
    | some k =>
      have hcount := Lib.Counting.countP_eraseIdx_add (p := Wait.dequeues) hk
      cases k <;> simp [Wait.dequeues, Wait.call] at hcount ⊢ <;> omega
  | _ => exact Nat.le_add_right _ _

end FakeLibc.FbDevThreads

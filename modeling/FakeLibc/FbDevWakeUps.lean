import FakeLibc.FbDevThreads

namespace FakeLibc.FbDevWakeUps

open FakeLibc.Lib.Run FakeLibc.Lib.Condition FakeLibc.Lib.Counting
open FakeLibc.FbDevWindow FakeLibc.FbDevStep FakeLibc.FbDevThreads

/-- A thread is parked although its condition holds, and nobody is on the way. -/
def NoLostWakeUp (legacy : Bool) (s : Threads) : Prop :=
  s.cond.NoneLost (fun k => test legacy s.win k = none)

/-- How many buffers a dequeue could take. -/
def available (legacy : Bool) (w : Window) : Nat :=
  w.bufs.list.countP (takable w) + (freeFront legacy w).toList.length

/-- How many dequeues have been signalled and have not tested their condition yet. -/
def onTheirWay (s : Threads) : Nat := s.cond.woken.countP Wait.dequeues

/-- If the signal for `b` goes to a locker, no dequeue is parked, or enough of
them are on their way to take what is free then. -/
def Reaches (legacy : Bool) (s : Threads) (front : Option Buffer) (b : Buffer) (i : Nat) : Prop :=
  (∃ k ∈ s.cond.parked[i]?, ¬ k.dequeues) →
    (∀ k ∈ s.cond.parked, ¬ k.dequeues) ∨
      available legacy { s.win with busy := Function.update s.win.busy b 0, frontBuf := front } ≤
        onTheirWay s

/-- A new front buffer concerns one parked locker at most, the one that is
signalled, and a new list concerns no locker and as many dequeues as there are. -/
def Signalled (legacy : Bool) (s : Threads) : Action → Prop
  | .dequeueBuffer ok =>
    s.win.allocateBuffers → (∀ k ∈ s.cond.parked, k.dequeues) ∧
      (s.cond.parked = [] ∨ min s.win.bufferCount ok ≤ onTheirWay s + 1)
  | .posted b i =>
    (s.win.frontBuf = some b ∨ ∀ k ∈ s.cond.parked.eraseIdx i, k.dequeues) ∧
      Reaches legacy s (some b) b i
  | .cancelBuffer b i => Reaches legacy s s.win.frontBuf b i
  | _ => True

instance (legacy : Bool) (s : Threads) (front : Option Buffer) (b : Buffer) (i : Nat) :
    Decidable (Reaches legacy s front b i) :=
  inferInstanceAs (Decidable ((∃ k ∈ s.cond.parked[i]?, ¬ k.dequeues) → _))

instance (legacy : Bool) (s : Threads) : (a : Action) → Decidable (Signalled legacy s a)
  | .dequeueBuffer _ => inferInstanceAs (Decidable (_ → _ ∧ _))
  | .posted _ _ => inferInstanceAs (Decidable (_ ∧ _))
  | .cancelBuffer b i => inferInstanceAs (Decidable (Reaches legacy s s.win.frontBuf b i))
  | .lockBuffer _ | .queueBuffer _ | .resume _ | .setUsage _ | .setBuffersFormat _
  | .setBufferCount _ => .isTrue trivial

structure Unset (s : Threads) : Prop where
  free : s.win.freeBufs = 0
  out : outstanding s.win = []
  list : s.win.bufs.list = []
  parked : .buf ∉ s.cond.parked
  woken : .buf ∉ s.cond.woken

structure Inv (legacy : Bool) (s : Threads) : Prop where
  nodup : s.win.bufs.list.Nodup
  lock : ∀ b, .lock b ∈ s.cond.parked → s.win.frontBuf = some b
  dequeue : (∃ k ∈ s.cond.parked, k.dequeues) → available legacy s.win ≤ onTheirWay s ∨ Unset s
  count : (available legacy s.win : Int) ≤ s.win.freeBufs ∨
    s.win.freeBufs + (outstanding s.win).length < 0 ∨ Unset s

variable {legacy : Bool} {s t : Threads} {w v : Window} {a : Action} {c : Call} {b : Buffer}

theorem available_eq_zero : available legacy w = 0 ↔ found legacy w = none := by
  have hfind : freeNonFront w = none ↔ ∀ b ∈ w.bufs.list, ¬ takable w b := List.find?_eq_none
  rw [available, Nat.add_eq_zero_iff, List.countP_eq_zero, ← hfind, found, Option.or_eq_none_iff]
  cases freeFront legacy w <;> simp

theorem freeFront_some : freeFront legacy w = some b ↔
    legacy ∧ w.frontBuf = some b ∧ w.busy b = 0 := by
  cases legacy with
  | true => simp [freeFront, Option.filter_eq_some_iff]
  | false => simp [freeFront]

theorem freeFront_le (legacy : Bool) (w : Window) :
    (freeFront legacy w).toList.length ≤ if legacy then 1 else 0 := by
  cases h : freeFront legacy w with
  | none => exact Nat.zero_le _
  | some b => rw [if_pos (freeFront_some.mp h).1]; rfl

theorem freeFront_congr (hfront : v.frontBuf = w.frontBuf)
    (hbusy : ∀ d, w.frontBuf = some d → v.busy d = w.busy d) :
    freeFront legacy v = freeFront legacy w := by
  ext d
  rw [freeFront_some, freeFront_some, hfront]
  refine and_congr_right fun _ => and_congr_right fun hd => ?_
  rw [hbusy d hd]

theorem takable_iff {d : Buffer} : takable w d ↔ w.frontBuf ≠ some d ∧ w.busy d = 0 :=
  decide_eq_true_iff

theorem takable_update (hfront : v.frontBuf = w.frontBuf) {x : Nat}
    (hbusy : v.busy = Function.update w.busy b x) {d : Buffer} (hd : d ≠ b) :
    takable w d = takable v d := by
  rw [takable, takable, hfront, hbusy, Function.update_of_ne hd]

theorem available_handOut (hl : w.bufs.list.Nodup) (h : found legacy w = some b) :
    available legacy (handOut w b) + 1 = available legacy w := by
  obtain h | ⟨hnone, h⟩ := Option.or_eq_some_iff.mp h
  · obtain ⟨hmem, hzero, hfront⟩ := mem_of_freeNonFront h
    have hsame : freeFront legacy (handOut w b) = freeFront legacy w := by
      refine freeFront_congr rfl fun d hd => Function.update_of_ne ?_ ..
      exact fun heq => hfront (heq ▸ hd)
    have hold : takable w b := takable_iff.mpr ⟨hfront, hzero⟩
    have hnew : ¬ takable (handOut w b) b := by
      rw [takable_iff]
      exact fun hb => absurd ((Function.update_self ..).symm.trans hb.2) (by decide)
    have hcount := countP_change (p := takable w) (q := takable (handOut w b)) hl hmem fun d hd =>
      takable_update (w := w) (v := handOut w b) (x := 1) rfl rfl hd
    rw [if_pos hold, if_neg hnew] at hcount
    have hlist : (handOut w b).bufs.list = w.bufs.list := rfl
    rw [available, available, hsame, hlist]
    omega
  · obtain ⟨hlegacy, hfront, hzero⟩ := freeFront_some.mp h
    have hnothing : w.bufs.list.countP (takable w) = 0 :=
      List.countP_eq_zero.mpr (List.find?_eq_none.mp hnone)
    have hnew : w.bufs.list.countP (takable (handOut w b)) = 0 := by
      rw [List.countP_eq_zero] at hnothing ⊢
      intro d hd htake
      have hne : d ≠ b := fun heq => (takable_iff.mp htake).1 (heq ▸ hfront)
      rw [← takable_update (w := w) (v := handOut w b) (x := 1) rfl rfl hne] at htake
      exact hnothing d hd htake
    have hgone : freeFront legacy (handOut w b) = none := by
      rw [Option.eq_none_iff_forall_ne_some]
      intro d hd
      obtain ⟨_, hd, hbusy⟩ := freeFront_some.mp hd
      obtain rfl := Option.some.inj (hfront.symm.trans hd)
      exact absurd ((Function.update_self ..).symm.trans hbusy) (by decide)
    have hlist : (handOut w b).bufs.list = w.bufs.list := rfl
    rw [available, available, hlist, hnothing, hnew, hgone, h]
    rfl

theorem freeCount_le (legacy : Bool) (hl : w.bufs.list.Nodup) :
    freeCount w + (if legacy then 1 else 0) ≤ available legacy w + 1 := by
  cases hfront : w.frontBuf with
  | none =>
    have hsame : freeCount w = w.bufs.list.countP (takable w) := by
      apply List.countP_congr
      intro d _
      rw [takable_iff, hfront, isFree, decide_eq_true_iff]
      simp
    rw [available, hsame]
    split <;> omega
  | some f =>
    have hle := countP_le_add (p := takable w) (q := isFree w) (b := f) hl fun d hd => by
      rw [takable, isFree, hfront]
      simp [Ne.symm hd]
    rw [freeCount, available]
    by_cases hfree : legacy ∧ w.busy f = 0
    · rw [freeFront_some.mpr ⟨hfree.1, hfront, hfree.2⟩, if_pos hfree.1]
      split at hle <;> simp <;> omega
    · by_cases hlegacy : legacy
      · have hbusy : ¬ isFree w f := fun h => hfree ⟨hlegacy, of_decide_eq_true h⟩
        rw [if_neg hbusy] at hle
        rw [if_pos hlegacy]
        omega
      · rw [if_neg hlegacy]
        split at hle <;> omega

theorem available_posted_le (legacy : Bool) (hl : w.bufs.list.Nodup) (b : Buffer) :
    available legacy (posted w b) ≤ available legacy w + 1 := by
  have hlist : w.bufs.list.countP (takable (posted w b)) ≤ freeCount w := by
    apply List.countP_mono_left
    intro d _ htake
    obtain ⟨hfront, hzero⟩ := takable_iff.mp htake
    have hne : d ≠ b := fun heq => hfront (heq ▸ rfl)
    have hzero : Function.update w.busy b 0 d = 0 := hzero
    rw [Function.update_of_ne hne] at hzero
    exact decide_eq_true hzero
  have hfront := freeFront_le legacy (posted w b)
  have hcount := freeCount_le legacy hl
  have havail : available legacy (posted w b) = w.bufs.list.countP (takable (posted w b)) +
    (freeFront legacy (posted w b)).toList.length := rfl
  omega

theorem available_cancelBuffer_le (legacy : Bool) (hl : w.bufs.list.Nodup) (b : Buffer) :
    available legacy (cancelBuffer w b) ≤ available legacy w + 1 := by
  have hle := countP_le_add (p := takable w) (q := takable (cancelBuffer w b)) hl fun d hd =>
    takable_update (w := w) (v := cancelBuffer w b) (x := 0) rfl rfl hd
  have havail : available legacy (cancelBuffer w b) =
    w.bufs.list.countP (takable (cancelBuffer w b)) +
      (freeFront legacy (cancelBuffer w b)).toList.length := rfl
  rw [havail, available]
  by_cases hfront : w.frontBuf = some b
  · have hnot : ¬ takable (cancelBuffer w b) b := fun h => (takable_iff.mp h).1 hfront
    have hone : (freeFront legacy (cancelBuffer w b)).toList.length ≤ 1 :=
      (freeFront_le legacy _).trans (by split <;> decide)
    rw [if_neg hnot] at hle
    omega
  · have hsame : freeFront legacy (cancelBuffer w b) = freeFront legacy w := by
      refine freeFront_congr rfl fun d hd => Function.update_of_ne ?_ ..
      exact fun heq => hfront (heq ▸ hd)
    rw [hsame]
    split at hle <;> omega

theorem available_queueBuffer (legacy : Bool) (hb : w.busy b = 1) :
    available legacy (queueBuffer w b) = available legacy w := by
  have hzero : ∀ d, (queueBuffer w b).busy d = 0 ↔ w.busy d = 0 := by
    intro d
    by_cases hd : d = b
    · have hself : (queueBuffer w b).busy b = 2 := Function.update_self ..
      rw [hd, hself, hb]
      decide
    · have hother : (queueBuffer w b).busy d = w.busy d := Function.update_of_ne hd ..
      rw [hother]
  have hlist : w.bufs.list.countP (takable (queueBuffer w b)) =
      w.bufs.list.countP (takable w) := by
    apply List.countP_congr
    intro d _
    rw [takable_iff, takable_iff, hzero]
    rfl
  have hfront : freeFront legacy (queueBuffer w b) = freeFront legacy w := by
    ext d
    rw [freeFront_some, freeFront_some, hzero]
    rfl
  rw [available, available, hfront, ← hlist]
  rfl

theorem available_reallocateBuffers (legacy : Bool) (w : Window) (ok : Nat) :
    available legacy (reallocateBuffers w ok) = min w.bufferCount ok ∧
      (reallocateBuffers w ok).freeBufs = min w.bufferCount ok := by
  have hlength : (reallocateBuffers w ok).bufs.list.length = min w.bufferCount ok := by
    rw [list_reallocateBuffers, List.length_range']
  have hall : (reallocateBuffers w ok).bufs.list.countP (takable (reallocateBuffers w ok)) =
      (reallocateBuffers w ok).bufs.list.length := by
    refine List.countP_eq_length.mpr fun d hd => takable_iff.mpr ⟨nofun, ?_⟩
    exact busy_reallocateBuffers hd
  have hfront : freeFront legacy (reallocateBuffers w ok) = none := by
    rw [Option.eq_none_iff_forall_ne_some]
    intro d hd
    cases (freeFront_some.mp hd).2.1
  constructor
  · rw [available, hall, hfront, hlength]
    rfl
  · exact congrArg Nat.cast hlength

theorem test_free (h : test legacy w .free = some .free) : w.freeBufs = 0 := by
  by_contra hfree
  rw [test, if_neg hfree, Option.ite_none_right_eq_some] at h
  cases h.2

theorem test_buf (h : test legacy w .buf = some .buf) : available legacy w = 0 :=
  available_eq_zero.mpr (Option.ite_none_right_eq_some.mp h).1

theorem Inv.noLostWakeUp (hi : Inv legacy s) : NoLostWakeUp legacy s := by
  intro hwoken k hk hready
  have hnone : onTheirWay s = 0 := by rw [onTheirWay, hwoken]; rfl
  have hwait : k.dequeues → found legacy s.win = none ∨ Unset s := fun hdk => by
    obtain h | h := hi.dequeue ⟨k, hk, hdk⟩
    · exact .inl (available_eq_zero.mp (Nat.le_zero.mp (hnone ▸ h)))
    · exact .inr h
  cases k with
  | free =>
    obtain h | h := hwait rfl
    · rw [test, if_pos h] at hready
      split at hready <;> cases hready
    · rw [test, if_pos h.free] at hready
      cases hready
  | buf =>
    obtain h | h := hwait rfl
    · rw [test, if_pos h] at hready
      cases hready
    · exact h.parked hk
  | lock b =>
    rw [test, if_pos (hi.lock b hk)] at hready
    cases hready

theorem woken_rest (s : Threads) (a : Action) : ∀ k ∈ (rest s a).woken, k ∈ s.cond.woken := by
  intro k hk
  cases a with
  | resume j => exact List.mem_of_mem_eraseIdx hk
  | _ => exact hk

structure Looks (legacy : Bool) (s : Threads) (a : Action) (w : Window) : Prop where
  nodup : w.bufs.list.Nodup
  lock : ∀ b, .lock b ∈ s.cond.parked → w.frontBuf = some b
  dequeue : (∃ k ∈ s.cond.parked, k.dequeues) →
    available legacy w ≤ (rest s a).woken.countP Wait.dequeues + 1 ∨ Unset s ∧ w = s.win
  count : (available legacy w : Int) ≤ w.freeBufs ∨
    w.freeBufs + (outstanding s.win).length < 0 ∨ Unset s ∧ w = s.win

theorem looks_same (hi : Inv legacy s) (hc : call s a = some c) : Looks legacy s a s.win := by
  have hrest := countP_rest s a
  rw [if_neg (by simp [hc])] at hrest
  refine ⟨hi.nodup, hi.lock, fun hpark => ?_, ?_⟩
  · obtain h | h := hi.dequeue hpark
    · exact .inl (h.trans hrest)
    · exact .inr ⟨h, rfl⟩
  · obtain h | h | h := hi.count
    · exact .inl h
    · exact .inr (.inl h)
    · exact .inr (.inr ⟨h, rfl⟩)

theorem looks_of_call (hi : Inv legacy s) (hg : Signalled legacy s a) (hc : call s a = some c)
    (hd : Dequeues c) : Looks legacy s a (seen s.win c) := by
  obtain ⟨ok, rfl, rfl⟩ | ⟨j, k, rfl, hk, hcall, hdk, hseen⟩ := dequeue_cases hc hd
  · rw [seen, allocated]
    split
    · rename_i hallocate
      obtain ⟨hdequeues, hpark⟩ := hg hallocate
      obtain ⟨havail, hfree⟩ := available_reallocateBuffers legacy s.win ok
      refine ⟨nodup_reallocateBuffers s.win ok, fun b hb => ?_, ?_, .inl ?_⟩
      · exact absurd (hdequeues _ hb) Bool.false_ne_true
      · rintro ⟨k, hk, _⟩
        rw [havail]
        exact .inl (hpark.resolve_left (List.ne_nil_of_mem hk))
      · exact Int.le_of_eq (by rw [havail, hfree])
    · exact looks_same hi hc
  · rw [hseen]
    exact looks_same hi hc

theorem Unset.returned_eq_none (hs : Unset s) (hc : call s a = some c) (hd : Dequeues c)
    (hseen : seen s.win c = s.win) : returned legacy s.win c = none := by
  have hnone : foundFree legacy s.win = none := if_pos hs.free
  obtain ⟨ok, rfl, rfl⟩ | ⟨j, k, rfl, hk, hcall, hdk, _⟩ := dequeue_cases hc hd
  · have hseen : allocated s.win ok = s.win := hseen
    rw [returned, hseen, hnone]
  · cases k with
    | free =>
      obtain rfl := Option.some.inj hcall
      exact hnone
    | buf => exact absurd (List.mem_of_getElem? hk) hs.woken
    | lock b => cases hcall

theorem inv_handOut (hi : Inv legacy s) (hg : Signalled legacy s a) (hc : call s a = some c)
    (hd : Dequeues c) (hb : returned legacy s.win c = some b) (free buf : Nat) :
    Inv legacy ⟨{ handOut (seen s.win c) b with waitFree := free, waitBuf := buf }, rest s a⟩ := by
  have hlooks := looks_of_call hi hg hc hd
  have hset : ¬ (Unset s ∧ seen s.win c = s.win) := fun h => by
    rw [h.1.returned_eq_none hc hd h.2] at hb
    cases hb
  have havail := available_handOut hlooks.nodup (found_of_returned hb)
  refine ⟨hlooks.nodup, fun d hd => ?_, ?_, ?_⟩
  · exact hlooks.lock d (parked_rest s a ▸ hd)
  · rintro ⟨k, hk, hdk⟩
    have hle := (hlooks.dequeue ⟨k, parked_rest s a ▸ hk, hdk⟩).resolve_right hset
    exact .inl (Nat.le_of_succ_le_succ (havail.trans_le hle))
  · have hcount :
        (available legacy (handOut (seen s.win c) b) : Int) ≤ (seen s.win c).freeBufs - 1 ∨
        (seen s.win c).freeBufs - 1 + ((outstanding s.win).length + 1) < 0 := by
      obtain h | h | h := hlooks.count
      · left
        omega
      · right
        omega
      · exact absurd h hset
    have hout : (outstanding (handOut (seen s.win c) b)).length = (outstanding s.win).length + 1 :=
      congrArg (·.length + 1) (seen_outstanding s.win c)
    obtain h | h := hcount
    · exact .inl h
    · refine .inr (.inl ?_)
      have hlength : ((outstanding (handOut (seen s.win c) b)).length : Int) =
        (outstanding s.win).length + 1 := by exact_mod_cast hout
      exact hlength ▸ h

/-- A thread that parks has found nothing, or the counter was never set. -/
theorem Looks.nothing (hl : Looks legacy s a w) {k : Wait} (hk : k.dequeues)
    (htest : test legacy w k = some k) :
    available legacy w = 0 ∨ (Unset s ∧ w = s.win) ∧ k = .free := by
  cases k with
  | free =>
    have hfree := test_free htest
    obtain h | h | h := hl.count
    · left
      omega
    · omega
    · exact .inr ⟨h, rfl⟩
  | buf => exact .inl (test_buf htest)
  | lock b => cases hk

theorem inv_park (hi : Inv legacy s) (hg : Signalled legacy s a) (hc : call s a = some c)
    (hd : Dequeues c) {k : Wait} (hk : k.dequeues) (htest : test legacy (seen s.win c) k = some k)
    (free buf : Nat) :
    Inv legacy
      ⟨{ seen s.win c with waitFree := free, waitBuf := buf }, (rest s a).wait (some k)⟩ := by
  have hlooks := looks_of_call hi hg hc hd
  have hunset : Unset s ∧ seen s.win c = s.win → k = .free → Unset
      ⟨{ seen s.win c with waitFree := free, waitBuf := buf }, (rest s a).wait (some k)⟩ := by
    rintro ⟨hs, hseen⟩ rfl
    rw [hseen]
    refine ⟨hs.free, hs.out, hs.list, fun hmem => ?_, fun hmem => hs.woken (woken_rest s a _ hmem)⟩
    obtain hmem | hmem := mem_parked_wait.mp hmem
    · cases hmem
    · exact hs.parked (parked_rest s a ▸ hmem)
  refine ⟨hlooks.nodup, fun b hb => ?_, fun _ => ?_, ?_⟩
  · obtain hb | hb := mem_parked_wait.mp hb
    · obtain rfl := Option.some.inj hb
      cases hk
    · exact hlooks.lock b (parked_rest s a ▸ hb)
  · obtain hzero | ⟨hs, hfree⟩ := hlooks.nothing hk htest
    · exact .inl (hzero ▸ Nat.zero_le _)
    · exact .inr (hunset hs hfree)
  · obtain h | h | h := hlooks.count
    · exact .inl h
    · rw [← seen_outstanding s.win c] at h
      exact .inr (.inl h)
    · obtain hzero | ⟨hs, hfree⟩ := hlooks.nothing hk htest
      · refine .inl ?_
        have hbufs : (seen s.win c).freeBufs = 0 := by rw [h.2, h.1.free]
        have hle : (available legacy (seen s.win c) : Int) ≤ (seen s.win c).freeBufs := by omega
        exact hle
      · exact .inr (.inr (hunset hs hfree))

theorem inv_lock (hi : Inv legacy s) (hc : call s a = none) (b : Buffer) :
    Inv legacy ⟨s.win, (rest s a).wait (test legacy s.win (.lock b))⟩ := by
  have hrest : onTheirWay s ≤ (rest s a).woken.countP Wait.dequeues := by
    have h := countP_rest s a
    rwa [if_pos hc] at h
  have hmem : ∀ k ∈ ((rest s a).wait (test legacy s.win (.lock b))).parked,
      k = .lock b ∧ s.win.frontBuf = some b ∨ k ∈ s.cond.parked := by
    intro k hk
    obtain hk | hk := mem_parked_wait.mp hk
    · rw [test, Option.ite_none_right_eq_some] at hk
      exact .inl ⟨(Option.some.inj hk.2).symm, hk.1⟩
    · exact .inr (parked_rest s a ▸ hk)
  have hunset : Unset s → Unset ⟨s.win, (rest s a).wait (test legacy s.win (.lock b))⟩ := by
    intro hs
    refine ⟨hs.free, hs.out, hs.list, fun hb => ?_, fun hb => hs.woken (woken_rest s a _ hb)⟩
    obtain ⟨hb, _⟩ | hb := hmem _ hb
    · cases hb
    · exact hs.parked hb
  refine ⟨hi.nodup, fun d hd => ?_, ?_, ?_⟩
  · obtain ⟨heq, hfront⟩ | hd := hmem _ hd
    · obtain rfl := Wait.lock.inj heq
      exact hfront
    · exact hi.lock d hd
  · rintro ⟨k, hk, hdk⟩
    obtain ⟨rfl, _⟩ | hk := hmem k hk
    · cases hdk
    · exact (hi.dequeue ⟨k, hk, hdk⟩).imp (fun h => h.trans hrest) hunset
  · exact hi.count.imp_right (fun h => h.imp_right hunset)

theorem Unset.not_mem (hs : Unset s) (hb : b ∈ outstanding s.win) : False :=
  absurd (hs.out ▸ hb) List.not_mem_nil

/-- A signal for a free buffer reaches a dequeue, or the dequeues do without it. -/
theorem available_le_signal (hi : Inv legacy s) (hs : ¬ Unset s) {i : Nat} (hsig : s.cond.Signals i)
    {front : Option Buffer} (hreach : Reaches legacy s front b i)
    (havail : available legacy
        { s.win with busy := Function.update s.win.busy b 0, frontBuf := front } ≤
      available legacy s.win + 1)
    (hpark : ∃ k ∈ (s.cond.signal i).parked, k.dequeues) :
    available legacy { s.win with busy := Function.update s.win.busy b 0, frontBuf := front } ≤
      (s.cond.signal i).woken.countP Wait.dequeues := by
  obtain ⟨k, hk, hdk⟩ := hpark
  have hk : k ∈ s.cond.parked := mem_parked_of_signal hk
  have hle := (hi.dequeue ⟨k, hk, hdk⟩).resolve_right hs
  obtain hlt | hnil := hsig
  · have hget : s.cond.parked[i]? = some s.cond.parked[i] := List.getElem?_eq_getElem hlt
    rw [CondVar.signal, hget, List.countP_append]
    by_cases hdequeues : s.cond.parked[i].dequeues
    · have hone : (some s.cond.parked[i]).toList.countP Wait.dequeues = 1 := by simp [hdequeues]
      rw [onTheirWay] at hle
      omega
    · obtain hall | hle := hreach ⟨_, hget, hdequeues⟩
      · exact absurd hdk (hall k hk)
      · rw [onTheirWay] at hle
        omega
  · rw [List.length_eq_zero_iff] at hnil
    exact absurd (hnil ▸ hk) List.not_mem_nil

theorem count_givenBack (hi : Inv legacy s) (hs : ¬ Unset s)
    (havail : available legacy w ≤ available legacy s.win + 1)
    (hfree : w.freeBufs = s.win.freeBufs + 1)
    (hperm : (outstanding s.win).Perm (b :: outstanding w)) :
    (available legacy w : Int) ≤ w.freeBufs ∨ w.freeBufs + (outstanding w).length < 0 := by
  have hlength := hperm.length_eq
  rw [List.length_cons] at hlength
  obtain h | h | h := hi.count
  · left
    omega
  · right
    omega
  · exact absurd h hs

theorem inv_posted (hi : Inv legacy s) {i : Nat} (hg : Signalled legacy s (.posted b i))
    (hb : b ∈ s.win.posting) (hsig : s.cond.Signals i) :
    Inv legacy ⟨posted s.win b, s.cond.signal i⟩ := by
  have hs : ¬ Unset s := fun hs => hs.not_mem (List.mem_append_right _ hb)
  have hle := available_posted_le legacy hi.nodup b
  refine ⟨hi.nodup, fun d hd => ?_, fun hpark => ?_, ?_⟩
  · obtain hfront | hdequeues := hg.1
    · exact hfront.symm.trans (hi.lock d (mem_parked_of_signal hd))
    · exact absurd (hdequeues _ hd) Bool.false_ne_true
  · exact .inl (available_le_signal hi hs hsig hg.2 hle hpark)
  · exact (count_givenBack hi hs hle rfl (perm_posted hb)).imp_right .inl

theorem inv_cancelBuffer (hi : Inv legacy s) {i : Nat} (hg : Signalled legacy s (.cancelBuffer b i))
    (hb : b ∈ s.win.held) (hsig : s.cond.Signals i) :
    Inv legacy ⟨cancelBuffer s.win b, s.cond.signal i⟩ := by
  have hs : ¬ Unset s := fun hs => hs.not_mem (List.mem_append_left _ hb)
  have hle := available_cancelBuffer_le legacy hi.nodup b
  refine ⟨hi.nodup, fun d hd => hi.lock d (mem_parked_of_signal hd), fun hpark => ?_, ?_⟩
  · exact .inl (available_le_signal hi hs hsig hg hle hpark)
  · exact (count_givenBack hi hs hle rfl (perm_cancelBuffer hb)).imp_right .inl

theorem inv_queueBuffer (hi : Inv legacy s) (hb : b ∈ s.win.held) (hbusy : s.win.busy b = 1) :
    Inv legacy ⟨queueBuffer s.win b, s.cond⟩ := by
  have hs : ¬ Unset s := fun hs => hs.not_mem (List.mem_append_left _ hb)
  have havail := available_queueBuffer legacy hbusy
  have hlength : (outstanding (queueBuffer s.win b)).length = (outstanding s.win).length :=
    (perm_queueBuffer hb).symm.length_eq
  refine ⟨hi.nodup, hi.lock, fun hpark => .inl ?_, ?_⟩
  · exact havail.trans_le ((hi.dequeue hpark).resolve_right hs)
  · rw [havail, hlength]
    exact hi.count.imp_right (fun h => .inl (h.resolve_right hs))

theorem inv_step (hi : Inv legacy s) (hg : Signalled legacy s a)
    (h : threadStep legacy s a = some t) : Inv legacy t := by
  cases turn_of_step h with
  | handOut free buf hc hd hb => exact inv_handOut hi hg hc hd hb free buf
  | park free buf hc hd hb hk htest => exact inv_park hi hg hc hd hk htest free buf
  | lock b hc => exact inv_lock hi hc b
  | queue hb hbusy => exact inv_queueBuffer hi hb hbusy
  | posted hb hsig => exact inv_posted hi hg hb hsig
  | cancel hb hsig => exact inv_cancelBuffer hi hg hb hsig
  | set usage format count allocate hc hs =>
    refine ⟨hi.nodup, hi.lock, fun hpark => ?_, ?_⟩
    · exact (hi.dequeue hpark).imp_right (fun h => ⟨h.free, h.out, h.list, h.parked, h.woken⟩)
    · refine hi.count.imp_right (fun h => h.imp_right ?_)
      exact fun h => ⟨h.free, h.out, h.list, h.parked, h.woken⟩

/-- Before anything is allocated, the counter and the front buffer are what the
memory happened to hold. -/
theorem inv_threads (g : Garbage) (usage format framebuffers : Nat) :
    Inv legacy (threads g usage format framebuffers) := by
  obtain ⟨hlist, hfree, hout⟩ := fbDevNativeWindow_empty g usage format framebuffers
  have hle : available legacy (fbDevNativeWindow g usage format framebuffers) ≤ 1 := by
    rw [available, hlist, List.countP_nil, Nat.zero_add]
    exact (freeFront_le legacy _).trans (by split <;> decide)
  refine ⟨hlist ▸ List.nodup_nil, nofun, nofun, ?_⟩
  rw [threads, hfree, hout]
  obtain hneg | hzero | hpos := Int.lt_trichotomy g.freeBufs 0
  · exact .inr (.inl (by simpa using hneg))
  · exact .inr (.inr ⟨hfree.trans hzero, hout, hlist, List.not_mem_nil, List.not_mem_nil⟩)
  · have hcount : (available legacy (fbDevNativeWindow g usage format framebuffers) : Int) ≤
        g.freeBufs := by omega
    exact .inl hcount

/-- No wake-up is lost in a run in which the signals go where they are needed. -/
theorem noLostWakeUp_of_signalled {legacy : Bool} {g : Garbage} {usage format framebuffers : Nat}
    {as : List Action}
    (hg : Guarded (threadStep legacy) (Signalled legacy) (threads g usage format framebuffers) as) :
    Always (threadStep legacy) (NoLostWakeUp legacy) (threads g usage format framebuffers) as :=
  (always_of_guarded (fun _ _ _ hi hc h => inv_step hi hc h)
    (inv_threads g usage format framebuffers) hg).mono fun _ hi => hi.noLostWakeUp

/-- Three threads and two buffers: a dequeue waits until a buffer is cancelled,
and a locker until another buffer is shown. -/
theorem noLostWakeUp_of_signalled_three :
    Always (threadStep false) (NoLostWakeUp false) (threads ⟨7, some 9, fun _ => 3⟩ 4096 1 2)
      [.dequeueBuffer 2, .dequeueBuffer 2, .dequeueBuffer 2, .cancelBuffer 1 0, .resume 0,
        .queueBuffer 0, .posted 0 0, .lockBuffer 0, .queueBuffer 1, .posted 1 0, .resume 0] :=
  noLostWakeUp_of_signalled (by decide)

/-- The signal of a post goes to a locker while a dequeue waits for the buffer
that was shown before. -/
theorem not_noLostWakeUp_posted :
    ¬ ∀ as, Always (threadStep false) (NoLostWakeUp false)
      (threads ⟨0, none, fun _ => 0⟩ 4096 1 2) as := by
  intro h
  have hnone := h [.dequeueBuffer 2, .queueBuffer 0, .posted 0 0, .dequeueBuffer 2, .lockBuffer 0,
    .dequeueBuffer 2, .queueBuffer 1, .posted 1 1, .resume 0] _ _ List.prefix_rfl rfl
  exact hnone (by decide) .buf (by decide) (by decide)

end FakeLibc.FbDevWakeUps

import FakeLibc.FbDevHandOut
import FakeLibc.FbDevThreads

namespace FakeLibc.FbDevWaiting

open FakeLibc.Lib.Run FakeLibc.Lib.Condition FakeLibc.FbDevWindow FakeLibc.FbDevStep
open FakeLibc.FbDevHandOut FakeLibc.FbDevThreads

/-- A thread waits inside a dequeue only while a buffer is out that can come back. -/
def CanWake (s : Threads) : Prop :=
  (∃ k ∈ s.cond.parked, k.dequeues) →
    ∃ b ∈ outstanding s.win, s.win.busy b = 1 ∨ s.win.busy b = 2

/-- The list has a buffer besides the one that is shown. -/
def HasSpare (w : Window) : Prop := ∃ b ∈ w.bufs.list, w.frontBuf ≠ some b

/-- A dequeue while nothing is out finds a spare buffer, which may be a new one,
and the last buffer that is out comes back while at most one dequeue waits. -/
def Spares (s : Threads) : Action → Prop
  | .dequeueBuffer ok =>
    outstanding s.win = [] →
      if s.win.allocateBuffers then 0 < min s.win.bufferCount ok else HasSpare s.win
  | .resume j =>
    outstanding s.win = [] → (∃ k ∈ s.cond.woken[j]?, k.dequeues) → HasSpare s.win
  | .posted b i | .cancelBuffer b i =>
    outstanding s.win = [b] → ∀ k ∈ s.cond.parked.eraseIdx i, ¬ k.dequeues
  | _ => True

structure Inv (s : Threads) : Prop where
  agrees : Agrees s
  tracked : Tracked s.win
  nodup : s.win.bufs.list.Nodup
  out : ∀ b ∈ s.win.bufs.list, s.win.busy b ≠ 0 → b ∈ outstanding s.win
  count : s.win.bufs.list = [] ∨ (freeCount s.win : Int) ≤ s.win.freeBufs
  wakes : (∃ k ∈ s.cond.parked, k.dequeues) → outstanding s.win ≠ []

variable {s t : Threads} {w : Window} {a : Action} {c : Call} {b : Buffer}

theorem busy_of_outstanding (hi : Tracked w) (hb : b ∈ outstanding w) :
    w.busy b = 1 ∨ w.busy b = 2 := by
  obtain hb | hb := List.mem_append.mp hb
  · exact .inl (hi.heldBusy b hb)
  · exact .inr (hi.postingBusy b hb)

theorem Inv.canWake (hi : Inv s) : CanWake s := by
  intro hpark
  obtain ⟨b, hb⟩ := List.exists_mem_of_ne_nil _ (hi.wakes hpark)
  exact ⟨b, hb, busy_of_outstanding hi.tracked hb⟩

theorem tracked_threads (hs : Agrees s) (hi : Tracked s.win) (h : threadStep false s a = some t) :
    Tracked t.win := by
  obtain ⟨hcall, hnone⟩ := window_step hs h
  cases hc : call s a with
  | none =>
    rw [hnone hc]
    exact hi
  | some c => exact tracked_step hi (hcall c hc)

theorem hasSpare_reallocateBuffers (w : Window) (ok : Nat) :
    HasSpare (reallocateBuffers w ok) ↔ 0 < min w.bufferCount ok := by
  have hfront : (reallocateBuffers w ok).frontBuf = none := rfl
  rw [HasSpare, list_reallocateBuffers, hfront]
  constructor
  · rintro ⟨b, hb, _⟩
    rw [List.mem_range'_1] at hb
    omega
  · intro hpos
    exact ⟨w.bufs.next, List.mem_range'_1.mpr ⟨Nat.le_refl _, by omega⟩, nofun⟩

theorem spares_iff (hc : call s a = some c) (hd : Dequeues c) :
    Spares s a ↔ (outstanding s.win = [] → HasSpare (seen s.win c)) := by
  obtain ⟨ok, rfl, rfl⟩ | ⟨j, k, rfl, hk, hcall, hdk, hseen⟩ := dequeue_cases hc hd
  · rw [Spares, seen, allocated]
    split
    · rw [hasSpare_reallocateBuffers]
    · exact Iff.rfl
  · simp [Spares, hk, hseen, hdk]

theorem inv_seen (hi : Inv s) (c : Call) :
    (seen s.win c).bufs.list.Nodup ∧
      (∀ b ∈ (seen s.win c).bufs.list, (seen s.win c).busy b ≠ 0 → b ∈ outstanding s.win) ∧
      ((seen s.win c).bufs.list = [] ∨
        (freeCount (seen s.win c) : Int) ≤ (seen s.win c).freeBufs) := by
  refine seen_of_both (P := fun v => v.bufs.list.Nodup ∧
    (∀ b ∈ v.bufs.list, v.busy b ≠ 0 → b ∈ outstanding s.win) ∧
    (v.bufs.list = [] ∨ (freeCount v : Int) ≤ v.freeBufs)) ⟨hi.nodup, hi.out, hi.count⟩ ?_ c
  intro ok
  refine ⟨nodup_reallocateBuffers s.win ok, fun b hb hbusy => ?_, .inr ?_⟩
  · exact absurd (busy_reallocateBuffers hb) hbusy
  · exact Int.le_of_eq (freeCount_reallocateBuffers s.win ok).symm

theorem hasSpare_of_found (h : found false w = some b) : HasSpare w :=
  ⟨b, (mem_of_found h).1, (mem_of_found h).2.2⟩

theorem found_of_hasSpare (hfree : ∀ b ∈ w.bufs.list, w.busy b = 0) (h : HasSpare w) :
    ∃ b, found false w = some b := by
  obtain ⟨b, hb, hfront⟩ := h
  have hsome : (freeNonFront w).isSome := by
    rw [freeNonFront_eq, List.find?_isSome]
    exact ⟨b, hb, decide_eq_true ⟨hfront, hfree b hb⟩⟩
  obtain ⟨d, hd⟩ := Option.isSome_iff_exists.mp hsome
  exact ⟨d, by rw [found, hd, Option.some_or]⟩

/-- A thread that looks for a buffer while nothing is out finds one if there is
a spare one. -/
theorem returned_of_hasSpare (hi : Inv s) (hd : Dequeues c) (hout : outstanding s.win = [])
    (h : HasSpare (seen s.win c)) : returned false s.win c ≠ none := by
  obtain ⟨_, hbusy, hcount⟩ := inv_seen hi c
  have hfree : ∀ b ∈ (seen s.win c).bufs.list, (seen s.win c).busy b = 0 := by
    intro b hb
    by_contra hne
    exact absurd (hout ▸ hbusy b hb hne) List.not_mem_nil
  obtain ⟨b, hb⟩ := found_of_hasSpare hfree h
  have hmem : b ∈ (seen s.win c).bufs.list := (mem_of_found hb).1
  have hpos : 0 < freeCount (seen s.win c) :=
    List.countP_pos_iff.mpr ⟨b, hmem, decide_eq_true (hfree b hmem)⟩
  have hbufs : (seen s.win c).freeBufs ≠ 0 := by
    obtain hnil | hcount := hcount
    · exact absurd (hnil ▸ hmem) List.not_mem_nil
    · omega
  obtain heq | heq := returned_eq false s.win hd
  · rw [heq, foundFree, if_neg hbufs, hb]
    exact Option.some_ne_none b
  · rw [heq, hb]
    exact Option.some_ne_none b

/-- Without a spare buffer a thread that looks for one parks. -/
theorem parks_of_not_hasSpare (h : ¬ HasSpare (seen w c)) :
    returned false w c = none := by
  by_contra hne
  obtain ⟨b, hb⟩ := Option.ne_none_iff_exists'.mp hne
  exact h (hasSpare_of_found (found_of_returned hb))

theorem inv_of_same (hi : Inv s) (ha : Agrees t) (htr : Tracked t.win)
    (hlist : t.win.bufs.list = s.win.bufs.list) (hbusy : t.win.busy = s.win.busy)
    (hfree : t.win.freeBufs = s.win.freeBufs) (hout : outstanding t.win = outstanding s.win)
    (hpark : ∀ k ∈ t.cond.parked, k.dequeues → k ∈ s.cond.parked) : Inv t := by
  refine ⟨ha, htr, hlist ▸ hi.nodup, ?_, ?_, fun ⟨k, hk, hdk⟩ => ?_⟩
  · rw [hlist, hbusy, hout]
    exact hi.out
  · rw [hlist, hfree, freeCount_congr hlist (fun d _ => by rw [isFree, isFree, hbusy])]
    exact hi.count
  · rw [hout]
    exact hi.wakes ⟨k, hpark k hk hdk, hdk⟩

theorem inv_handOut (hi : Inv s) (ha : Agrees t) (htr : Tracked t.win)
    (hb : returned false s.win c = some b) {free buf : Nat}
    (hwin : t.win = { handOut (seen s.win c) b with waitFree := free, waitBuf := buf }) :
    Inv t := by
  obtain ⟨hnodup, hbusy, hcount⟩ := inv_seen hi c
  obtain ⟨hmem, hzero, _⟩ := mem_of_found (found_of_returned hb)
  have hheld : t.win.held = b :: s.win.held := by
    rw [hwin]
    exact congrArg (List.cons b) (seen_held s.win c)
  have hout : outstanding t.win = b :: outstanding s.win := by
    have hposting : t.win.posting = s.win.posting := by
      rw [hwin]
      exact seen_posting s.win c
    rw [outstanding, hheld, hposting]
    rfl
  have hlist : t.win.bufs.list = (seen s.win c).bufs.list := congrArg (·.bufs.list) hwin
  have hupdate : t.win.busy = Function.update (seen s.win c).busy b 1 := congrArg (·.busy) hwin
  refine ⟨ha, htr, hlist ▸ hnodup, fun d hd hne => ?_, .inr ?_, fun _ => ?_⟩
  · rw [hout]
    by_cases hdb : d = b
    · exact hdb ▸ List.mem_cons_self
    · rw [hupdate, Function.update_of_ne hdb] at hne
      exact List.mem_cons_of_mem b (hbusy d (hlist ▸ hd) hne)
  · have h := freeCount_update hnodup hlist hupdate
    have hfree : t.win.freeBufs = (seen s.win c).freeBufs - 1 := congrArg (·.freeBufs) hwin
    have hcount := hcount.resolve_left (List.ne_nil_of_mem hmem)
    simp [hmem, hzero] at h
    omega
  · rw [hout]
    exact List.cons_ne_nil b _

theorem inv_givenBack_iff (hi : Inv s) (ha : Agrees t) (htr : Tracked t.win)
    (hlist : t.win.bufs.list = s.win.bufs.list)
    (hbusy : t.win.busy = Function.update s.win.busy b 0)
    (hfree : t.win.freeBufs = s.win.freeBufs + 1)
    (hperm : (outstanding s.win).Perm (b :: outstanding t.win)) :
    ((outstanding s.win = [b] → ∀ k ∈ t.cond.parked, ¬ k.dequeues) →
        (∀ k ∈ t.cond.parked, k ∈ s.cond.parked) → Inv t) ∧
      (¬ (outstanding s.win = [b] → ∀ k ∈ t.cond.parked, ¬ k.dequeues) → ¬ CanWake t) := by
  have hnil : outstanding t.win = [] ↔ outstanding s.win = [b] := by
    constructor
    · intro h
      rw [h] at hperm
      exact List.perm_singleton.mp hperm
    · intro h
      rw [h] at hperm
      exact (List.cons.inj (List.singleton_perm.mp hperm)).2.symm
  refine ⟨fun hc hsub => ⟨ha, htr, hlist ▸ hi.nodup, fun d hd hne => ?_, ?_, ?_⟩, fun hc hw => ?_⟩
  · by_cases hdb : d = b
    · rw [hbusy, hdb, Function.update_self] at hne
      exact absurd rfl hne
    · rw [hbusy, Function.update_of_ne hdb] at hne
      have hmem := hperm.mem_iff.mp (hi.out d (hlist ▸ hd) hne)
      exact (List.mem_cons.mp hmem).resolve_left hdb
  · have h := freeCount_update hi.nodup hlist hbusy
    obtain hempty | hcount := hi.count
    · exact .inl (hlist.trans hempty)
    · right
      split at h <;> split at h <;> omega
  · rintro ⟨k, hk, hdk⟩ hempty
    exact hc (hnil.mp hempty) k hk hdk
  · obtain ⟨hlast, hpark⟩ := Classical.not_imp.mp hc
    push Not at hpark
    obtain ⟨b, hb, _⟩ := hw hpark
    rw [hnil.mpr hlast] at hb
    exact absurd hb List.not_mem_nil

theorem spares_of_lock (hc : call s a = none) : Spares s a := by
  cases a with
  | resume j =>
    rintro _ ⟨k, hk, hdk⟩
    rw [call, hk, Option.bind_some] at hc
    cases k with
    | free | buf => cases hc
    | lock b => cases hdk
  | lockBuffer b => trivial
  | _ => cases hc

theorem spares_of_sets (hc : call s a = some c) (hs : Sets c) : Spares s a := by
  cases a with
  | setUsage _ | setBuffersFormat _ | setBufferCount _ => trivial
  | lockBuffer b => trivial
  | queueBuffer b => trivial
  | resume j =>
    obtain ⟨k, _, hc⟩ := Option.bind_eq_some_iff.mp hc
    cases k with
    | free | buf =>
      obtain rfl := Option.some.inj hc
      exact hs.elim
    | lock b => cases hc
  | _ =>
    obtain rfl := Option.some.inj hc
    exact hs.elim

theorem inv_step_iff (hi : Inv s) (h : threadStep false s a = some t) :
    (Spares s a → Inv t) ∧ (¬ Spares s a → ¬ CanWake t) := by
  have ha := agrees_step hi.agrees h
  have htr := tracked_threads hi.agrees hi.tracked h
  generalize ht : t = u at *
  cases turn_of_step h with
  | handOut free buf hc hd hb =>
    refine ⟨fun _ => inv_handOut hi ha htr hb rfl, fun hn => ?_⟩
    rw [spares_iff hc hd] at hn
    push Not at hn
    rw [parks_of_not_hasSpare hn.2] at hb
    cases hb
  | @park a c k free buf hc hd hb hk htest =>
    rw [spares_iff hc hd]
    have hout := seen_outstanding s.win c
    refine ⟨fun hspare => ?_, fun hn hw => ?_⟩
    · obtain ⟨hnodup, hbusy, hcount⟩ := inv_seen hi c
      refine ⟨ha, htr, hnodup, fun d hd hne => hout ▸ hbusy d hd hne, hcount, fun _ hnil => ?_⟩
      have hnil : outstanding s.win = [] := hout.symm.trans hnil
      exact returned_of_hasSpare hi hd hnil (hspare hnil) hb
    · push Not at hn
      obtain ⟨d, hd, _⟩ := hw ⟨k, List.mem_cons_self, hk⟩
      have hd : d ∈ outstanding (seen s.win c) := hd
      rw [hout, hn.1] at hd
      exact absurd hd List.not_mem_nil
  | lock b hc =>
    refine ⟨fun _ => inv_of_same hi ha htr rfl rfl rfl rfl ?_,
      fun hn => absurd (spares_of_lock hc) hn⟩
    intro k hk hdk
    obtain hk | hk := mem_parked_wait.mp hk
    · rw [test, Option.ite_none_right_eq_some] at hk
      obtain rfl := Option.some.inj hk.2
      cases hdk
    · exact parked_rest s _ ▸ hk
  | @queue b hb hbusy =>
    refine ⟨fun _ => ?_, fun hn => absurd trivial hn⟩
    have hperm := perm_queueBuffer hb
    refine ⟨ha, htr, hi.nodup, fun d hd hne => ?_, ?_, fun hpark hnil => ?_⟩
    · by_cases hdb : d = b
      · exact hdb ▸ List.mem_append_right _ List.mem_cons_self
      · have hne : Function.update s.win.busy b 2 d ≠ 0 := hne
        rw [Function.update_of_ne hdb] at hne
        exact hperm.mem_iff.mp (hi.out d hd hne)
    · have h := freeCount_update (v := queueBuffer s.win b) hi.nodup rfl rfl
      simp [hbusy] at h
      rw [h]
      exact hi.count
    · exact hi.wakes hpark (hperm.trans (List.Perm.of_eq hnil)).eq_nil
  | posted hb _ =>
    obtain ⟨hinv, hbreak⟩ := inv_givenBack_iff hi ha htr rfl rfl rfl (perm_posted hb)
    exact ⟨fun hc => hinv hc (fun k hk => mem_parked_of_signal hk), hbreak⟩
  | cancel hb _ =>
    obtain ⟨hinv, hbreak⟩ := inv_givenBack_iff hi ha htr rfl rfl rfl (perm_cancelBuffer hb)
    exact ⟨fun hc => hinv hc (fun k hk => mem_parked_of_signal hk), hbreak⟩
  | set usage format count allocate hc hs =>
    exact ⟨fun _ => inv_of_same hi ha htr rfl rfl rfl rfl (fun k hk _ => hk),
      fun hn => absurd (spares_of_sets hc hs) hn⟩

theorem inv_threads (g : Garbage) (usage format framebuffers : Nat) :
    Inv (threads g usage format framebuffers) := by
  obtain ⟨hlist, _, _⟩ := fbDevNativeWindow_empty g usage format framebuffers
  refine ⟨agrees_threads .., tracked_fbDevNativeWindow .., ?_, ?_, .inl hlist, nofun⟩
  · exact hlist ▸ List.nodup_nil
  · exact fun b hb => absurd (hlist ▸ hb) List.not_mem_nil

/-- Nobody waits for nothing precisely when a dequeue finds a spare buffer
whenever nothing is out, and the last buffer comes back to one waiting dequeue
at most. -/
theorem canWake_iff_spares {g : Garbage} {usage format framebuffers : Nat} {as : List Action}
    (hrun : (exec (threadStep false) (threads g usage format framebuffers) as).isSome) :
    Always (threadStep false) CanWake (threads g usage format framebuffers) as ↔
      Guarded (threadStep false) Spares (threads g usage format framebuffers) as :=
  always_iff_guarded (fun _ hi => hi.canWake) (fun _ _ _ hi hc h => (inv_step_iff hi h).1 hc)
    (fun _ _ _ hi hc h => (inv_step_iff hi h).2 hc) (inv_threads g usage format framebuffers) hrun

/-- Two threads and two buffers. -/
theorem canWake_iff_spares_two :
    Always (threadStep false) CanWake (threads ⟨7, some 9, fun _ => 3⟩ 4096 1 3)
        [.setBufferCount 2, .dequeueBuffer 2, .queueBuffer 0, .posted 0 0, .dequeueBuffer 2,
          .dequeueBuffer 2, .cancelBuffer 1 0, .resume 0] ↔
      Guarded (threadStep false) Spares (threads ⟨7, some 9, fun _ => 3⟩ 4096 1 3)
        [.setBufferCount 2, .dequeueBuffer 2, .queueBuffer 0, .posted 0 0, .dequeueBuffer 2,
          .dequeueBuffer 2, .cancelBuffer 1 0, .resume 0] :=
  canWake_iff_spares (by decide)

/-- No buffer could be allocated. -/
theorem not_canWake_allocation :
    ¬ ∀ n ok, 1 ≤ n →
      Always (threadStep false) CanWake (threads ⟨0, none, fun _ => 0⟩ 4096 1 2)
        [.setBufferCount n, .dequeueBuffer ok] := by
  intro h
  have hwake := h 3 0 (by decide) [.setBufferCount 3, .dequeueBuffer 0] _ List.prefix_rfl rfl
    ⟨.free, by decide, rfl⟩
  obtain ⟨b, hb, _⟩ := hwake
  exact absurd hb List.not_mem_nil

end FakeLibc.FbDevWaiting

import FakeLibc.FbDevStep

namespace FakeLibc.FbDevFreeCount

open FakeLibc.Lib.Run FakeLibc.Lib.RefCount FakeLibc.Lib.Counting
open FakeLibc.FbDevWindow FakeLibc.FbDevStep

structure Counted where
  win : Window
  dequeued : List Buffer

def countedStep (legacy : Bool) (s : Counted) (c : Call) : Option Counted :=
  (step legacy s.win c).map (fun w => ⟨w, s.dequeued ++ (returned legacy s.win c).toList⟩)

def countedWindow (g : Garbage) (usage format framebuffers : Nat) : Counted :=
  ⟨fbDevNativeWindow g usage format framebuffers, []⟩

/-- Once a dequeue has returned, the counter says how many buffers are free. -/
def Exact (s : Counted) : Prop := s.dequeued ≠ [] → s.win.freeBufs = freeCount s.win

/-- The buffer that a call puts back among the free ones. -/
def givenBack : Call → Option Buffer
  | .posted b => some b
  | .cancelBuffer b => some b
  | _ => none

/-- A buffer that comes back is a busy one of the list, and one that is handed
out is in the list, but for the time when the counter was never set. -/
def Kept (legacy : Bool) (s : Counted) (c : Call) : Prop :=
  (∀ b ∈ givenBack c, b ∈ s.win.bufs.list ∧ s.win.busy b ≠ 0) ∧
    ∀ b ∈ returned legacy s.win c,
      b ∈ (seen s.win c).bufs.list ∨ (seen s.win c).freeBufs = freeCount (seen s.win c) + 1

structure Inv (s : Counted) : Prop where
  nodup : s.win.bufs.list.Nodup
  count : s.win.freeBufs = freeCount s.win ∨ s.dequeued = [] ∧ s.win.bufs.list = []
  start : s.dequeued = [] → outstanding s.win = []

variable {legacy : Bool} {s t : Counted} {w v : Window} {c : Call} {b : Buffer}

theorem returned_iff (hl : w.bufs.list.Nodup) (hcount : w.freeBufs = freeCount w)
    (hlist : v.bufs.list = w.bufs.list) (hbusy : v.busy = Function.update w.busy b 0)
    (hfree : v.freeBufs = w.freeBufs + 1) :
    v.freeBufs = freeCount v ↔ b ∈ w.bufs.list ∧ w.busy b ≠ 0 := by
  have h := freeCount_update hl hlist hbusy
  by_cases hb : b ∈ w.bufs.list <;> by_cases hz : w.busy b = 0 <;>
    simp only [hb, hz, and_self, and_true, and_false, if_true, if_false,
      ne_eq, not_true_eq_false, not_false_eq_true, iff_true, iff_false] at h ⊢ <;> omega

theorem handOut_iff (hl : w.bufs.list.Nodup) (hfree : w.busy b = 0)
    (hcount : b ∈ w.bufs.list → w.freeBufs = freeCount w) :
    (handOut w b).freeBufs = freeCount (handOut w b) ↔
      b ∈ w.bufs.list ∨ w.freeBufs = freeCount w + 1 := by
  have h := freeCount_update (v := handOut w b) hl rfl rfl
  have hbufs : (handOut w b).freeBufs = w.freeBufs - 1 := rfl
  by_cases hb : b ∈ w.bufs.list
  · have hc := hcount hb
    simp only [hb, hfree, and_self, if_true, true_or, iff_true] at h ⊢
    simp at h
    omega
  · simp only [hb, false_and, if_false, false_or] at h ⊢
    omega

theorem countedStep_cases (h : countedStep legacy s c = some t) :
    Move legacy s.win c t.win ∧
      t.dequeued = s.dequeued ++ (returned legacy s.win c).toList := by
  obtain ⟨w, hw, rfl⟩ := Option.map_eq_some_iff.mp h
  exact ⟨move_of_step hw, rfl⟩

theorem inv_seen (hi : Inv s) (c : Call) :
    (seen s.win c).bufs.list.Nodup ∧
      ((seen s.win c).freeBufs = freeCount (seen s.win c) ∨
        s.dequeued = [] ∧ (seen s.win c).bufs.list = []) := by
  refine seen_of_both (P := fun v => v.bufs.list.Nodup ∧
    (v.freeBufs = freeCount v ∨ s.dequeued = [] ∧ v.bufs.list = [])) ⟨hi.nodup, hi.count⟩ ?_ c
  intro ok
  exact ⟨nodup_reallocateBuffers s.win ok, .inl (freeCount_reallocateBuffers s.win ok)⟩

theorem Inv.exact (hi : Inv s) : Exact s :=
  fun hne => hi.count.resolve_right (fun h => hne h.1)

theorem Inv.count_of_mem (hi : Inv s) (hb : b ∈ outstanding s.win) :
    s.dequeued ≠ [] ∧ s.win.freeBufs = freeCount s.win := by
  have hne : s.dequeued ≠ [] := fun h => by
    rw [hi.start h] at hb
    exact absurd hb List.not_mem_nil
  exact ⟨hne, hi.exact hne⟩

theorem inv_returned_iff (hi : Inv s) (hb : b ∈ outstanding s.win)
    (hdeq : t.dequeued = s.dequeued) (hlist : t.win.bufs.list = s.win.bufs.list)
    (hbusy : t.win.busy = Function.update s.win.busy b 0)
    (hfree : t.win.freeBufs = s.win.freeBufs + 1) :
    (b ∈ s.win.bufs.list ∧ s.win.busy b ≠ 0 → Inv t) ∧
      (¬ (b ∈ s.win.bufs.list ∧ s.win.busy b ≠ 0) → ¬ Exact t) := by
  obtain ⟨hne, hcount⟩ := hi.count_of_mem hb
  have hiff := returned_iff hi.nodup hcount hlist hbusy hfree
  refine ⟨fun hc => ⟨hlist ▸ hi.nodup, .inl (hiff.mpr hc), fun h => ?_⟩, fun hc he => ?_⟩
  · exact absurd (hdeq.symm.trans h) hne
  · exact hc (hiff.mp (he (hdeq ▸ hne)))

theorem givenBack_of_dequeues (hd : Dequeues c) : givenBack c = none := by
  cases c with
  | dequeueBuffer _ | wakeFree | wakeBuf => rfl
  | _ => exact hd.elim

theorem givenBack_of_sets (hs : Sets c) : givenBack c = none := by
  cases c with
  | setUsage _ | setBuffersFormat _ | setBufferCount _ => rfl
  | _ => exact hs.elim

theorem inv_same (hi : Inv s) (hdeq : t.dequeued = s.dequeued)
    (hout : outstanding t.win = [] ↔ outstanding s.win = [])
    (hlist : t.win.bufs.list = (seen s.win c).bufs.list)
    (hfree : t.win.freeBufs = (seen s.win c).freeBufs)
    (hbusy : ∀ d ∈ (seen s.win c).bufs.list, isFree (seen s.win c) d = isFree t.win d) : Inv t := by
  obtain ⟨hnodup, hcount⟩ := inv_seen hi c
  refine ⟨hlist ▸ hnodup, ?_, fun h => hout.mpr (hi.start (hdeq ▸ h))⟩
  rw [hfree, freeCount_congr hlist hbusy, hdeq, hlist]
  exact hcount

theorem inv_handOut_iff (hi : Inv s) (hb : returned legacy s.win c = some b) {free buf : Nat}
    (hwin : t.win = { handOut (seen s.win c) b with waitFree := free, waitBuf := buf })
    (hdeq : t.dequeued = s.dequeued ++ [b]) :
    (b ∈ (seen s.win c).bufs.list ∨ (seen s.win c).freeBufs = freeCount (seen s.win c) + 1 →
        Inv t) ∧
      (¬ (b ∈ (seen s.win c).bufs.list ∨
          (seen s.win c).freeBufs = freeCount (seen s.win c) + 1) → ¬ Exact t) := by
  obtain ⟨hnodup, hcount⟩ := inv_seen hi c
  have hiff := handOut_iff hnodup (busy_of_found (found_of_returned hb)) fun hmem =>
    hcount.resolve_right fun hn => absurd hmem (hn.2 ▸ List.not_mem_nil)
  have hsame : t.win.freeBufs = freeCount t.win ↔
      (handOut (seen s.win c) b).freeBufs = freeCount (handOut (seen s.win c) b) := by
    rw [hwin]
    rfl
  have hne : t.dequeued ≠ [] := by
    rw [hdeq]
    exact List.append_ne_nil_of_right_ne_nil _ (List.cons_ne_nil b [])
  refine ⟨fun hc => ⟨?_, .inl (hsame.mpr (hiff.mpr hc)), fun h => absurd h hne⟩, fun hc he => ?_⟩
  · rw [hwin]
    exact hnodup
  · exact hc (hiff.mp (hsame.mp (he hne)))

theorem kept_of_none (hg : givenBack c = none) (hr : returned legacy s.win c = none) :
    Kept legacy s c := by
  rw [Kept, hg, hr]
  exact ⟨fun d hd => absurd hd (Option.not_mem_none d),
    fun d hd => absurd hd (Option.not_mem_none d)⟩

theorem kept_of_returned (hg : givenBack c = none) (hr : returned legacy s.win c = some b) :
    Kept legacy s c ↔ b ∈ (seen s.win c).bufs.list ∨
      (seen s.win c).freeBufs = freeCount (seen s.win c) + 1 := by
  rw [Kept, hg, hr]
  simp

theorem kept_of_givenBack (hg : givenBack c = some b) (hr : returned legacy s.win c = none) :
    Kept legacy s c ↔ b ∈ s.win.bufs.list ∧ s.win.busy b ≠ 0 := by
  rw [Kept, hg, hr]
  simp

theorem inv_step_iff (hi : Inv s) (h : countedStep legacy s c = some t) :
    (Kept legacy s c → Inv t) ∧ (¬ Kept legacy s c → ¬ Exact t) := by
  obtain ⟨hmove, hdeq⟩ := countedStep_cases h
  generalize hwin : t.win = w at hmove
  cases hmove with
  | handOut free buf hd hb =>
    rw [kept_of_returned (givenBack_of_dequeues hd) hb]
    rw [hb] at hdeq
    exact inv_handOut_iff hi hb hwin hdeq
  | wait free buf hd hb =>
    rw [hb] at hdeq
    refine ⟨fun _ => ?_, fun hc => absurd (kept_of_none (givenBack_of_dequeues hd) hb) hc⟩
    refine inv_same (c := c) hi (hdeq.trans (List.append_nil _)) ?_ ?_ ?_ fun d _ => ?_ <;>
      rw [hwin]
    · exact iff_of_eq (congrArg (· = []) (seen_outstanding s.win c))
    · rfl
  | @queue b hb hbusy =>
    have hne := (hi.count_of_mem (List.mem_append_left _ hb)).1
    refine ⟨fun _ => ?_, fun hc => absurd (kept_of_none rfl rfl) hc⟩
    refine ⟨?_, ?_, fun hnil => absurd ((hdeq.trans (List.append_nil _)).symm.trans hnil) hne⟩
    · rw [hwin]
      exact hi.nodup
    · have hcount : freeCount (queueBuffer s.win b) = freeCount s.win := by
        have h := freeCount_update (v := queueBuffer s.win b) hi.nodup rfl rfl
        simpa [hbusy] using h
      rw [hwin, hcount]
      exact .inl (hi.exact hne)
  | posted hb =>
    rw [kept_of_givenBack rfl rfl]
    exact inv_returned_iff hi (List.mem_append_right _ hb) (hdeq.trans (List.append_nil _))
      (congrArg (·.bufs.list) hwin) (congrArg (·.busy) hwin) (congrArg (·.freeBufs) hwin)
  | cancel hb =>
    rw [kept_of_givenBack rfl rfl]
    exact inv_returned_iff hi (List.mem_append_left _ hb) (hdeq.trans (List.append_nil _))
      (congrArg (·.bufs.list) hwin) (congrArg (·.busy) hwin) (congrArg (·.freeBufs) hwin)
  | set usage format count allocate hs =>
    rw [returned_of_sets s.win hs] at hdeq
    refine ⟨fun _ => ?_, fun hc =>
      absurd (kept_of_none (givenBack_of_sets hs) (returned_of_sets s.win hs)) hc⟩
    refine inv_same (c := c) hi (hdeq.trans (List.append_nil _)) ?_ ?_ ?_ fun d _ => ?_ <;>
      rw [hwin]
    · rfl
    · rw [seen_of_sets s.win hs]
    · rw [seen_of_sets s.win hs]
    · rw [seen_of_sets s.win hs]
      rfl

theorem inv_countedWindow (g : Garbage) (usage format framebuffers : Nat) :
    Inv (countedWindow g usage format framebuffers) := by
  rw [countedWindow, fbDevNativeWindow, setBufferCount]
  split <;> exact ⟨List.nodup_nil, .inr ⟨rfl, rfl⟩, fun _ => rfl⟩

/-- The counter is exact precisely when every buffer that comes back is a busy
one of the list, and every one that is handed out is in it. -/
theorem exact_iff_listed {legacy : Bool} {g : Garbage} {usage format framebuffers : Nat}
    {calls : List Call}
    (hrun : (exec (countedStep legacy) (countedWindow g usage format framebuffers) calls).isSome) :
    Always (countedStep legacy) Exact (countedWindow g usage format framebuffers) calls ↔
      Guarded (countedStep legacy) (Kept legacy) (countedWindow g usage format framebuffers)
        calls :=
  always_iff_guarded (fun _ hi => hi.exact) (fun _ _ _ hi hc h => (inv_step_iff hi h).1 hc)
    (fun _ _ _ hi hc h => (inv_step_iff hi h).2 hc)
    (inv_countedWindow g usage format framebuffers) hrun

/-- Two frames of a window with two buffers. -/
theorem exact_iff_listed_frames :
    Always (countedStep false) Exact (countedWindow ⟨7, some 9, fun _ => 3⟩ 4096 1 2)
        [.dequeueBuffer 2, .queueBuffer 0, .dequeueBuffer 2, .posted 0, .cancelBuffer 1] ↔
      Guarded (countedStep false) (Kept false) (countedWindow ⟨7, some 9, fun _ => 3⟩ 4096 1 2)
        [.dequeueBuffer 2, .queueBuffer 0, .dequeueBuffer 2, .posted 0, .cancelBuffer 1] :=
  exact_iff_listed (by decide)

/-- A buffer is cancelled after the list has been made anew. -/
theorem not_exact_setUsage :
    ¬ ∀ calls,
      (exec (countedStep false) (countedWindow ⟨0, none, fun _ => 0⟩ 4096 1 2) calls).isSome →
      Always (countedStep false) Exact (countedWindow ⟨0, none, fun _ => 0⟩ 4096 1 2) calls := by
  intro h
  have hexact := h [.dequeueBuffer 2, .setUsage 256, .dequeueBuffer 2, .cancelBuffer 0]
    (by decide) _ _ List.prefix_rfl rfl (by decide)
  exact absurd hexact (by decide)

end FakeLibc.FbDevFreeCount

import FakeLibc.FbDevHandOut

namespace FakeLibc.FbDevScreen

open FakeLibc.Lib.Run FakeLibc.FbDevWindow FakeLibc.FbDevStep FakeLibc.FbDevHandOut

/-- The window before its frame buffer device. `unposted` buffers are queued,
and the device has not got them yet. -/
structure Screen where
  win : Window
  unposted : List Buffer
  shown : Option Buffer

/-- `post` is what `queueBuffer` calls between its two locked parts. -/
inductive Action
  | call (c : Call)
  | post (b : Buffer) (rv : Int)
deriving DecidableEq

def begins : Call → List Buffer
  | .queueBuffer b => [b]
  | _ => []

def ends : Call → List Buffer
  | .posted b => [b]
  | _ => []

/-- A `post` that succeeds shows its buffer. The window does not look at what it returns. -/
def step (legacy : Bool) (s : Screen) : Action → Option Screen
  | .call c =>
    if ∀ b ∈ ends c, b ∉ s.unposted then
      (FbDevWindow.step legacy s.win c).map (fun w => ⟨w, begins c ++ s.unposted, s.shown⟩)
    else none
  | .post b rv =>
    if b ∈ s.unposted then
      some ⟨s.win, s.unposted.erase b, if rv = 0 then some b else s.shown⟩
    else none

def start (g : Garbage) (usage format framebuffers : Nat) : Screen :=
  ⟨fbDevNativeWindow g usage format framebuffers, [], none⟩

/-- No client has the buffer that is shown. -/
def Clear (s : Screen) : Prop := ∀ b ∈ s.shown, b ∉ s.win.held

def Ends : Action → Prop
  | .call (.posted _) => True
  | _ => False

/-- Until another `queueBuffer` ends, no client gets the buffer that is shown,
whatever the others do. -/
def Safe (s : Screen) : Prop :=
  ∀ as t, (∀ a ∈ as, ¬ Ends a) → exec (step false) s as = some t → Clear t

/-- Where a `queueBuffer` ends, its buffer is shown, or one whose `queueBuffer`
has not ended, or one that is not in the list any more. -/
def InTurn (s : Screen) : Action → Prop
  | .call (.posted b) =>
    ∀ d ∈ s.shown, d = b ∨ d ∈ s.win.posting ∨ d ∉ s.win.bufs.list
  | _ => True

instance (s : Screen) : (a : Action) → Decidable (InTurn s a)
  | .call (.posted b) =>
    inferInstanceAs
      (Decidable (∀ d ∈ s.shown, d = b ∨ d ∈ s.win.posting ∨ d ∉ s.win.bufs.list))
  | .call (.dequeueBuffer _) => .isTrue trivial
  | .call .wakeFree => .isTrue trivial
  | .call .wakeBuf => .isTrue trivial
  | .call (.queueBuffer _) => .isTrue trivial
  | .call (.cancelBuffer _) => .isTrue trivial
  | .call (.setUsage _) => .isTrue trivial
  | .call (.setBuffersFormat _) => .isTrue trivial
  | .call (.setBufferCount _) => .isTrue trivial
  | .post _ _ => .isTrue trivial

structure Listed (w : Window) : Prop where
  nodup : w.bufs.list.Nodup
  out : ∀ b ∈ w.bufs.list, w.busy b ≠ 0 → b ∈ outstanding w
  count : w.bufs.list = [] ∨ (freeCount w : Int) ≤ w.freeBufs

def Covered (s : Screen) : Prop :=
  ∀ b ∈ s.shown, b ∈ s.win.posting ∨ s.win.frontBuf = some b ∨ b ∉ s.win.bufs.list

structure Inv (s : Screen) : Prop where
  tracked : Tracked s.win
  listed : Listed s.win
  unposted : ∀ b ∈ s.unposted, b ∈ s.win.posting
  old : ∀ b ∈ s.shown, b < s.win.bufs.next
  covered : Covered s
  clear : Clear s

variable {legacy : Bool} {s t : Screen} {w v : Window} {a : Action} {c : Call} {b : Buffer}

theorem listed_waiting (hl : Listed w) (free buf : Nat) :
    Listed { w with waitFree := free, waitBuf := buf } := ⟨hl.nodup, hl.out, hl.count⟩

theorem listed_reallocateBuffers (w : Window) (ok : Nat) : Listed (reallocateBuffers w ok) where
  nodup := nodup_reallocateBuffers w ok
  out := fun _ hb hbusy => absurd (busy_reallocateBuffers hb) hbusy
  count := .inr (Int.le_of_eq (freeCount_reallocateBuffers w ok).symm)

theorem listed_seen (hl : Listed w) (c : Call) : Listed (seen w c) :=
  seen_of_both hl (listed_reallocateBuffers w) c

theorem found_false (w : Window) : found false w = freeNonFront w := Option.or_none

theorem listed_handOut (hl : Listed w) (h : freeNonFront w = some b) : Listed (handOut w b) := by
  obtain ⟨hmem, hzero, _⟩ := mem_of_freeNonFront h
  refine ⟨hl.nodup, fun d hd hbusy => ?_, .inr ?_⟩
  · by_cases hdb : d = b
    · exact hdb ▸ List.mem_cons_self
    · have hkeep : (handOut w b).busy d = w.busy d := Function.update_of_ne hdb ..
      exact List.mem_cons_of_mem b (hl.out d hd (hkeep ▸ hbusy))
  · have hcount := freeCount_update (v := handOut w b) hl.nodup rfl rfl
    have hfree : (handOut w b).freeBufs = w.freeBufs - 1 := rfl
    have hle := hl.count.resolve_left (List.ne_nil_of_mem hmem)
    simp [hmem, hzero] at hcount
    omega

theorem listed_queueBuffer (hl : Listed w) (hb : b ∈ w.held) : Listed (queueBuffer w b) := by
  refine ⟨hl.nodup, fun d hd hbusy => ?_, ?_⟩
  · by_cases hdb : d = b
    · exact List.mem_append_right _ (hdb ▸ List.mem_cons_self)
    · have hkeep : (queueBuffer w b).busy d = w.busy d := Function.update_of_ne hdb ..
      exact (perm_queueBuffer hb).mem_iff.mp (hl.out d hd (hkeep ▸ hbusy))
  · have hcount := freeCount_update (v := queueBuffer w b) hl.nodup rfl rfl
    obtain hnil | hle := hl.count
    · exact .inl hnil
    · right
      have hfree : (queueBuffer w b).freeBufs = w.freeBufs := rfl
      split at hcount <;> simp at hcount <;> omega

theorem listed_givenBack (hl : Listed w) (hlist : v.bufs.list = w.bufs.list)
    (hbusy : v.busy = Function.update w.busy b 0) (hfree : v.freeBufs = w.freeBufs + 1)
    (hperm : (outstanding w).Perm (b :: outstanding v)) : Listed v := by
  refine ⟨hlist ▸ hl.nodup, fun d hd hne => ?_, ?_⟩
  · by_cases hdb : d = b
    · rw [hbusy, hdb, Function.update_self] at hne
      exact absurd rfl hne
    · rw [hbusy, Function.update_of_ne hdb] at hne
      have hmem := hperm.mem_iff.mp (hl.out d (hlist ▸ hd) hne)
      exact (List.mem_cons.mp hmem).resolve_left hdb
  · have hcount := freeCount_update hl.nodup hlist hbusy
    obtain hnil | hle := hl.count
    · exact .inl (hlist.trans hnil)
    · right
      split at hcount <;> split at hcount <;> omega

theorem listed_step (hl : Listed w) (h : FbDevWindow.step false w c = some v) : Listed v := by
  cases move_of_step h with
  | handOut free buf hd hb =>
    have hb := found_of_returned hb
    rw [found_false] at hb
    exact listed_waiting (listed_handOut (listed_seen hl c) hb) free buf
  | wait free buf hd hb => exact listed_waiting (listed_seen hl c) free buf
  | queue hb hbusy => exact listed_queueBuffer hl hb
  | posted hb => exact listed_givenBack hl rfl rfl rfl (perm_posted hb)
  | cancel hb => exact listed_givenBack hl rfl rfl rfl (perm_cancelBuffer hb)
  | set usage format count allocate hs => exact ⟨hl.nodup, hl.out, hl.count⟩

theorem step_call_cases (h : step legacy s (.call c) = some t) :
    (∀ b ∈ ends c, b ∉ s.unposted) ∧ FbDevWindow.step legacy s.win c = some t.win ∧
      t.unposted = begins c ++ s.unposted ∧ t.shown = s.shown := by
  rw [step, Option.ite_none_right_eq_some] at h
  obtain ⟨hends, h⟩ := h
  obtain ⟨w, hw, rfl⟩ := Option.map_eq_some_iff.mp h
  exact ⟨hends, hw, rfl, rfl⟩

theorem begins_of_dequeues (hd : Dequeues c) : begins c = [] := by
  cases c with
  | dequeueBuffer _ | wakeFree | wakeBuf => rfl
  | _ => exact hd.elim

theorem begins_of_sets (hs : Sets c) : begins c = [] := by
  cases c with
  | setUsage _ | setBuffersFormat _ | setBufferCount _ => rfl
  | _ => exact hs.elim

theorem next_seen (w : Window) (c : Call) : w.bufs.next ≤ (seen w c).bufs.next :=
  seen_of_both (P := fun v => w.bufs.next ≤ v.bufs.next) (Nat.le_refl _)
    (fun ok => Lib.RefCount.next_le_fill w.bufs.clear w.bufferCount ok) c

/-- A list that is made anew has none of the buffers from before. -/
theorem covered_seen (hi : Inv s) (c : Call) :
    ∀ b ∈ s.shown, b ∈ s.win.posting ∨ (seen s.win c).frontBuf = some b ∨
      b ∉ (seen s.win c).bufs.list := by
  refine seen_of_both (P := fun v => ∀ b ∈ s.shown, b ∈ s.win.posting ∨
    v.frontBuf = some b ∨ b ∉ v.bufs.list) hi.covered ?_ c
  intro ok b hb
  refine .inr (.inr fun hmem => ?_)
  rw [list_reallocateBuffers, List.mem_range'_1] at hmem
  exact absurd (hi.old b hb) (Nat.not_lt.mpr hmem.1)

theorem found_ne_shown (hi : Inv s) (h : found false (seen s.win c) = some b) :
    ∀ d ∈ s.shown, d ≠ b := by
  rintro d hd rfl
  obtain ⟨hmem, hzero, hfront⟩ := mem_of_found h
  rcases covered_seen hi c d hd with hpost | heq | hnot
  · have hout := (tracked_seen hi.tracked c).not_mem_of_free hzero
    rw [seen_outstanding] at hout
    exact hout (List.mem_append_right _ hpost)
  · exact hfront heq
  · exact hnot hmem

theorem inv_handOut (hi : Inv s) (htr : Tracked t.win) (hl : Listed t.win)
    (hunposted : t.unposted = s.unposted) (hshown : t.shown = s.shown)
    (hb : found false (seen s.win c) = some b) {free buf : Nat}
    (hwin : t.win = { handOut (seen s.win c) b with waitFree := free, waitBuf := buf }) :
    Inv t := by
  have hposting : t.win.posting = s.win.posting := by rw [hwin]; exact seen_posting s.win c
  refine ⟨htr, hl, ?_, ?_, ?_, ?_⟩
  · rw [hunposted, hposting]
    exact hi.unposted
  · intro d hd
    rw [hwin]
    exact Nat.lt_of_lt_of_le (hi.old d (hshown ▸ hd)) (next_seen s.win c)
  · intro d hd
    rw [hposting, hwin]
    exact covered_seen hi c d (hshown ▸ hd)
  · intro d hd
    have hheld : t.win.held = b :: s.win.held := by
      rw [hwin]
      exact congrArg (List.cons b) (seen_held s.win c)
    rw [hheld, List.mem_cons, not_or]
    exact ⟨found_ne_shown hi hb d (hshown ▸ hd), hi.clear d (hshown ▸ hd)⟩

theorem inv_wait (hi : Inv s) (htr : Tracked t.win) (hl : Listed t.win)
    (hunposted : t.unposted = s.unposted) (hshown : t.shown = s.shown) {free buf : Nat}
    (hwin : t.win = { seen s.win c with waitFree := free, waitBuf := buf }) : Inv t := by
  have hposting : t.win.posting = s.win.posting := by rw [hwin]; exact seen_posting s.win c
  refine ⟨htr, hl, ?_, ?_, ?_, ?_⟩
  · rw [hunposted, hposting]
    exact hi.unposted
  · intro d hd
    rw [hwin]
    exact Nat.lt_of_lt_of_le (hi.old d (hshown ▸ hd)) (next_seen s.win c)
  · intro d hd
    rw [hposting, hwin]
    exact covered_seen hi c d (hshown ▸ hd)
  · intro d hd
    have hheld : t.win.held = s.win.held := by rw [hwin]; exact seen_held s.win c
    rw [hheld]
    exact hi.clear d (hshown ▸ hd)

theorem inv_of_same (hi : Inv s) (htr : Tracked t.win) (hl : Listed t.win)
    (hunposted : ∀ b ∈ t.unposted, b ∈ t.win.posting) (hshown : t.shown = s.shown)
    (hbufs : t.win.bufs = s.win.bufs) (hfront : t.win.frontBuf = s.win.frontBuf)
    (hposting : s.win.posting ⊆ t.win.posting) (hheld : t.win.held ⊆ s.win.held) : Inv t := by
  refine ⟨htr, hl, hunposted, ?_, ?_, ?_⟩
  · rw [hshown, hbufs]
    exact hi.old
  · intro d hd
    rw [hfront, hbufs]
    exact (hi.covered d (hshown ▸ hd)).imp_left (fun hpost => hposting hpost)
  · intro d hd hmem
    exact hi.clear d (hshown ▸ hd) (hheld hmem)

theorem inv_posted (hi : Inv s) (htr : Tracked t.win) (hl : Listed t.win)
    (hends : b ∉ s.unposted) (hunposted : t.unposted = s.unposted)
    (hshown : t.shown = s.shown) (hwin : t.win = posted s.win b)
    (hturn : InTurn s (.call (.posted b))) : Inv t := by
  have hposting : t.win.posting = s.win.posting.erase b := congrArg (·.posting) hwin
  have hbufs : t.win.bufs = s.win.bufs := congrArg (·.bufs) hwin
  refine ⟨htr, hl, ?_, ?_, ?_, ?_⟩
  · intro d hd
    rw [hunposted] at hd
    rw [hposting]
    exact (List.mem_erase_of_ne (fun heq : d = b => hends (heq ▸ hd))).mpr (hi.unposted d hd)
  · rw [hshown, hbufs]
    exact hi.old
  · intro d hd
    rw [hposting, hbufs]
    by_cases hdb : d = b
    · right
      left
      rw [hdb, hwin]
      rfl
    · rcases hturn d (hshown ▸ hd) with heq | hpost | hnot
      · exact absurd heq hdb
      · exact .inl ((List.mem_erase_of_ne hdb).mpr hpost)
      · exact .inr (.inr hnot)
  · have hheld : t.win.held = s.win.held := congrArg (·.held) hwin
    rw [Clear, hshown, hheld]
    exact hi.clear

theorem inv_post (hi : Inv s) {rv : Int} (h : step false s (.post b rv) = some t) : Inv t := by
  rw [step, Option.ite_none_right_eq_some, Option.some.injEq] at h
  obtain ⟨hb, rfl⟩ := h
  have hpost := hi.unposted b hb
  refine ⟨hi.tracked, hi.listed, fun d hd => hi.unposted d (List.mem_of_mem_erase hd), ?_, ?_, ?_⟩
  all_goals
    intro d hd
    have hd : d ∈ if rv = 0 then some b else s.shown := hd
    split at hd
  · obtain rfl := Option.mem_some_iff.mp hd
    exact hi.tracked.old _ (List.mem_append_right _ hpost)
  · exact hi.old d hd
  · obtain rfl := Option.mem_some_iff.mp hd
    exact .inl hpost
  · exact hi.covered d hd
  · obtain rfl := Option.mem_some_iff.mp hd
    exact fun hheld => hi.tracked.not_mem_posting hheld hpost
  · exact hi.clear d hd

theorem inv_call (hi : Inv s) (hturn : InTurn s (.call c)) (h : step false s (.call c) = some t) :
    Inv t := by
  obtain ⟨hends, hw, hunposted, hshown⟩ := step_call_cases h
  have htr := tracked_step hi.tracked hw
  have hl := listed_step hi.listed hw
  obtain ⟨v, unposted, shown⟩ := t
  cases move_of_step hw with
  | handOut free buf hd hb =>
    rw [begins_of_dequeues hd] at hunposted
    exact inv_handOut hi htr hl hunposted hshown (found_of_returned hb) rfl
  | wait free buf hd hb =>
    rw [begins_of_dequeues hd] at hunposted
    exact inv_wait hi htr hl hunposted hshown rfl
  | @queue b hb hbusy =>
    refine inv_of_same hi htr hl ?_ hshown rfl rfl (List.subset_cons_self b _)
      List.erase_subset
    intro d hd
    rw [hunposted] at hd
    obtain rfl | hd := List.mem_cons.mp hd
    · exact List.mem_cons_self
    · exact List.mem_cons_of_mem b (hi.unposted d hd)
  | @posted b hb =>
    exact inv_posted hi htr hl (hends b List.mem_cons_self) hunposted hshown rfl hturn
  | cancel hb =>
    refine inv_of_same hi htr hl ?_ hshown rfl rfl (List.Subset.refl _) List.erase_subset
    rw [hunposted]
    exact hi.unposted
  | set usage format count allocate hs =>
    rw [begins_of_sets hs] at hunposted
    refine inv_of_same hi htr hl ?_ hshown rfl rfl (List.Subset.refl _) (List.Subset.refl _)
    rw [hunposted]
    exact hi.unposted

theorem inv_step (hi : Inv s) (hturn : InTurn s a) (h : step false s a = some t) : Inv t := by
  cases a with
  | post b rv => exact inv_post hi h
  | call c => exact inv_call hi hturn h

theorem inTurn_of_not_ends (s : Screen) (h : ¬ Ends a) : InTurn s a := by
  cases a with
  | post b rv => trivial
  | call c =>
    cases c with
    | posted b => exact absurd trivial h
    | _ => trivial

theorem Inv.exec (hi : Inv s) {as : List Action} (has : ∀ a ∈ as, ¬ Ends a)
    (h : exec (step false) s as = some t) : Inv t := by
  induction as generalizing s with
  | nil =>
    obtain rfl := Option.some.inj h
    exact hi
  | cons a as ih =>
    obtain ⟨u, hu, h⟩ := Option.bind_eq_some_iff.mp h
    have hturn := inTurn_of_not_ends s (has a List.mem_cons_self)
    exact ih (inv_step hi hturn hu) (fun d hd => has d (List.mem_cons_of_mem a hd)) h

theorem Inv.safe (hi : Inv s) : Safe s := fun _ _ has h => (hi.exec has h).clear

theorem inv_start (g : Garbage) (usage format framebuffers : Nat) :
    Inv (start g usage format framebuffers) := by
  obtain ⟨hlist, _, hout⟩ := fbDevNativeWindow_empty g usage format framebuffers
  refine ⟨tracked_fbDevNativeWindow g usage format framebuffers, ⟨?_, ?_, ?_⟩, ?_, ?_, ?_, ?_⟩
  · rw [start, hlist]
    exact List.nodup_nil
  · rw [start, hlist]
    simp
  · exact .inl hlist
  all_goals simp [start, Covered, Clear]

structure Takable (w : Window) (b : Buffer) : Prop where
  listed : Listed w
  mem : b ∈ w.bufs.list
  free : w.busy b = 0
  front : w.frontBuf ≠ some b

theorem Takable.finds (h : Takable w b) : ∃ d, freeNonFront w = some d ∧ w.freeBufs ≠ 0 := by
  have hsome : (freeNonFront w).isSome := by
    rw [freeNonFront_eq, List.find?_isSome]
    exact ⟨b, h.mem, decide_eq_true ⟨h.front, h.free⟩⟩
  obtain ⟨d, hd⟩ := Option.isSome_iff_exists.mp hsome
  have hpos : 0 < freeCount w := List.countP_pos_iff.mpr ⟨b, h.mem, decide_eq_true h.free⟩
  have hle := h.listed.count.resolve_left (List.ne_nil_of_mem h.mem)
  exact ⟨d, hd, by omega⟩

theorem Takable.dequeue (h : Takable w b) (legacy : Bool) (halloc : w.allocateBuffers = false) :
    ∃ d, freeNonFront w = some d ∧
      FbDevWindow.step legacy w (.dequeueBuffer 0) = some (handOut w d) := by
  obtain ⟨d, hd, hfree⟩ := h.finds
  have hfound : foundFree legacy w = some d := by
    rw [foundFree, if_neg hfree, found, hd, Option.some_or]
  have hperform : perform legacy w (.dequeueBuffer 0) = handOut w d := by
    rw [perform, dequeueBuffer, halloc]
    exact awaitFree_of_foundFree hfound
  exact ⟨d, hd, (if_pos trivial).trans (congrArg some hperform)⟩

theorem Takable.handed_out (h : Takable w b) (legacy : Bool)
    (halloc : w.allocateBuffers = false) :
    ∃ n v, exec (FbDevWindow.step legacy) w (List.replicate n (.dequeueBuffer 0)) = some v ∧
      b ∈ v.held := by
  obtain ⟨k, hk⟩ : ∃ k, k = freeCount w := ⟨_, rfl⟩
  induction k using Nat.strong_induction_on generalizing w with
  | _ k ih =>
    obtain ⟨d, hd, hstep⟩ := h.dequeue legacy halloc
    obtain ⟨hmem, hzero, _⟩ := mem_of_freeNonFront hd
    by_cases hdb : b = d
    · refine ⟨1, handOut w d, ?_, ?_⟩
      · rw [List.replicate_one, exec_cons, hstep]
        rfl
      · rw [hdb]
        exact List.mem_cons_self
    · have hrest : Takable (handOut w d) b := by
        refine ⟨listed_handOut h.listed hd, h.mem, ?_, h.front⟩
        have hkeep : (handOut w d).busy b = w.busy b := Function.update_of_ne hdb ..
        rw [hkeep]
        exact h.free
      have hcount := freeCount_update (v := handOut w d) h.listed.nodup rfl rfl
      simp [hmem, hzero] at hcount
      obtain ⟨n, v, hv, hheld⟩ :=
        ih (freeCount (handOut w d)) (by omega) hrest halloc rfl
      refine ⟨n + 1, v, ?_, hheld⟩
      rw [List.replicate_succ, exec_cons, hstep, Option.bind_some]
      exact hv

theorem exec_calls (s : Screen) {cs : List Call} (hcs : ∀ c ∈ cs, begins c = [] ∧ ends c = [])
    (h : exec (FbDevWindow.step legacy) s.win cs = some v) :
    exec (step legacy) s (cs.map .call) = some ⟨v, s.unposted, s.shown⟩ := by
  induction cs generalizing s with
  | nil =>
    obtain rfl := Option.some.inj h
    rfl
  | cons c cs ih =>
    obtain ⟨u, hu, h⟩ := Option.bind_eq_some_iff.mp h
    obtain ⟨hbegins, hends⟩ := hcs c List.mem_cons_self
    have hstep : step legacy s (.call c) = some ⟨u, s.unposted, s.shown⟩ := by
      rw [step, hends, if_pos (by simp), hu, hbegins]
      rfl
    rw [List.map_cons, exec_cons, hstep, Option.bind_some]
    exact ih ⟨u, s.unposted, s.shown⟩ (fun d hd => hcs d (List.mem_cons_of_mem c hd)) h

theorem not_safe_of_takable (hb : b ∈ t.shown) (h : Takable t.win b) : ¬ Safe t := by
  intro hsafe
  have halloc : (setUsage t.win t.win.usage).allocateBuffers = false :=
    decide_eq_false (fun hne => hne rfl)
  have htake : Takable (setUsage t.win t.win.usage) b :=
    ⟨⟨h.listed.nodup, h.listed.out, h.listed.count⟩, h.mem, h.free, h.front⟩
  obtain ⟨n, v, hv, hheld⟩ := htake.handed_out false halloc
  have hrun : exec (FbDevWindow.step false) t.win
      (.setUsage t.win.usage :: List.replicate n (.dequeueBuffer 0)) = some v := hv
  have hcalls := exec_calls t (fun c hc => ?_) hrun
  · refine hsafe _ _ (fun a ha => ?_) hcalls b hb hheld
    obtain ⟨c, hc, rfl⟩ := List.mem_map.mp ha
    obtain rfl | hc := List.mem_cons.mp hc
    · exact not_false
    · rw [List.eq_of_mem_replicate hc]
      exact not_false
  · obtain rfl | hc := List.mem_cons.mp hc
    · exact ⟨rfl, rfl⟩
    · rw [List.eq_of_mem_replicate hc]
      exact ⟨rfl, rfl⟩

/-- The end of a `queueBuffer` out of turn hides what is shown from the window. -/
theorem not_safe_step (hi : Inv s) (hturn : ¬ InTurn s a) (h : step false s a = some t) :
    ¬ Safe t := by
  have hends : Ends a := by
    by_contra hne
    exact hturn (inTurn_of_not_ends s hne)
  obtain ⟨b, rfl⟩ : ∃ b, a = .call (.posted b) := by
    cases a with
    | post b rv => exact hends.elim
    | call c =>
      cases c with
      | posted b => exact ⟨b, rfl⟩
      | _ => exact hends.elim
  obtain ⟨_, hw, _, hshown⟩ := step_call_cases h
  obtain ⟨d, hd, hdb, hpost, hmem⟩ :
      ∃ d ∈ s.shown, d ≠ b ∧ d ∉ s.win.posting ∧ d ∈ s.win.bufs.list := by
    by_contra hno
    refine hturn fun d hd => ?_
    by_contra hne
    push Not at hne
    exact hno ⟨d, hd, hne.1, hne.2.1, hne.2.2⟩
  have hzero : s.win.busy d = 0 := by
    by_contra hbusy
    obtain hheld | hout := List.mem_append.mp (hi.listed.out d hmem hbusy)
    · exact hi.clear d hd hheld
    · exact hpost hout
  have hwin : t.win = posted s.win b := (perform_of_step hw).2
  refine not_safe_of_takable (hshown ▸ hd) ⟨listed_step hi.listed hw, ?_, ?_, ?_⟩ <;> rw [hwin]
  · exact hmem
  · exact (Function.update_of_ne hdb ..).trans hzero
  · exact fun heq => hdb (Option.some.inj heq).symm

/-- Whatever the threads do, no client can get the buffer that is shown before
another `queueBuffer` ends, precisely when they end in turn. -/
theorem safe_iff_inTurn {g : Garbage} {usage format framebuffers : Nat} {as : List Action}
    (hrun : (exec (step false) (start g usage format framebuffers) as).isSome) :
    Always (step false) Safe (start g usage format framebuffers) as ↔
      Guarded (step false) InTurn (start g usage format framebuffers) as :=
  always_iff_guarded (fun _ => Inv.safe) (fun _ _ _ hi => inv_step hi)
    (fun _ _ _ hi hturn => not_safe_step hi hturn)
    (inv_start g usage format framebuffers) hrun

def overtaken : List Action :=
  [.call (.dequeueBuffer 3), .call (.dequeueBuffer 3), .call (.queueBuffer 0),
    .call (.queueBuffer 1), .post 0 0, .post 1 0, .call (.posted 1), .call (.posted 0)]

theorem safe_iff_inTurn_overtaken :
    ¬ Always (step false) Safe (start ⟨7, none, fun _ => 5⟩ 0 1 3) overtaken :=
  fun h => absurd ((safe_iff_inTurn (by decide)).mp h) (by decide)

end FakeLibc.FbDevScreen

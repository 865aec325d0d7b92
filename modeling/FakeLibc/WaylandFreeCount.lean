import FakeLibc.WaylandClient
import FakeLibc.Lib.Counting

namespace FakeLibc.WaylandFreeCount

open FakeLibc.Lib.Run FakeLibc.Lib.Counting FakeLibc.WaylandWindow FakeLibc.WaylandClient

def isFree (w : Window) (b : Nat) : Bool := !(w.bufs b).busy

def free (w : Window) : Nat := w.bufList.countP (isFree w)

def Exact (c : Client) : Prop :=
  c.state.win.freeBufs = free c.state.win ∧ 0 ≤ c.state.win.freeBufs

def Unlocked (c : Client) : Prop := c.state.locked = false

/-- A buffer that is cancelled, released or taken by `finishSwap` is busy, and
one that a lower count gives up is not. -/
def Kept (s : State) : Action → Prop
  | .cancelBuffer b => (s.win.bufs b).busy = true
  | .release b => (s.win.bufs b).busy = true
  | .finishSwap stale =>
    ∀ b, (s.win.front stale).or s.win.lastBuffer = some b → b ∈ s.win.bufList →
      (s.win.bufs b).busy = true
  | .setBufferCount cnt =>
    0 ≤ cnt → cnt < s.win.bufList.length →
      ∀ b ∈ givenUp cnt.toNat 0 s.win.bufList, (s.win.bufs b).busy = false
  | _ => True

def surplus (w : Window) : Int := w.freeBufs - free w

def drift (s : State) : Action → Int
  | .cancelBuffer b => if isFree s.win b then 1 else 0
  | .release b => if isFree s.win b then 1 else 0
  | .finishSwap stale =>
    ((s.win.front stale).or s.win.lastBuffer).elim 0
      (fun b => if b ∈ s.win.bufList ∧ isFree s.win b then 1 else 0)
  | .setBufferCount cnt =>
    if 0 ≤ cnt ∧ cnt < s.win.bufList.length then
      -(givenUp cnt.toNat 0 s.win.bufList).countP (fun b => (s.win.bufs b).busy)
    else 0
  | _ => 0

section Surplus

variable {w : Window} {b : Nat}

theorem surplus_congr {v : Window} (hlist : v.bufList = w.bufList)
    (hfree : v.freeBufs = w.freeBufs) (hbusy : ∀ b ∈ w.bufList, isFree v b = isFree w b) :
    surplus v = surplus w := by
  have hcount : free v = free w := by
    rw [free, free, hlist]
    apply List.countP_congr
    intro b hb
    rw [hbusy b hb]
  rw [surplus, surplus, hcount, hfree]

theorem isFree_eq (w : Window) (b : Nat) : isFree w b = !(w.bufs b).busy := rfl

theorem surplus_freed {v : Window} (hl : w.bufList.Nodup) (hb : b ∈ w.bufList)
    (hlist : v.bufList = w.bufList) (hfree : v.freeBufs = w.freeBufs + 1)
    (hbusy : ∀ c, (v.bufs c).busy = if c = b then false else (w.bufs c).busy) :
    surplus v = surplus w + (if isFree w b then 1 else 0) := by
  have hcount := countP_change (p := isFree w) (q := isFree v) hl hb
    (fun c hc => by rw [isFree, isFree, hbusy, if_neg hc])
  have hv : isFree v b = true := by rw [isFree, hbusy, if_pos rfl, Bool.not_false]
  rw [hv, if_pos rfl] at hcount
  rw [surplus, surplus, free, free, hlist, hfree]
  split at hcount
  next hw => rw [if_pos hw]; omega
  next hw => rw [if_neg hw]; omega

theorem surplus_taken {v : Window} {n : Int} (hl : w.bufList.Nodup) (hb : b ∈ w.bufList)
    (hlist : v.bufList = w.bufList) (hfree : v.freeBufs = w.freeBufs + n)
    (hbusy : ∀ c, (v.bufs c).busy = if c = b then true else (w.bufs c).busy) :
    surplus v = surplus w + n + (if isFree w b then 1 else 0) := by
  have hcount := countP_change (p := isFree w) (q := isFree v) hl hb
    (fun c hc => by rw [isFree, isFree, hbusy, if_neg hc])
  have hv : ¬ isFree v b = true := by rw [isFree, hbusy, if_pos rfl]; exact Bool.false_ne_true
  rw [if_neg hv] at hcount
  rw [surplus, surplus, free, free, hlist, hfree]
  split at hcount
  next hw => rw [if_pos hw]; omega
  next hw => rw [if_neg hw]; omega

theorem surplus_cancel (hl : w.bufList.Nodup) (hb : b ∈ w.bufList) :
    surplus (w.cancel b) = surplus w + (if isFree w b then 1 else 0) :=
  surplus_freed hl hb rfl rfl (busy_cancel w b)

theorem surplus_releaseFronted (hl : w.bufList.Nodup) (hb : b ∈ w.bufList) :
    surplus (w.releaseFronted b) = surplus w + (if isFree w b then 1 else 0) :=
  surplus_freed hl hb rfl rfl (busy_releaseFronted w b)

theorem surplus_handOut (hl : w.bufList.Nodup) (hb : b ∈ w.bufList)
    (hfree : (w.bufs b).busy = false) : surplus (w.handOut b) = surplus w := by
  have h : surplus (w.handOut b) = surplus w + -1 + (if isFree w b then 1 else 0) :=
    surplus_taken hl hb rfl rfl (busy_handOut w b)
  rw [h, isFree_eq, hfree, Bool.not_false, if_pos rfl]
  omega

theorem surplus_takeFront (hl : w.bufList.Nodup) :
    surplus (w.takeFront b) = surplus w + (if b ∈ w.bufList ∧ isFree w b then 1 else 0) := by
  by_cases hb : b ∈ w.bufList
  · have h : surplus (w.takeFront b) = surplus w + 0 + (if isFree w b then 1 else 0) :=
      surplus_taken hl hb rfl (Int.add_zero _).symm (busy_takeFront w b)
    simpa only [hb, true_and, Int.add_zero] using h
  · rw [if_neg (fun h => hb h.1), Int.add_zero]
    refine surplus_congr rfl rfl (fun c hc => ?_)
    have hcb : c ≠ b := fun hcb => hb (hcb ▸ hc)
    rw [isFree, busy_takeFront, if_neg hcb, isFree]

theorem surplus_attach : surplus (w.attach b) = surplus w := by
  refine surplus_congr rfl rfl (fun c _ => ?_)
  rw [isFree, busy_attach, isFree]

theorem surplus_newBuffer (hold : ∀ b ∈ w.bufList, b < w.next) :
    surplus w.newBuffer = surplus w := by
  refine surplus_congr rfl rfl (fun c hc => ?_)
  rw [isFree, busy_newBuffer, if_neg (Nat.ne_of_lt (hold c hc)), isFree]

theorem surplus_listBuffer (format : Nat) (hfree : (w.bufs b).busy = false) :
    surplus (w.listBuffer b format) = surplus w := by
  have hcount : free (w.listBuffer b format) = free w + 1 := by
    have happ : free (w.listBuffer b format) = (w.bufList ++ [b]).countP (isFree w) := by
      apply List.countP_congr
      intro c _
      rw [isFree, busy_listBuffer, isFree]
    rw [happ, List.countP_append, List.countP_singleton, isFree_eq, hfree, Bool.not_false,
      if_pos rfl, free]
  have hfreeBufs : (w.listBuffer b format).freeBufs = w.freeBufs + 1 := rfl
  rw [surplus, surplus, hcount, hfreeBufs]
  omega

theorem surplus_remove (hb : b ∈ w.bufList) (hfree : (w.bufs b).busy = false) :
    surplus (w.remove b) = surplus w := by
  have hcount : free (w.remove b) + 1 = free w := by
    have hrest : free (w.remove b) = (w.bufList.erase b).countP (isFree w) := by
      apply List.countP_congr
      intro c _
      rw [isFree, busy_remove, isFree]
    have h := countP_erase_add (p := isFree w) hb
    rwa [isFree_eq, hfree, Bool.not_false, if_pos rfl, ← hrest] at h
  have hfreeBufs : (w.remove b).freeBufs = w.freeBufs - 1 := rfl
  rw [surplus, surplus, hfreeBufs]
  omega

theorem destroyBuffers_freeBufs (l : List Nat) (w : Window) :
    (l.foldl Window.destroyBuffer w).freeBufs = w.freeBufs - l.length := by
  induction l generalizing w with
  | nil => simp
  | cons b l ih =>
    have hb : (w.destroyBuffer b).freeBufs = w.freeBufs - 1 := rfl
    rw [List.foldl_cons, ih, hb, List.length_cons]
    omega

theorem surplus_shrink (cnt : Nat) :
    surplus (w.shrink cnt) =
      surplus w - (givenUp cnt 0 w.bufList).countP (fun b => (w.bufs b).busy) := by
  have hrest : free (w.shrink cnt) =
      (w.bufList.drop (givenUp cnt 0 w.bufList).length).countP (isFree w) := by
    apply List.countP_congr
    intro c _
    rw [isFree, busy_shrink, isFree]
  have hcount : free w = (givenUp cnt 0 w.bufList).countP (isFree w) + free (w.shrink cnt) := by
    rw [hrest, ← List.countP_append, givenUp_append_drop, free]
  have hfreeBufs : (w.shrink cnt).freeBufs = w.freeBufs - (givenUp cnt 0 w.bufList).length :=
    destroyBuffers_freeBufs _ w
  have hlength := List.length_eq_countP_add_countP (fun b => (w.bufs b).busy)
    (l := givenUp cnt 0 w.bufList)
  have hnot : (givenUp cnt 0 w.bufList).countP (fun b => ¬ (w.bufs b).busy = true) =
      (givenUp cnt 0 w.bufList).countP (isFree w) := by
    apply List.countP_congr
    intro c _
    simp [isFree]
  rw [surplus, surplus, hfreeBufs, hcount]
  omega

end Surplus

theorem surplus_move {s : State} {a : Action} {o : Outcome} (hs : Sound s)
    (ha : ∀ other, a ≠ .postBuffer other) (h : Move s a o) :
    surplus o.win = surplus s.win + drift s a := by
  have hw := hs.wellFormed
  cases h with
  | cancelBuffer b hr hb => exact surplus_cancel hw.nodup hb
  | finishSwap stale b hr hb hlt =>
    rw [drift, hb]
    exact surplus_takeFront hw.nodup
  | countIs cnt hr hcnt => rw [drift, if_neg (by omega), Int.add_zero]
  | countStays cnt hr hcnt => rw [drift, if_neg hcnt, Int.add_zero]
  | shrink cnt hr hcnt =>
    rw [drift, if_pos hcnt]
    exact surplus_shrink cnt.toNat
  | grow cnt n hr hcnt =>
    rw [drift, if_neg (by omega), Int.add_zero]
    exact surplus_newBuffer hw.old
  | postRegistered other b hr hb => exact absurd rfl (ha other)
  | postNew other hr hb => exact absurd rfl (ha other)
  | releasePosted b hd hwl hb => simp [hs.posted] at hb
  | releaseFronted b hd hwl hb hf hl => exact surplus_releaseFronted hw.nodup hl
  | dequeuePick error b hpc hf hp hfits =>
    exact (surplus_handOut hw.nodup (mem_of_pick hp) (not_busy_of_pick hp)).trans
      (Int.add_zero _).symm
  | dequeueReplace error b hpc hf hp hfits =>
    refine Eq.trans ?_ (Int.add_zero _).symm
    rw [surplus_newBuffer (wellFormed_remove hw b).old,
      surplus_remove (mem_of_pick hp) (not_busy_of_pick hp)]
  | swapAttaches b hpc he => exact surplus_attach.trans (Int.add_zero _).symm
  | posts b hpc => exact absurd hpc (hs.posting b)
  | addedForDequeue format b hpc =>
    have hbusy := hs.adding _ b hpc
    rw [hpc] at hw
    refine Eq.trans ?_ (Int.add_zero _).symm
    rw [surplus_handOut (wellFormed_listBuffer hw format).nodup, surplus_listBuffer format hbusy]
    · exact List.mem_append_right _ (List.mem_singleton_self b)
    · rw [busy_listBuffer, hbusy]
  | addedLast format b hpc =>
    exact (surplus_listBuffer format (hs.adding _ b hpc)).trans (Int.add_zero _).symm
  | addedMore format b n hpc =>
    have hbusy := hs.adding _ b hpc
    rw [hpc] at hw
    refine Eq.trans ?_ (Int.add_zero _).symm
    rw [surplus_newBuffer (wellFormed_listBuffer hw format).old, surplus_listBuffer format hbusy]
  | setter a hu width height format usage windowWidth windowHeight =>
    have hdrift : drift s a = 0 := by
      cases a <;> first | rfl | cases hu
    rw [hdrift, Int.add_zero]
    rfl
  | _ => exact (Int.add_zero _).symm

theorem drift_eq_zero_iff (s : State) (a : Action) : drift s a = 0 ↔ Kept s a := by
  cases a with
  | cancelBuffer b => simp [drift, Kept, isFree]
  | release b => simp [drift, Kept, isFree]
  | finishSwap stale =>
    simp only [drift, Kept]
    cases (s.win.front stale).or s.win.lastBuffer with
    | none => simp
    | some b => simp [isFree]
  | setBufferCount cnt =>
    simp only [drift, Kept]
    split
    next hcnt => simp [hcnt]
    next hcnt => simp only [true_iff]; exact fun hle hlt => absurd ⟨hle, hlt⟩ hcnt
  | _ => exact iff_of_true rfl trivial

theorem drift_nonneg (s : State) {a : Action} (ha : ∀ cnt, a ≠ .setBufferCount cnt) :
    0 ≤ drift s a := by
  cases a with
  | cancelBuffer b => simp only [drift]; split <;> omega
  | release b => simp only [drift]; split <;> omega
  | finishSwap stale =>
    simp only [drift]
    cases (s.win.front stale).or s.win.lastBuffer with
    | none => exact Int.le_refl 0
    | some b => simp only [Option.elim]; split <;> omega
  | setBufferCount cnt => exact absurd rfl (ha cnt)
  | _ => exact Int.le_refl 0

/-- A count that spoils the counter has given the mutex back. -/
theorem unlocked_of_drift {s : State} {cnt : Int} {o : Outcome}
    (h : Move s (.setBufferCount cnt) o) (hd : drift s (.setBufferCount cnt) ≠ 0) :
    (s.advance o).locked = false := by
  cases h with
  | countIs _ hr hcnt => exact absurd (by rw [drift, if_neg (by omega)]) hd
  | countStays _ hr hcnt => exact absurd (by rw [drift, if_neg hcnt]) hd
  | grow _ n hr hcnt => exact absurd (by rw [drift, if_neg (by omega)]) hd
  | shrink _ hr hcnt => rw [State.advance, not_locked_of_ready hr]; rfl
  | setter _ hu => cases hu

theorem ready_of_setBufferCount {s : State} {cnt : Int} {o : Outcome}
    (h : Move s (.setBufferCount cnt) o) : s.ready = true := by
  cases h with
  | countIs _ hr hcnt => exact hr
  | countStays _ hr hcnt => exact hr
  | grow _ n hr hcnt => exact hr
  | shrink _ hr hcnt => exact hr
  | setter _ hu => cases hu

structure Inv (c : Client) : Prop where
  sound : Sound c.state
  surplus : surplus c.state.win = 0

structure Broken (c : Client) : Prop where
  sound : Sound c.state
  surplus : 0 < surplus c.state.win ∨ Unlocked c ∧ surplus c.state.win ≠ 0

theorem step_surplus {c d : Client} {a : Action} (hs : Sound c.state)
    (h : c.step Client.returns a = some d) :
    Sound d.state ∧ surplus d.state.win = surplus c.state.win + drift c.state a := by
  obtain ⟨hret, o, hmove, rfl⟩ := Client.step_cases h
  have ha := not_post_of_returns hret
  exact ⟨sound_move hs ha hmove, surplus_move hs ha hmove⟩

theorem exact_of_inv {c : Client} (hi : Inv c) : Exact c := by
  have h := hi.surplus
  rw [WaylandFreeCount.surplus] at h
  constructor <;> omega

theorem inv_step {c d : Client} {a : Action} (hi : Inv c) (hk : Kept c.state a)
    (h : c.step Client.returns a = some d) : Inv d := by
  obtain ⟨hs, hsur⟩ := step_surplus hi.sound h
  refine ⟨hs, ?_⟩
  rw [hsur, hi.surplus, (drift_eq_zero_iff c.state a).mpr hk, Int.add_zero]

theorem broken_of_not_kept {c d : Client} {a : Action} (hi : Inv c) (hk : ¬ Kept c.state a)
    (h : c.step Client.returns a = some d) : Broken d := by
  obtain ⟨hs, hsur⟩ := step_surplus hi.sound h
  have hd : drift c.state a ≠ 0 := fun hd => hk ((drift_eq_zero_iff c.state a).mp hd)
  rw [hi.surplus, Int.zero_add] at hsur
  refine ⟨hs, ?_⟩
  by_cases ha : ∃ cnt, a = .setBufferCount cnt
  · obtain ⟨cnt, rfl⟩ := ha
    obtain ⟨_, o, hmove, rfl⟩ := Client.step_cases h
    exact .inr ⟨unlocked_of_drift hmove hd, hsur ▸ hd⟩
  · have hle := drift_nonneg c.state (fun cnt hcnt => ha ⟨cnt, hcnt⟩)
    exact .inl (by omega)

theorem broken_step {c d : Client} {a : Action} (hb : Broken c) (hl : ¬ Unlocked c)
    (h : c.step Client.returns a = some d) : Broken d := by
  obtain ⟨hs, hsur⟩ := step_surplus hb.sound h
  have hpos := hb.surplus.resolve_right (fun hu => hl hu.1)
  obtain ⟨_, o, hmove, _⟩ := Client.step_cases h
  have hle : 0 ≤ drift c.state a := by
    apply drift_nonneg
    rintro cnt rfl
    exact hl (not_locked_of_ready (ready_of_setBufferCount hmove))
  exact ⟨hs, .inl (by omega)⟩

theorem not_exact_of_broken {c : Client} (hb : Broken c) : ¬ Exact c := by
  intro he
  have heq : surplus c.state.win = 0 := by
    rw [surplus, he.1]
    omega
  obtain h | h := hb.surplus
  · omega
  · exact h.2 heq

/-- Whatever such a client and the compositor do with a new window, the counter
is exact whenever the mutex is free precisely when all steps that lead to a
free mutex meet the condition. -/
theorem exact_iff_kept (width height : Nat) (as : List Action) :
    Always (Client.step Client.returns) (fun c => Unlocked c → Exact c)
        (Client.start width height) as ↔
      ∀ pre c, pre <+: as →
        exec (Client.step Client.returns) (Client.start width height) pre = some c → Unlocked c →
        Guarded (Client.step Client.returns) (fun c => Kept c.state) (Client.start width height)
          pre :=
  always_settled_iff_guarded (fun _ => exact_of_inv) (fun _ _ _ => inv_step)
    (fun _ _ _ => broken_of_not_kept) (fun _ _ _ => broken_step)
    (fun _ hb _ => not_exact_of_broken hb) ⟨sound_start width height, rfl⟩

/-- The client cancels its first buffer and shows the second one. -/
theorem not_exact_cancelBuffer :
    ¬ ∀ as, (exec (Client.step Client.returns) (Client.start 4 4) as).isSome →
      Always (Client.step Client.returns) (fun c => Unlocked c → Exact c)
        (Client.start 4 4) as := by
  intro h
  have hc := h [.setBufferCount 3, .roundtripDone 1, .roundtripDone 1, .roundtripDone 1,
    .dequeueBuffer, .readReturns false, .dequeueBuffer, .readReturns false, .cancelBuffer 0,
    .queueBuffer 1, .finishSwap none, .readReturns false] (by decide) _ _ List.prefix_rfl rfl rfl
  exact absurd hc.1 (by decide)

end FakeLibc.WaylandFreeCount

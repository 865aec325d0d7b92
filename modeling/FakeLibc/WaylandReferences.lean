import FakeLibc.WaylandStep

namespace FakeLibc.WaylandReferences

open FakeLibc.Lib.Run FakeLibc.WaylandWindow

/-- The window names the buffer, apart from its list. -/
def Refers (w : Window) (b : Nat) : Prop :=
  b ∈ w.fronted ∨ b ∈ w.queue ∨ w.lastBuffer = some b

/-- No buffer that is named was destroyed. -/
def Contained (s : State) : Prop := ∀ b, Refers s.win b → b ∈ s.win.bufList

/-- A destroyed buffer is not named any more. -/
def Kept (s : State) : Action → Prop
  | .setBufferCount cnt =>
    0 ≤ cnt → cnt < s.win.bufList.length →
      ∀ b ∈ givenUp cnt.toNat 0 s.win.bufList, ¬ Refers s.win b
  | .readReturns _ =>
    s.pc = .dequeueRead → s.win.freeBufs ≠ 0 →
      ∀ b, s.win.pick = some b → ¬ s.win.Fits b → ¬ Refers s.win b
  | _ => True

structure Inv (s : State) : Prop where
  wellFormed : WellFormed s.win s.pc
  contained : Contained s
  swaps : ∀ b, s.pc.swaps = some b → s.win.lastBuffer = some b

theorem swap_source {w : Window} {stale : Option Nat} {b : Nat}
    (h : (w.front stale).or w.lastBuffer = some b) (hnull : w.queue = [] → stale = none) :
    Refers w b := by
  cases hq : w.queue with
  | nil =>
    rw [Window.front, hq, hnull hq] at h
    exact .inr (.inr h)
  | cons c l =>
    have hc : c = b := by simpa [Window.front, hq] using h
    exact .inr (.inl (hq ▸ hc ▸ List.mem_cons_self))

theorem contained_remove {w : Window} {pc : Pc} (hw : WellFormed w pc)
    (hc : ∀ c, Refers w c → c ∈ w.bufList) {b : Nat} (hb : ¬ Refers w b) (c : Nat)
    (hr : Refers (w.remove b) c) : c ∈ (w.remove b).bufList := by
  have hne : c ≠ b := fun h => hb (h ▸ hr)
  exact (hw.nodup.mem_erase_iff).mpr ⟨hne, hc c hr⟩

theorem refers_shrink {w : Window} (cnt b : Nat) : Refers (w.shrink cnt) b ↔ Refers w b :=
  iff_of_eq (destroyBuffers_keep (fun v => Refers v b) (fun _ _ => rfl) _ w)

theorem contained_shrink {w : Window} {pc : Pc} (hw : WellFormed w pc)
    (hc : ∀ c, Refers w c → c ∈ w.bufList) {cnt : Nat}
    (hb : ∀ b ∈ givenUp cnt 0 w.bufList, ¬ Refers w b) (c : Nat)
    (hr : Refers (w.shrink cnt) c) : c ∈ (w.shrink cnt).bufList := by
  have hr := (refers_shrink cnt c).mp hr
  exact (mem_shrink hw.nodup cnt c).mpr ⟨hc c hr, fun hg => hb c hg hr⟩

theorem refers_handOut {w : Window} {b c : Nat} (h : Refers (w.handOut b) c) :
    Refers w c ∨ c = b := by
  obtain h | h | h := h
  · exact .inl (.inl h)
  · obtain h | h := List.mem_append.mp h
    · exact .inl (.inr (.inl h))
    · exact .inr (List.mem_singleton.mp h)
  · exact .inl (.inr (.inr h))

theorem refers_takeFront {w : Window} {b c : Nat} (h : Refers (w.takeFront b) c) :
    Refers w c ∨ c = b := by
  obtain h | h | h := h
  · exact .inl (.inl h)
  · exact .inl (.inr (.inl (List.mem_of_mem_tail h)))
  · exact .inr (Option.some.inj h).symm

theorem refers_attach {w : Window} {b c : Nat} (h : Refers (w.attach b) c) :
    Refers w c ∨ c = b := by
  obtain h | h | h := h
  · obtain h | h := List.mem_append.mp h
    · exact .inl (.inl h)
    · exact .inr (List.mem_singleton.mp h)
  · exact .inl (.inr (.inl h))
  · exact .inl (.inr (.inr h))

theorem refers_releaseFronted {w : Window} {b c : Nat} (h : Refers (w.releaseFronted b) c) :
    Refers w c := by
  obtain h | h | h := h
  · exact .inl (List.mem_of_mem_erase h)
  · exact .inr (.inl h)
  · exact .inr (.inr h)

theorem contained_move {s : State} {a : Action} {o : Outcome} (hi : Inv s) (hk : Kept s a)
    (h : Move s a o) (c : Nat) (hr : Refers o.win c) : c ∈ o.win.bufList := by
  have hc := hi.contained
  cases h with
  | finishSwap stale b hready hb hlt hnull =>
    obtain hr | rfl := refers_takeFront hr
    · exact hc c hr
    · exact hc c (swap_source hb hnull)
  | shrink cnt hready hcnt => exact contained_shrink hi.wellFormed hc (hk hcnt.1 hcnt.2) c hr
  | releaseFronted b hd hw hb hf hl => exact hc c (refers_releaseFronted hr)
  | dequeuePick error b hpc hf hp hfits =>
    obtain hr | rfl := refers_handOut hr
    · exact hc c hr
    · have hmem : c ∈ s.win.bufList := mem_of_pick hp
      exact hmem
  | dequeueReplace error b hpc hf hp hfits =>
    exact contained_remove hi.wellFormed hc (hk hpc hf b hp hfits) c hr
  | swapAttaches b hpc he =>
    obtain hr | rfl := refers_attach hr
    · exact hc c hr
    · exact hc c (.inr (.inr (hi.swaps c hpc)))
  | addedForDequeue format b hpc =>
    obtain hr | rfl := refers_handOut hr
    · exact List.mem_append_left _ (hc c hr)
    · exact List.mem_append_right _ (List.mem_singleton_self c)
  | addedLast format b hpc => exact List.mem_append_left _ (hc c hr)
  | addedMore format b n hpc => exact List.mem_append_left _ (hc c hr)
  | _ => exact hc c hr

theorem swaps_move {s : State} {a : Action} {o : Outcome} (hi : Inv s) (h : Move s a o) (b : Nat)
    (hb : o.pc.swaps = some b) : o.win.lastBuffer = some b := by
  cases h with
  | finishSwap stale c hready hc hlt => exact hb
  | releasePosted c hd hw hc => exact hi.swaps b hb
  | releaseFronted c hd hw hc hf hl => exact hi.swaps b hb
  | frame hd => exact hi.swaps b hb
  | swapWaits error c hpc he => exact hi.swaps b (hpc.trans hb)
  | setter a ha width height format usage windowWidth windowHeight => exact hi.swaps b hb
  | _ => cases hb

theorem inv_step {s t : State} {a : Action} (hi : Inv s) (hk : Kept s a)
    (h : step s a = some t) : Inv t := by
  have hw := wellFormed_step hi.wellFormed h
  obtain ⟨o, hmove, rfl⟩ := step_cases h
  exact ⟨hw, contained_move hi hk hmove, swaps_move hi hmove⟩

theorem kept_of_pc {s : State} (hpc : s.pc ≠ .dequeueRead) (error : Bool) :
    Kept s (.readReturns error) := fun h => absurd h hpc

theorem not_contained_of_not_kept {s t : State} {a : Action} (hi : Inv s) (hk : ¬ Kept s a)
    (h : step s a = some t) : ¬ Contained t := by
  obtain ⟨o, hmove, rfl⟩ := step_cases h
  intro hc
  apply hk
  cases hmove with
  | countIs cnt hready hcnt => exact fun _ hlt => absurd hcnt (Int.ne_of_lt hlt)
  | countStays cnt hready hcnt => exact fun hle hlt => absurd ⟨hle, hlt⟩ hcnt
  | shrink cnt hready hcnt =>
    intro _ _ b hb hr
    exact ((mem_shrink hi.wellFormed.nodup _ b).mp (hc b ((refers_shrink _ b).mpr hr))).2 hb
  | grow cnt n hready hcnt => exact fun _ hlt => by omega
  | dequeueBlocks error hpc hf => exact fun _ hne => absurd hf hne
  | dequeueNone error hpc hf hp => exact fun _ _ b hpick => by simp [hp] at hpick
  | dequeuePick error b hpc hf hp hfits =>
    intro _ _ c hpick hnot
    obtain rfl : b = c := Option.some.inj (hp.symm.trans hpick)
    exact absurd hfits hnot
  | dequeueReplace error b hpc hf hp hfits =>
    intro _ _ c hpick _ hr
    obtain rfl : b = c := Option.some.inj (hp.symm.trans hpick)
    exact hi.wellFormed.nodup.not_mem_erase (hc b hr)
  | swapWaits error b hpc he => exact kept_of_pc (fun h => by simp [h, Pc.swaps] at hpc) error
  | swapFails b hpc he => exact kept_of_pc (fun h => by simp [h, Pc.swaps] at hpc) true
  | swapAttaches b hpc he => exact kept_of_pc (fun h => by simp [h, Pc.swaps] at hpc) false
  | postFails b hpc => exact kept_of_pc (fun h => by simp [h] at hpc) true
  | posts b hpc => exact kept_of_pc (fun h => by simp [h] at hpc) false
  | setter a ha width height format usage windowWidth windowHeight =>
    cases a <;> first | exact trivial | cases ha
  | _ => exact trivial

/-- From a new window, whatever the client and the compositor do, no destroyed
buffer is named precisely when every step meets the condition. -/
theorem contained_iff_kept {width height : Nat} {as : List Action}
    (hrun : (exec step (start width height) as).isSome) :
    Always step Contained (start width height) as ↔
      Guarded step Kept (start width height) as := by
  refine always_iff_guarded (fun _ hi => hi.contained) (fun _ _ _ => inv_step)
    (fun _ _ _ => not_contained_of_not_kept) ⟨wellFormed_start width height, ?_, ?_⟩ hrun
  · intro b hb
    simp [Refers, start] at hb
  · intro b hb
    cases hb

/-- A frame is shown and its buffer is released. -/
theorem contained_iff_kept_frame :
    Always step Contained (start 4 4)
        [.setBufferCount 3, .roundtripDone 1, .roundtripDone 1, .roundtripDone 1, .dequeueBuffer,
          .readReturns false, .queueBuffer 0, .finishSwap none, .readReturns false,
          .dequeueBuffer, .release 0, .readReturns false] ↔
      Guarded step Kept (start 4 4)
        [.setBufferCount 3, .roundtripDone 1, .roundtripDone 1, .roundtripDone 1, .dequeueBuffer,
          .readReturns false, .queueBuffer 0, .finishSwap none, .readReturns false,
          .dequeueBuffer, .release 0, .readReturns false] :=
  contained_iff_kept (by decide)

/-- The client lowers the count while it draws into the first buffer of the list. -/
theorem not_contained_setBufferCount :
    ¬ ∀ as, (exec step (start 4 4) as).isSome → Always step Contained (start 4 4) as := by
  intro h
  have hc := h [.setBufferCount 3, .roundtripDone 1, .roundtripDone 1, .roundtripDone 1,
    .dequeueBuffer, .readReturns false, .setBufferCount 2] (by decide) _ _ List.prefix_rfl rfl
  exact absurd (hc 0 (.inr (.inl (by decide)))) (by decide)

end FakeLibc.WaylandReferences

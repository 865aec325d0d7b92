import FakeLibc.WaylandStep

namespace FakeLibc.WaylandLock

open FakeLibc.Lib.Run FakeLibc.WaylandWindow

/-- The thread held the mutex at each access and gave it back, all along. -/
def Balanced (s : State) : Prop := s.faults = []

/-- No buffer count is set, no buffer that was posted is released, and no
`finishSwap` ends on an error. -/
def Kept (s : State) : Action → Prop
  | .setBufferCount _ => False
  | .release b => b ∉ s.win.posted
  | .readReturns error => s.swapEnds error = true → error = false
  | _ => True

instance (s : State) : (a : Action) → Decidable (Kept s a)
  | .setBufferCount _ => .isFalse id
  | .release b => inferInstanceAs (Decidable (b ∉ s.win.posted))
  | .readReturns error => inferInstanceAs (Decidable (s.swapEnds error = true → error = false))
  | .dequeueBuffer => .isTrue trivial
  | .queueBuffer _ => .isTrue trivial
  | .cancelBuffer _ => .isTrue trivial
  | .finishSwap _ => .isTrue trivial
  | .setSwapInterval _ => .isTrue trivial
  | .prepareSwap => .isTrue trivial
  | .postBuffer _ => .isTrue trivial
  | .frame => .isTrue trivial
  | .roundtripDone _ => .isTrue trivial
  | .setBuffersFormat _ => .isTrue trivial
  | .setUsage _ => .isTrue trivial
  | .setBuffersDimensions _ _ => .isTrue trivial
  | .resize _ _ => .isTrue trivial

structure Inv (s : State) : Prop where
  balanced : Balanced s
  locked : s.locked = s.pc.dispatches

theorem replay_of_kept {s : State} {a : Action} {o : Outcome} (hi : Inv s) (hc : Kept s a)
    (h : Move s a o) : replay s.locked o.trace = (o.pc.dispatches, []) := by
  cases h with
  | dequeueBuffer hr => rw [not_locked_of_ready hr]; rfl
  | queueBuffer b hr => rw [not_locked_of_ready hr]; rfl
  | cancelBuffer b hr hb => rw [not_locked_of_ready hr]; rfl
  | finishSwap stale b hr hb hlt => rw [not_locked_of_ready hr]; rfl
  | countIs cnt hr hcnt => exact hc.elim
  | countStays cnt hr hcnt => exact hc.elim
  | shrink cnt hr hcnt => exact hc.elim
  | grow cnt n hr hcnt => exact hc.elim
  | setSwapInterval interval hr => rw [not_locked_of_ready hr]; rfl
  | prepareSwap hr => rw [not_locked_of_ready hr]; rfl
  | postRegistered other b hr hb => rw [not_locked_of_ready hr]; rfl
  | postNew other hr hb => rw [not_locked_of_ready hr]; rfl
  | releasePosted b hd hw hb => exact absurd hb hc
  | releaseFronted b hd hw hb hf hl => simp [hi.locked, hd, replay]
  | frame hd => rw [hi.locked]; rfl
  | dequeueBlocks error hpc hf => rw [hi.locked, hpc]; rfl
  | dequeueNone error hpc hf hp => rw [hi.locked, hpc]; rfl
  | dequeuePick error b hpc hf hp hfits => rw [hi.locked, hpc]; rfl
  | dequeueReplace error b hpc hf hp hfits => rw [hi.locked, hpc]; rfl
  | swapWaits error b hpc he => rw [hi.locked, dispatches_of_swaps hpc]; rfl
  | swapFails b hpc he => cases hc he
  | swapAttaches b hpc he => rw [hi.locked, dispatches_of_swaps hpc]; rfl
  | postFails b hpc => rw [hi.locked, hpc]; rfl
  | posts b hpc => rw [hi.locked, hpc]; rfl
  | addedForDequeue format b hpc => rw [hi.locked, hpc]; rfl
  | addedLast format b hpc => rw [hi.locked, hpc]; rfl
  | addedMore format b n hpc => rw [hi.locked, hpc]; rfl
  | setter a ha width height format usage windowWidth windowHeight => rw [hi.locked]; rfl

theorem inv_step {s t : State} {a : Action} (hi : Inv s) (hc : Kept s a)
    (h : step s a = some t) : Inv t := by
  obtain ⟨o, hmove, rfl⟩ := step_cases h
  constructor
  · simpa [Balanced, State.advance, replay_of_kept hi hc hmove] using hi.balanced
  · simp [State.advance, replay_of_kept hi hc hmove]

theorem kept_of_not_swaps {s : State} (hpc : s.pc.swaps = none) (error : Bool) :
    Kept s (.readReturns error) := by
  intro he
  rw [swapEnds_of_not_swaps hpc] at he
  cases he

theorem kept_of_unlocked (s : State) {a : Action} (ha : a.unlocked = true) : Kept s a := by
  cases a <;> first | exact trivial | cases ha

theorem faults_of_not_kept {s : State} {a : Action} {o : Outcome} (hi : Inv s)
    (hc : ¬ Kept s a) (h : Move s a o) : (replay s.locked o.trace).2 ≠ [] := by
  cases h with
  | countIs cnt hr hcnt => rw [not_locked_of_ready hr]; exact List.cons_ne_nil _ _
  | countStays cnt hr hcnt => rw [not_locked_of_ready hr]; exact List.cons_ne_nil _ _
  | shrink cnt hr hcnt => rw [not_locked_of_ready hr]; exact List.cons_ne_nil _ _
  | grow cnt n hr hcnt => rw [not_locked_of_ready hr]; exact List.cons_ne_nil _ _
  | releasePosted b hd hw hb => simp [hi.locked, hd, replay]
  | swapFails b hpc he => simp [hi.locked, dispatches_of_swaps hpc, replay]
  | releaseFronted b hd hw hb hf hl => exact absurd hb hc
  | swapAttaches b hpc he => exact absurd (fun _ => rfl) hc
  | swapWaits error b hpc he => exact absurd (fun h => absurd (he ▸ h) Bool.false_ne_true) hc
  | dequeueBlocks error hpc hf => exact absurd (kept_of_not_swaps (by rw [hpc]; rfl) error) hc
  | dequeueNone error hpc hf hp => exact absurd (kept_of_not_swaps (by rw [hpc]; rfl) error) hc
  | dequeuePick error b hpc hf hp hfits =>
    exact absurd (kept_of_not_swaps (by rw [hpc]; rfl) error) hc
  | dequeueReplace error b hpc hf hp hfits =>
    exact absurd (kept_of_not_swaps (by rw [hpc]; rfl) error) hc
  | postFails b hpc => exact absurd (kept_of_not_swaps (by rw [hpc]; rfl) true) hc
  | posts b hpc => exact absurd (kept_of_not_swaps (by rw [hpc]; rfl) false) hc
  | setter a ha width height format usage windowWidth windowHeight =>
    exact absurd (kept_of_unlocked s ha) hc
  | _ => exact absurd trivial hc

theorem not_balanced_of_not_kept {s t : State} {a : Action} (hi : Inv s) (hc : ¬ Kept s a)
    (h : step s a = some t) : ¬ Balanced t := by
  obtain ⟨o, hmove, rfl⟩ := step_cases h
  intro hb
  exact faults_of_not_kept hi hc hmove (List.append_eq_nil_iff.mp hb).1

def idle (w : Window) : State := ⟨w, .idle, false, []⟩

/-- Whatever the window holds and whatever is delivered, the mutex is balanced
precisely when every step meets the condition. -/
theorem balanced_iff_kept {w : Window} {as : List Action}
    (hrun : (exec step (idle w) as).isSome) :
    Always step Balanced (idle w) as ↔ Guarded step Kept (idle w) as :=
  always_iff_guarded (fun _ hi => hi.balanced) (fun _ _ _ => inv_step)
    (fun _ _ _ => not_balanced_of_not_kept) ⟨rfl, rfl⟩ hrun

def oneBuffer : Window :=
  ((WaylandWindow.start 4 4).win.newBuffer.listBuffer 0 1)

/-- A frame is drawn and shown, and a foreign buffer posted. -/
theorem balanced_iff_kept_frame :
    Always step Balanced (idle oneBuffer)
        [.dequeueBuffer, .readReturns false, .queueBuffer 0, .finishSwap none, .readReturns false,
          .postBuffer 5, .release 0, .frame, .readReturns true, .dequeueBuffer] ↔
      Guarded step Kept (idle oneBuffer)
        [.dequeueBuffer, .readReturns false, .queueBuffer 0, .finishSwap none, .readReturns false,
          .postBuffer 5, .release 0, .frame, .readReturns true, .dequeueBuffer] :=
  balanced_iff_kept (by decide)

example : Guarded step Kept (idle oneBuffer)
    [.dequeueBuffer, .readReturns false, .cancelBuffer 0, .postBuffer 5, .readReturns true,
      .finishSwap none, .readReturns false, .dequeueBuffer, .frame, .release 0,
      .readReturns false] := by decide

/-- The compositor lets go of a posted buffer while the thread waits for a
buffer of its own. -/
theorem not_balanced_release_posted :
    ¬ ∀ as, (exec step (idle oneBuffer) as).isSome → Always step Balanced (idle oneBuffer) as := by
  intro h
  have hb := h [.postBuffer 5, .readReturns false, .dequeueBuffer, .release 1] (by decide)
    _ _ List.prefix_rfl rfl
  exact absurd (show _ = [] from hb) (by decide)

end FakeLibc.WaylandLock

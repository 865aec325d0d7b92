import FakeLibc.WaylandClient

namespace FakeLibc.WaylandPosting

open FakeLibc.Lib.Run FakeLibc.WaylandWindow FakeLibc.WaylandClient

/-- The client queues what it holds in the order in which it got it, and calls
`finishSwap` once for each buffer that it queued. -/
def inOrder (c : Client) : Action → Bool
  | .queueBuffer b => decide (b ∈ c.held) && (c.queued ++ [b]).isSublist c.dequeued
  | .finishSwap _ => decide (c.swaps.length < c.queued.length)
  | a => c.returns a

def Shows (queued : List Nat) (swaps : List (Option Nat)) : Prop :=
  ∀ (k : Nat) (r : Option Nat), swaps[k]? = some r → ∃ b, r = some b ∧ queued[k]? = some b

/-- Every `finishSwap` attached the buffer of the `queueBuffer` of its number. -/
def Posted (c : Client) : Prop := Shows c.queued c.swaps

/-- `finishSwap` ends without an error, and among all buffers that were handed
out the one of its number is the one that was queued under this number. -/
def Kept (c : Client) : Action → Prop
  | .readReturns error =>
    c.state.swapEnds error = true →
      error = false ∧ c.dequeued[c.swaps.length]? = c.queued[c.swaps.length]?
  | _ => True

structure Lined (taken : Option Nat) (queue held dequeued queued : List Nat)
    (swaps : List (Option Nat)) : Prop where
  shows : Shows queued swaps
  queue : taken.toList ++ queue = dequeued.drop swaps.length
  count : held.length + queued.length ≤ dequeued.length

section Lined

variable {taken : Option Nat} {queue held dequeued queued : List Nat} {swaps : List (Option Nat)}

theorem length_le_of_shows (h : Shows queued swaps) : swaps.length ≤ queued.length := by
  by_contra hlt
  obtain ⟨b, _, hb⟩ := h queued.length _ (List.getElem?_eq_getElem (by omega))
  simp at hb

theorem shows_append (r : Option Nat) :
    Shows queued (swaps ++ [r]) ↔
      Shows queued swaps ∧ ∃ b, r = some b ∧ queued[swaps.length]? = some b := by
  constructor
  · intro h
    refine ⟨fun k t ht => ?_, h swaps.length r List.getElem?_concat_length⟩
    obtain ⟨hk, _⟩ := List.getElem?_eq_some_iff.mp ht
    exact h k t (by rw [List.getElem?_append_left hk, ht])
  · rintro ⟨hs, hr⟩ k t ht
    obtain hk | rfl | hk := Nat.lt_trichotomy k swaps.length
    · exact hs k t (by rwa [List.getElem?_append_left hk] at ht)
    · rw [List.getElem?_concat_length, Option.some.injEq] at ht
      exact ht ▸ hr
    · have hlen : (swaps ++ [r]).length ≤ k := by
        rw [List.length_append, List.length_singleton]
        exact hk
      rw [List.getElem?_eq_none hlen] at ht
      cases ht

theorem shows_queued (h : Shows queued swaps) (b : Nat) : Shows (queued ++ [b]) swaps := by
  intro k r hr
  obtain ⟨a, rfl, ha⟩ := h k r hr
  obtain ⟨hk, _⟩ := List.getElem?_eq_some_iff.mp ha
  exact ⟨a, rfl, by rw [List.getElem?_append_left hk, ha]⟩

theorem lined_return {held' : List Nat} (h : Lined taken queue held dequeued queued swaps)
    (hle : held'.length ≤ held.length) : Lined taken queue held' dequeued queued swaps :=
  ⟨h.shows, h.queue, Nat.le_trans (Nat.add_le_add_right hle _) h.count⟩

theorem lined_handOut (h : Lined taken queue held dequeued queued swaps) (b : Nat) :
    Lined taken (queue ++ [b]) (held ++ [b]) (dequeued ++ [b]) queued swaps := by
  have hle := length_le_of_shows h.shows
  have hcount := h.count
  refine ⟨h.shows, ?_, ?_⟩
  · rw [List.drop_append_of_le_length (by omega), ← h.queue, List.append_assoc]
  · simp only [List.length_append, List.length_singleton]
    omega

theorem lined_queue (h : Lined taken queue held dequeued queued swaps) {b : Nat}
    (hb : b ∈ held) : Lined taken queue (held.erase b) dequeued (queued ++ [b]) swaps := by
  have hcount := h.count
  have hpos := List.length_pos_of_mem hb
  refine ⟨shows_queued h.shows b, h.queue, ?_⟩
  rw [List.length_erase_of_mem hb, List.length_append, List.length_singleton]
  omega

theorem exists_cons_of_lined (h : Lined none queue held dequeued queued swaps)
    (hlt : swaps.length < queued.length) : ∃ b l, queue = b :: l := by
  apply List.exists_cons_of_ne_nil
  rintro rfl
  have hlen := congrArg List.length h.queue
  have hcount := h.count
  rw [Option.toList_none, List.append_nil, List.length_nil, List.length_drop] at hlen
  omega

theorem lined_take {b : Nat} (h : Lined none (b :: queue) held dequeued queued swaps) :
    Lined (some b) queue held dequeued queued swaps :=
  ⟨h.shows, h.queue, h.count⟩

theorem dequeued_of_lined {b : Nat} (h : Lined (some b) queue held dequeued queued swaps) :
    dequeued[swaps.length]? = some b := by
  rw [← List.head?_drop, ← h.queue]
  rfl

theorem lined_attach {b : Nat} (h : Lined (some b) queue held dequeued queued swaps)
    (hk : dequeued[swaps.length]? = queued[swaps.length]?) :
    Lined none queue held dequeued queued (swaps ++ [some b]) := by
  refine ⟨(shows_append (some b)).mpr ⟨h.shows, b, rfl, hk ▸ dequeued_of_lined h⟩, ?_, h.count⟩
  rw [List.length_append, List.length_singleton, ← List.tail_drop, ← h.queue]
  rfl

end Lined

def Inv (c : Client) : Prop :=
  Lined c.state.pc.swaps c.state.win.queue c.held c.dequeued c.queued c.swaps

theorem shrink_queue (w : Window) (cnt : Nat) : (w.shrink cnt).queue = w.queue :=
  destroyBuffers_keep Window.queue (fun _ _ => rfl) _ w

theorem inv_move {c : Client} {a : Action} {o : Outcome} (hi : Inv c) (ha : inOrder c a = true)
    (hk : Kept c a) (h : Move c.state a o) : Inv (c.after a o) := by
  have hnone : c.state.pc.swaps = none →
      Lined none c.state.win.queue c.held c.dequeued c.queued c.swaps := fun h => h ▸ hi
  have hready : c.state.ready = true →
      Lined none c.state.win.queue c.held c.dequeued c.queued c.swaps :=
    fun h => hnone (swaps_of_ready h)
  cases h with
  | dequeueBuffer hr => exact hready hr
  | queueBuffer b hr =>
    have hb : b ∈ c.held := of_decide_eq_true (Bool.and_eq_true_iff.mp ha).1
    exact lined_queue (hready hr) hb
  | cancelBuffer b hr hb => exact lined_return (hready hr) List.length_erase_le
  | finishSwap stale b hr hb hlt =>
    obtain ⟨d, l, hq⟩ := exists_cons_of_lined (hready hr) (of_decide_eq_true ha)
    obtain rfl : d = b := by simpa [Window.front, hq] using hb
    have htail : (c.state.win.takeFront d).queue = l := congrArg List.tail hq
    have hline : Lined (some d) (c.state.win.takeFront d).queue c.held c.dequeued c.queued
        c.swaps := by
      rw [htail]
      exact lined_take (hq ▸ hready hr)
    exact hline
  | countIs cnt hr hcnt => exact hready hr
  | countStays cnt hr hcnt => exact hready hr
  | shrink cnt hr hcnt =>
    have hline : Lined none (c.state.win.shrink cnt.toNat).queue c.held c.dequeued c.queued
        c.swaps := by
      rw [shrink_queue]
      exact hready hr
    exact hline
  | grow cnt n hr hcnt => exact hready hr
  | setSwapInterval interval hr => exact hready hr
  | prepareSwap hr => exact hready hr
  | postRegistered other b hr hb => exact hready hr
  | postNew other hr hb => exact hready hr
  | dequeueBlocks error hpc hf => exact hnone (hpc ▸ rfl)
  | dequeueNone error hpc hf hp => exact hnone (hpc ▸ rfl)
  | dequeuePick error b hpc hf hp hfits => exact lined_handOut (hnone (hpc ▸ rfl)) b
  | dequeueReplace error b hpc hf hp hfits => exact hnone (hpc ▸ rfl)
  | swapWaits error b hpc he =>
    have hline : Lined (some b) c.state.win.queue c.held c.dequeued c.queued c.swaps := hpc ▸ hi
    exact hline
  | swapFails b hpc he => cases (hk he).1
  | swapAttaches b hpc he =>
    have hline : Lined (some b) c.state.win.queue c.held c.dequeued c.queued c.swaps := hpc ▸ hi
    exact lined_attach hline (hk he).2
  | postFails b hpc => exact hnone (hpc ▸ rfl)
  | posts b hpc => exact hnone (hpc ▸ rfl)
  | addedForDequeue format b hpc => exact lined_handOut (hnone (hpc ▸ rfl)) b
  | addedLast format b hpc => exact hnone (hpc ▸ rfl)
  | addedMore format b n hpc => exact hnone (hpc ▸ rfl)
  | setter a hu width height format usage windowWidth windowHeight =>
    cases a <;> first | exact hi | cases hu
  | _ => exact hi

theorem inv_step {c d : Client} {a : Action} (hi : Inv c) (hk : Kept c a)
    (h : c.step inOrder a = some d) : Inv d := by
  obtain ⟨ha, o, hmove, rfl⟩ := Client.step_cases h
  exact inv_move hi ha hk hmove

theorem kept_of_not_swaps {c : Client} (hpc : c.state.pc.swaps = none) (error : Bool) :
    Kept c (.readReturns error) := by
  intro he
  rw [swapEnds_of_not_swaps hpc] at he
  cases he

/-- A step that misses the condition ends a `finishSwap` that showed another
buffer or none. -/
theorem not_posted_of_not_kept {c d : Client} {a : Action} (hi : Inv c) (hk : ¬ Kept c a)
    (h : c.step inOrder a = some d) : ¬ Posted d := by
  obtain ⟨_, o, hmove, rfl⟩ := Client.step_cases h
  intro hp
  apply hk
  cases hmove with
  | dequeueBlocks error hpc hf => exact kept_of_not_swaps (hpc ▸ rfl) error
  | dequeueNone error hpc hf hpick => exact kept_of_not_swaps (hpc ▸ rfl) error
  | dequeuePick error b hpc hf hpick hfits => exact kept_of_not_swaps (hpc ▸ rfl) error
  | dequeueReplace error b hpc hf hpick hfits => exact kept_of_not_swaps (hpc ▸ rfl) error
  | swapWaits error b hpc he => exact fun h => absurd (he.symm.trans h) Bool.false_ne_true
  | swapFails b hpc he =>
    obtain ⟨_, b, hb, _⟩ := (shows_append none).mp hp
    cases hb
  | swapAttaches b hpc he =>
    obtain ⟨_, d, hd, hqueued⟩ := (shows_append (some b)).mp hp
    have hline : Lined (some b) c.state.win.queue c.held c.dequeued c.queued c.swaps := hpc ▸ hi
    have hsame : c.dequeued[c.swaps.length]? = c.queued[c.swaps.length]? :=
      (dequeued_of_lined hline).trans (hd.trans hqueued.symm)
    exact fun _ => ⟨rfl, hsame⟩
  | postFails b hpc => exact kept_of_not_swaps (hpc ▸ rfl) true
  | posts b hpc => exact kept_of_not_swaps (hpc ▸ rfl) false
  | setter a hu width height format usage windowWidth windowHeight =>
    cases a <;> first | exact trivial | cases hu
  | _ => exact trivial

/-- In every run of such a client the frames are posted in the order in which
they were queued precisely when every step meets the condition. -/
theorem posted_iff_kept {width height : Nat} {as : List Action}
    (hrun : (exec (Client.step inOrder) (Client.start width height) as).isSome) :
    Always (Client.step inOrder) Posted (Client.start width height) as ↔
      Guarded (Client.step inOrder) Kept (Client.start width height) as := by
  refine always_iff_guarded (fun _ hi => hi.shows) (fun _ _ _ => inv_step)
    (fun _ _ _ => not_posted_of_not_kept) ⟨fun k r hr => ?_, rfl, Nat.le_refl 0⟩ hrun
  cases hr

/-- Two buffers are outstanding at once and shown one after the other. -/
theorem posted_iff_kept_frames :
    Always (Client.step inOrder) Posted (Client.start 4 4)
        [.setBufferCount 3, .roundtripDone 1, .roundtripDone 1, .roundtripDone 1,
          .dequeueBuffer, .readReturns false, .dequeueBuffer, .readReturns false,
          .queueBuffer 0, .finishSwap none, .readReturns false, .queueBuffer 1,
          .finishSwap none, .frame, .readReturns false] ↔
      Guarded (Client.step inOrder) Kept (Client.start 4 4)
        [.setBufferCount 3, .roundtripDone 1, .roundtripDone 1, .roundtripDone 1,
          .dequeueBuffer, .readReturns false, .dequeueBuffer, .readReturns false,
          .queueBuffer 0, .finishSwap none, .readReturns false, .queueBuffer 1,
          .finishSwap none, .frame, .readReturns false] :=
  posted_iff_kept (by decide)

/-- The client cancels its first buffer and queues the second one, and the
first one is shown. -/
theorem not_posted_cancelBuffer :
    ¬ ∀ as, (exec (Client.step inOrder) (Client.start 4 4) as).isSome →
      Always (Client.step inOrder) Posted (Client.start 4 4) as := by
  intro h
  have hp := h [.setBufferCount 3, .roundtripDone 1, .roundtripDone 1, .roundtripDone 1,
    .dequeueBuffer, .readReturns false, .dequeueBuffer, .readReturns false, .cancelBuffer 0,
    .queueBuffer 1, .finishSwap none, .readReturns false] (by decide) _ _ List.prefix_rfl rfl
  obtain ⟨b, hb, hq⟩ := hp 0 (some 0) (by decide)
  rw [← Option.some.inj hb] at hq
  exact absurd hq (by decide)

end FakeLibc.WaylandPosting

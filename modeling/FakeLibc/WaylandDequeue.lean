import FakeLibc.WaylandSelection

namespace FakeLibc.WaylandDequeue

open FakeLibc.Lib.Run FakeLibc.WaylandWindow FakeLibc.WaylandClient FakeLibc.WaylandSelection

structure Stored where
  buffer : Option Nat
  fenceFd : Option Int

/-- The body of `dequeueBuffer` does not name its second argument. -/
def stored : Output → Stored
  | .dequeued b => ⟨some b, none⟩
  | _ => ⟨none, none⟩

def Dequeues : Pc → Prop
  | .dequeueRead | .adding .dequeue _ => True
  | _ => False

instance : (pc : Pc) → Decidable (Dequeues pc)
  | .dequeueRead => .isTrue trivial
  | .adding .dequeue _ => .isTrue trivial
  | .adding (.count _) _ => .isFalse id
  | .idle => .isFalse id
  | .swapRead _ => .isFalse id
  | .swapWait _ => .isFalse id
  | .postRead _ => .isFalse id

/-- What `dequeueBuffer` has stored and what it leaves, if it returns in a step. -/
def returned (s : State) (a : Action) : Option (Stored × Window) :=
  (next s a).bind (fun o =>
    if Dequeues s.pc ∧ o.pc.dispatches = false then some (stored o.out, o.win) else none)

def _dequeueBuffer_DEPRECATED (buffer : Nat) (r : Stored) : Nat × List Int :=
  let fenceFd := r.fenceFd.getD (-1)
  (r.buffer.getD buffer, if 0 ≤ fenceFd then [fenceFd] else [])

def _dequeueBuffer (buffer : Nat) (fenceFd : Int) (r : Stored) : Nat × Int :=
  (r.buffer.getD buffer, r.fenceFd.getD fenceFd)

/-- A client with its window. `base` is the counter at the start of the last
`dequeueBuffer`, and what released buffers have added to it since. -/
structure Caller where
  client : Client
  base : Int

abbrev Caller.win (c : Caller) : Window := c.client.state.win

def baseAfter (base before after : Int) : Action → Int
  | .dequeueBuffer => before
  | .release _ => base + (after - before)
  | _ => base

def Caller.after (c : Caller) (a : Action) (d : Client) : Caller where
  client := d
  base := baseAfter c.base c.win.freeBufs d.state.win.freeBufs a

def Caller.step (c : Caller) (a : Action) : Option Caller :=
  (c.client.step Client.returns a).map (c.after a)

def Caller.start (width height : Nat) : Caller := ⟨Client.start width height, 0⟩

/-- A buffer of the list that was free and is taken now has been stored. -/
def StoresBuffer (c : Caller) (a : Action) : Prop :=
  ∀ r w, returned c.client.state a = some (r, w) →
    ∃ b, r.buffer = some b ∧ b ∈ w.bufList ∧ (c.win.bufs b).busy = false ∧
      (w.bufs b).busy = true ∧ w.freeBufs = c.base - 1

def StoresFence (c : Caller) (a : Action) : Prop :=
  ∀ r w, returned c.client.state a = some (r, w) → r.fenceFd.isSome

/-- A counter that is not zero tells of a free buffer. -/
def FreeFound (c : Caller) : Action → Prop
  | .readReturns _ =>
    match c.client.state.pc with
    | .dequeueRead => c.win.freeBufs = 0 ∨ ∃ b ∈ c.win.bufList, (c.win.bufs b).busy = false
    | _ => True
  | _ => True

inductive Returns (s : State) : Action → Stored → Window → Prop
  | none (error : Bool) (hpc : s.pc = .dequeueRead) (hf : s.win.freeBufs ≠ 0)
    (hp : s.win.pick = none) : Returns s (.readReturns error) ⟨none, none⟩ s.win
  | pick (error : Bool) (b : Nat) (hpc : s.pc = .dequeueRead) (hp : s.win.pick = some b) :
    Returns s (.readReturns error) ⟨some b, none⟩ (s.win.handOut b)
  | added (format b : Nat) (hpc : s.pc = .adding .dequeue b) :
    Returns s (.roundtripDone format) ⟨some b, none⟩ ((s.win.listBuffer b format).handOut b)

theorem not_dequeues_of_ready {s : State} (hr : s.ready) : ¬ Dequeues s.pc := by
  cases hpc : s.pc <;> simp [State.ready, hpc, Pc.dispatches, Dequeues] at hr ⊢

theorem dispatches_of_dequeues {pc : Pc} (h : Dequeues pc) : pc.dispatches = true := by
  cases pc with
  | idle => cases h
  | _ => rfl

theorem not_dequeues_of_swaps {pc : Pc} {b : Nat} (h : pc.swaps = some b) : ¬ Dequeues pc := by
  cases pc <;> simp [Pc.swaps, Dequeues] at h ⊢

theorem returns_of_returned {s : State} {a : Action} {r : Stored} {w : Window}
    (h : returned s a = some (r, w)) : Returns s a r w := by
  obtain ⟨o, ho, h⟩ := Option.bind_eq_some_iff.mp h
  obtain ⟨⟨hd, hidle⟩, h⟩ := Option.ite_none_right_eq_some.mp h
  cases h
  cases move_of_next ho with
  | dequeueNone error hpc hf hp => exact .none error hpc hf hp
  | dequeuePick error b hpc hf hp hfits => exact .pick error b hpc hp
  | addedForDequeue format b hpc => exact .added format b hpc
  | dequeueBlocks error hpc hf => cases hidle
  | dequeueReplace error b hpc hf hp hfits => cases hidle
  | addedLast format b hpc => rw [hpc] at hd; cases hd
  | addedMore format b n hpc => cases hidle
  | swapWaits error b hpc he => cases hidle
  | swapFails b hpc he => exact absurd hd (not_dequeues_of_swaps hpc)
  | swapAttaches b hpc he => exact absurd hd (not_dequeues_of_swaps hpc)
  | postFails b hpc => rw [hpc] at hd; cases hd
  | posts b hpc => rw [hpc] at hd; cases hd
  | releasePosted b hdis hw hb => rw [hdis] at hidle; cases hidle
  | releaseFronted b hdis hw hb hf hl => rw [hdis] at hidle; cases hidle
  | frame hdis => rw [hdis] at hidle; cases hidle
  | setter a ha width height format usage windowWidth windowHeight =>
    rw [dispatches_of_dequeues hd] at hidle
    cases hidle
  | dequeueBuffer hr => exact absurd hd (not_dequeues_of_ready hr)
  | queueBuffer b hr => exact absurd hd (not_dequeues_of_ready hr)
  | cancelBuffer b hr hb => exact absurd hd (not_dequeues_of_ready hr)
  | finishSwap stale b hr hb hlt => exact absurd hd (not_dequeues_of_ready hr)
  | countIs cnt hr hcnt => exact absurd hd (not_dequeues_of_ready hr)
  | countStays cnt hr hcnt => exact absurd hd (not_dequeues_of_ready hr)
  | shrink cnt hr hcnt => exact absurd hd (not_dequeues_of_ready hr)
  | grow cnt n hr hcnt => exact absurd hd (not_dequeues_of_ready hr)
  | setSwapInterval interval hr => exact absurd hd (not_dequeues_of_ready hr)
  | prepareSwap hr => exact absurd hd (not_dequeues_of_ready hr)
  | postRegistered other b hr hb => exact absurd hd (not_dequeues_of_ready hr)
  | postNew other hr hb => exact absurd hd (not_dequeues_of_ready hr)

theorem fenceFd_stays {s : State} {a : Action} {r : Stored} {w : Window}
    (h : returned s a = some (r, w)) (buffer : Nat) (fenceFd : Int) :
    (_dequeueBuffer buffer fenceFd r).2 = fenceFd := by
  cases returns_of_returned h <;> rfl

theorem waits_for_nothing {s : State} {a : Action} {r : Stored} {w : Window}
    (h : returned s a = some (r, w)) (buffer : Nat) :
    (_dequeueBuffer_DEPRECATED buffer r).2 = [] := by
  cases returns_of_returned h <;> rfl

def Tracks (base freeBufs : Int) : Pc → Prop
  | .dequeueRead => base = freeBufs
  | .adding .dequeue _ => base = freeBufs + 1
  | _ => True

theorem tracks_add {base freeBufs : Int} {pc : Pc} (h : Tracks base freeBufs pc) (n : Int) :
    Tracks (base + n) (freeBufs + n) pc := by
  cases pc with
  | dequeueRead =>
    simp only [Tracks] at h ⊢
    omega
  | adding p b =>
    cases p with
    | dequeue =>
      simp only [Tracks] at h ⊢
      omega
    | count n => trivial
  | _ => trivial

structure Inv (c : Caller) : Prop where
  sound : Sound c.client.state
  tracks : Tracks c.base c.win.freeBufs c.client.state.pc

section Step

variable {c d : Caller} {a : Action}

theorem Caller.step_cases (h : c.step a = some d) :
    c.client.returns a = true ∧ ∃ o, Move c.client.state a o ∧
      d.client.state = c.client.state.advance o ∧
      d.base = baseAfter c.base c.win.freeBufs o.win.freeBufs a := by
  obtain ⟨e, he, rfl⟩ := Option.map_eq_some_iff.mp h
  obtain ⟨hret, o, hmove, rfl⟩ := Client.step_cases he
  exact ⟨hret, o, hmove, rfl, rfl⟩

theorem baseAfter_unlocked {base before after : Int} (ha : a.unlocked) :
    baseAfter base before after a = base := by
  cases a with
  | dequeueBuffer => cases ha
  | release b => cases ha
  | _ => rfl

theorem tracks_move {s : State} {o : Outcome} {base : Int} (hs : Sound s) (h : Move s a o)
    (ht : Tracks base s.win.freeBufs s.pc) :
    Tracks (baseAfter base s.win.freeBufs o.win.freeBufs a) o.win.freeBufs o.pc := by
  cases h with
  | dequeueBuffer hr => exact rfl
  | releasePosted b hd hw hb => simp [hs.posted] at hb
  | releaseFronted b hd hw hb hf hl =>
    have hone : (s.win.releaseFronted b).freeBufs = s.win.freeBufs + 1 := rfl
    have hdiff : s.win.freeBufs + 1 - s.win.freeBufs = 1 := by omega
    simp only [baseAfter, hone, hdiff]
    exact tracks_add ht 1
  | frame hd => exact ht
  | setter a ha width height format usage windowWidth windowHeight =>
    rw [baseAfter_unlocked ha]
    exact ht
  | dequeueBlocks error hpc hf =>
    rw [hpc] at ht
    exact ht
  | dequeueReplace error b hpc hf hp hfits =>
    rw [hpc] at ht
    have hless : ((s.win.remove b).newBuffer).freeBufs = s.win.freeBufs - 1 := rfl
    simp only [Tracks, baseAfter, hless] at ht ⊢
    omega
  | _ => trivial

theorem inv_step (hi : Inv c) (h : c.step a = some d) : Inv d := by
  obtain ⟨hret, o, hmove, hstate, hbase⟩ := Caller.step_cases h
  refine ⟨?_, ?_⟩
  · rw [hstate]
    exact sound_move hi.sound (not_post_of_returns hret) hmove
  · have ht := tracks_move hi.sound hmove hi.tracks
    rw [← hbase] at ht
    rw [Caller.win, hstate]
    exact ht

theorem not_storesFence {r : Stored} {w : Window}
    (h : returned c.client.state a = some (r, w)) : ¬ StoresFence c a := by
  intro hf
  have hsome := hf r w h
  cases returns_of_returned h <;> cases hsome

theorem returned_none {s : State} (hpc : s.pc = .dequeueRead) (hne : s.win.freeBufs ≠ 0)
    (hp : s.win.pick = none) (error : Bool) :
    returned s (.readReturns error) = some (⟨none, none⟩, s.win) := by
  have hnext : next s (.readReturns error) =
      some ⟨s.win, .idle, [.access, .unlock, .ret], .nothing⟩ := by
    rw [next, hpc, afterRead, dequeueAfterRead, if_neg hne, hp]
  rw [returned, hnext, Option.bind_some, hpc]
  rfl

theorem freeFound_of_storesBuffer (h : StoresBuffer c a) : FreeFound c a := by
  cases a with
  | readReturns error =>
    cases hpc : c.client.state.pc with
    | dequeueRead =>
      by_contra hn
      rw [FreeFound, hpc, not_or] at hn
      obtain ⟨hne, hbusy⟩ := hn
      have hpick : c.win.pick = none :=
        pick_eq_none_iff.mpr (fun b hb hfree => hbusy ⟨b, hb, hfree⟩)
      obtain ⟨b, hb, _⟩ := h _ _ (returned_none hpc hne hpick error)
      cases hb
    | _ => simp [FreeFound, hpc]
  | _ => trivial

theorem storesBuffer_of_freeFound (hi : Inv c) (hf : FreeFound c a) : StoresBuffer c a := by
  intro r w h
  have ht := hi.tracks
  cases returns_of_returned h with
  | none error hpc hne hp =>
    rw [FreeFound, hpc] at hf
    obtain ⟨b, hb, hfree⟩ := hf.resolve_left hne
    exact absurd hfree (pick_eq_none_iff.mp hp b hb)
  | pick error b hpc hp =>
    rw [hpc] at ht
    have hmem : b ∈ c.win.bufList := mem_of_pick hp
    refine ⟨b, rfl, hmem, not_busy_of_pick hp, by simp, ?_⟩
    have hless : (c.client.state.win.handOut b).freeBufs = c.win.freeBufs - 1 := rfl
    rw [hless, show c.base = c.win.freeBufs from ht]
  | added format b hpc =>
    have hfree := hi.sound.adding _ b hpc
    rw [hpc] at ht
    refine ⟨b, rfl, List.mem_append_right _ (List.mem_singleton_self b), hfree, by simp, ?_⟩
    have hsame : ((c.client.state.win.listBuffer b format).handOut b).freeBufs =
        c.win.freeBufs + 1 - 1 := rfl
    rw [hsame, show c.base = c.win.freeBufs + 1 from ht]

end Step

theorem inv_start (width height : Nat) : Inv (Caller.start width height) where
  sound := sound_start width height
  tracks := trivial

/-- No `dequeueBuffer` that returns has assigned the fence. It has stored a
buffer precisely when the counter told the truth about there being one. -/
theorem succeeds_iff (width height : Nat) (as : List Action) :
    (Guarded Caller.step (fun c a => StoresBuffer c a ∧ StoresFence c a)
        (Caller.start width height) as ↔
      Guarded Caller.step (fun c a => returned c.client.state a = none)
        (Caller.start width height) as) ∧
    (Guarded Caller.step StoresBuffer (Caller.start width height) as ↔
      Guarded Caller.step FreeFound (Caller.start width height) as) := by
  have hinv : Always Caller.step Inv (Caller.start width height) as :=
    always_of_step (fun _ _ _ => inv_step) (inv_start width height) as
  refine ⟨guarded_congr hinv fun c a hi => ?_, guarded_congr hinv fun c a hi => ?_⟩
  · constructor
    · rintro ⟨_, hfence⟩
      cases h : returned c.client.state a with
      | none => rfl
      | some p => exact absurd hfence (not_storesFence h)
    · intro hnone
      constructor
      · intro r w h
        rw [hnone] at h
        cases h
      · intro r w h
        rw [hnone] at h
        cases h
  · exact ⟨freeFound_of_storesBuffer, storesBuffer_of_freeFound hi⟩

def threeBuffers : List Action :=
  [.setBufferCount 3, .roundtripDone 1, .roundtripDone 1, .roundtripDone 1]

/-- The first dequeue of a new window. -/
theorem not_succeeds_first :
    ¬ ∀ as, Guarded Caller.step (fun c a => StoresBuffer c a ∧ StoresFence c a)
      (Caller.start 4 4) as := by
  intro h
  have hsucc := h (threeBuffers ++ [.dequeueBuffer, .readReturns false])
    (threeBuffers ++ [.dequeueBuffer]) (.readReturns false) _ List.prefix_rfl rfl
  exact absurd (hsucc.2 _ _ rfl) (by decide)

/-- A cancelled buffer is shown, and in the end the counter is 1 although all
buffers are busy. -/
example : ¬ ∀ as, Guarded Caller.step StoresBuffer (Caller.start 4 4) as := by
  intro h
  have hstores := h (threeBuffers ++ [.dequeueBuffer, .readReturns false, .dequeueBuffer,
    .readReturns false, .cancelBuffer 0, .queueBuffer 1, .finishSwap none, .readReturns false,
    .dequeueBuffer, .readReturns false, .dequeueBuffer, .readReturns false])
    (threeBuffers ++ [.dequeueBuffer, .readReturns false, .dequeueBuffer,
    .readReturns false, .cancelBuffer 0, .queueBuffer 1, .finishSwap none, .readReturns false,
    .dequeueBuffer, .readReturns false, .dequeueBuffer]) (.readReturns false) _
    List.prefix_rfl rfl
  obtain ⟨b, hb, _⟩ := hstores _ _ rfl
  cases hb

end FakeLibc.WaylandDequeue

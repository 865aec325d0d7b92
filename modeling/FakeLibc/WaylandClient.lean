import FakeLibc.WaylandStep

namespace FakeLibc.WaylandClient

open FakeLibc.Lib.Run FakeLibc.WaylandWindow

/-- A window with its client and its compositor. `held` are the buffers that the
client has to return, and `given` those that the compositor has to release;
`swaps` lists what each `finishSwap` attached. `premature` says that the last
`finishSwap` was called while the client held the buffer that it took. A buffer
is in `early` when it was given although it counted as free, and in `clashes`
each time that it got a second owner. -/
structure Client where
  state : State
  held : List Nat
  dequeued : List Nat
  queued : List Nat
  swaps : List (Option Nat)
  premature : Bool
  given : List Nat
  early : List Nat
  clashes : List Nat

def Client.gives (c : Client) : Action → Client
  | .queueBuffer b => { c with held := c.held.erase b, queued := c.queued ++ [b] }
  | .cancelBuffer b => { c with held := c.held.erase b }
  | .finishSwap stale =>
    { c with
      premature :=
        ((c.state.win.front stale).or c.state.win.lastBuffer).any (fun b => decide (b ∈ c.held)) }
  | .release b => { c with given := c.given.filter (· ≠ b), early := c.early.filter (· ≠ b) }
  | _ => c

def Client.gets (c : Client) : Output → Client
  | .nothing => c
  | .dequeued b =>
    { c with
      held := c.held ++ [b]
      dequeued := c.dequeued ++ [b]
      clashes := if b ∈ c.held ∨ b ∈ c.given then c.clashes ++ [b] else c.clashes }
  | .attached b =>
    { c with
      swaps := c.swaps ++ [some b]
      given := c.given ++ [b]
      early := if (c.state.win.bufs b).busy then c.early else c.early ++ [b]
      clashes := if b ∈ c.held then c.clashes ++ [b] else c.clashes }
  | .unswapped => { c with swaps := c.swaps ++ [none] }

def Client.after (c : Client) (a : Action) (o : Outcome) : Client :=
  { (c.gives a).gets o.out with state := c.state.advance o }

/-- The client returns only what it holds, and it posts no foreign buffers. -/
def Client.returns (c : Client) : Action → Bool
  | .queueBuffer b => decide (b ∈ c.held)
  | .cancelBuffer b => decide (b ∈ c.held)
  | .postBuffer _ => false
  | _ => true

def Client.step (allowed : Client → Action → Bool) (c : Client) (a : Action) : Option Client :=
  if allowed c a then (next c.state a).map (c.after a) else none

def Client.start (width height : Nat) : Client where
  state := WaylandWindow.start width height
  held := []
  dequeued := []
  queued := []
  swaps := []
  premature := false
  given := []
  early := []
  clashes := []

theorem not_post_of_returns {c : Client} {a : Action} (h : c.returns a = true) (other : Nat) :
    a ≠ .postBuffer other := by
  rintro rfl
  cases h

theorem Client.step_cases {allowed : Client → Action → Bool} {c d : Client} {a : Action}
    (h : c.step allowed a = some d) :
    allowed c a = true ∧ ∃ o, Move c.state a o ∧ d = c.after a o := by
  simp only [Client.step, Option.ite_none_right_eq_some, Option.map_eq_some_iff] at h
  obtain ⟨hallowed, o, ho, rfl⟩ := h
  exact ⟨hallowed, o, move_of_next ho, rfl⟩

section Busy

variable (w : Window) (b c : Nat)

theorem modify_bufs (f : Buf → Buf) :
    (w.modify b f).bufs c = if c = b then f (w.bufs b) else w.bufs c :=
  Function.update_apply _ _ _ _

theorem busy_modify (f : Buf → Buf) (hf : (f (w.bufs b)).busy = (w.bufs b).busy) :
    ((w.modify b f).bufs c).busy = (w.bufs c).busy := by
  rw [modify_bufs]
  split
  next hc => rw [hf, hc]
  next => rfl

@[simp] theorem busy_setBusy (busy : Bool) :
    ((w.setBusy b busy).bufs c).busy = if c = b then busy else (w.bufs c).busy := by
  rw [Window.setBusy, modify_bufs]
  split <;> rfl

@[simp] theorem busy_setYoungest : ((w.setYoungest b).bufs c).busy = (w.bufs c).busy := by
  simp only [Window.setYoungest]
  split
  next => rfl
  next => split <;> rfl

@[simp] theorem busy_cancel :
    ((w.cancel b).bufs c).busy = if c = b then false else (w.bufs c).busy := by
  rw [Window.cancel, busy_setYoungest, busy_setBusy]

@[simp] theorem busy_releaseFronted :
    ((w.releaseFronted b).bufs c).busy = if c = b then false else (w.bufs c).busy := by
  rw [Window.releaseFronted, busy_setYoungest, busy_setBusy]

@[simp] theorem busy_handOut :
    ((w.handOut b).bufs c).busy = if c = b then true else (w.bufs c).busy := by
  rw [Window.handOut, busy_setBusy]

@[simp] theorem busy_takeFront :
    ((w.takeFront b).bufs c).busy = if c = b then true else (w.bufs c).busy := by
  rw [Window.takeFront, busy_setBusy]

@[simp] theorem busy_attach : ((w.attach b).bufs c).busy = (w.bufs c).busy :=
  busy_modify _ b c _ rfl

@[simp] theorem busy_listBuffer (format : Nat) :
    ((w.listBuffer b format).bufs c).busy = (w.bufs c).busy :=
  busy_modify _ b c _ rfl

@[simp] theorem busy_destroyBuffer :
    ((w.destroyBuffer b).bufs c).busy = (w.bufs c).busy :=
  busy_modify _ b c _ rfl

@[simp] theorem busy_remove : ((w.remove b).bufs c).busy = (w.bufs c).busy :=
  busy_destroyBuffer w b c

@[simp] theorem busy_newBuffer :
    (w.newBuffer.bufs c).busy = if c = w.next then false else (w.bufs c).busy := by
  have h : w.newBuffer.bufs c = if c = w.next then _ else w.bufs c :=
    Function.update_apply _ _ _ _
  rw [h]
  split <;> rfl

@[simp] theorem busy_shrink (cnt : Nat) : ((w.shrink cnt).bufs c).busy = (w.bufs c).busy :=
  destroyBuffers_keep (fun v => (v.bufs c).busy) (fun v d => busy_destroyBuffer v d c) _ w

end Busy

structure Sound (s : State) : Prop where
  wellFormed : WellFormed s.win s.pc
  posted : s.win.posted = []
  posting : ∀ b, s.pc ≠ .postRead b
  adding : ∀ p b, s.pc = .adding p b → (s.win.bufs b).busy = false
  locked : s.pc.dispatches = true → s.locked = true

theorem sound_start (width height : Nat) : Sound (WaylandWindow.start width height) where
  wellFormed := wellFormed_start width height
  posted := rfl
  posting := fun _ h => by cases h
  adding := fun _ _ h => by cases h
  locked := fun h => by cases h

theorem posted_move {s : State} {a : Action} {o : Outcome} (hs : Sound s)
    (ha : ∀ other, a ≠ .postBuffer other) (h : Move s a o) : o.win.posted = [] := by
  cases h with
  | shrink cnt hr hcnt =>
    exact (destroyBuffers_keep Window.posted (fun _ _ => rfl) _ s.win).trans hs.posted
  | releasePosted b hd hw hb => simp [hs.posted] at hb
  | postRegistered other b hr hb => exact absurd rfl (ha other)
  | postNew other hr hb => exact absurd rfl (ha other)
  | posts b hpc => exact absurd hpc (hs.posting b)
  | _ => exact hs.posted

theorem posting_move {s : State} {a : Action} {o : Outcome} (hs : Sound s)
    (ha : ∀ other, a ≠ .postBuffer other) (h : Move s a o) (b : Nat) : o.pc ≠ .postRead b := by
  cases h with
  | releasePosted c hd hw hc => exact hs.posting b
  | releaseFronted c hd hw hc hf hl => exact hs.posting b
  | frame hd => exact hs.posting b
  | setter a ha width height format usage windowWidth windowHeight => exact hs.posting b
  | postRegistered other c hr hc => exact absurd rfl (ha other)
  | postNew other hr hc => exact absurd rfl (ha other)
  | _ => exact Pc.noConfusion

theorem adding_move {s : State} {a : Action} {o : Outcome} (hs : Sound s) (h : Move s a o)
    (p : Purpose) (b : Nat) (hpc : o.pc = .adding p b) : (o.win.bufs b).busy = false := by
  cases h with
  | releasePosted c hd hw hc => simp [hs.posted] at hc
  | releaseFronted c hd hw hc hf hl => simp [hs.adding p b hpc]
  | frame hd => exact hs.adding p b hpc
  | setter a ha width height format usage windowWidth windowHeight => exact hs.adding p b hpc
  | grow cnt n hr hcnt =>
    obtain ⟨_, rfl⟩ := Pc.adding.inj hpc
    simp
  | dequeueReplace error c hc hf hp hfits =>
    obtain ⟨_, rfl⟩ := Pc.adding.inj hpc
    simp [Window.remove, Window.destroyBuffer, Window.modify]
  | addedMore format c n hc =>
    obtain ⟨_, rfl⟩ := Pc.adding.inj hpc
    simp [Window.listBuffer, Window.modify]
  | _ => cases hpc

theorem locked_move {s : State} {a : Action} {o : Outcome} (hs : Sound s)
    (ha : ∀ other, a ≠ .postBuffer other) (h : Move s a o) (hd : o.pc.dispatches = true) :
    (replay s.locked o.trace).1 = true := by
  cases h with
  | dequeueBuffer hr => rfl
  | finishSwap stale b hr hb hlt => rfl
  | grow cnt n hr hcnt => cases s.locked <;> rfl
  | releasePosted b hdis hw hb => simp [hs.posted] at hb
  | postRegistered other b hr hb => exact absurd rfl (ha other)
  | postNew other hr hb => exact absurd rfl (ha other)
  | releaseFronted b hdis hw hb hf hl => rw [hs.locked hdis]; rfl
  | frame hdis => exact hs.locked hd
  | dequeueBlocks error hpc hf => rw [hs.locked (hpc ▸ rfl)]; rfl
  | dequeueReplace error b hpc hf hp hfits => rw [hs.locked (hpc ▸ rfl)]; rfl
  | swapWaits error b hpc he => exact hs.locked (dispatches_of_swaps hpc)
  | addedMore format b n hpc => rw [hs.locked (hpc ▸ rfl)]; rfl
  | setter a ha width height format usage windowWidth windowHeight => exact hs.locked hd
  | _ => cases hd

theorem sound_move {s : State} {a : Action} {o : Outcome} (hs : Sound s)
    (ha : ∀ other, a ≠ .postBuffer other) (h : Move s a o) : Sound (s.advance o) where
  wellFormed := wellFormed_move hs.wellFormed h
  posted := posted_move hs ha h
  posting := posting_move hs ha h
  adding := adding_move hs h
  locked := locked_move hs ha h

end FakeLibc.WaylandClient

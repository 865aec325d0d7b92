import FakeLibc.WaylandClient

namespace FakeLibc.WaylandSizes

open FakeLibc.Lib.Run FakeLibc.WaylandWindow FakeLibc.WaylandClient

structure Request where
  width : Nat
  height : Nat
  format : Nat
  usage : Nat

def request (w : Window) : Request := ⟨w.width, w.height, w.format, w.usage⟩

def wanted (w : Window) : Request := ⟨w.windowWidth, w.windowHeight, w.format, w.usage⟩

def shape (x : Buf) : Request := ⟨x.width, x.height, x.format, x.usage⟩

structure Watched where
  state : State
  asked : Request

/-- The server allocates what it is asked for. -/
def answered (s : Watched) : Action → Action
  | .roundtripDone _ => .roundtripDone s.asked.format
  | a => a

def asks : Action → Bool
  | .setBufferCount _ | .readReturns _ | .roundtripDone _ => true
  | _ => false

def Watched.after (s : Watched) (a : Action) (o : Outcome) : Watched where
  state := s.state.advance o
  asked := if asks a then request o.win else s.asked

def Watched.step (s : Watched) (a : Action) : Option Watched :=
  (next s.state (answered s a)).map (s.after a)

def Watched.start (width height : Nat) : Watched := ⟨WaylandWindow.start width height, ⟨0, 0, 0, 0⟩⟩

/-- What is handed out fits the window, and a search that finds such a buffer
allocates none. -/
def Matches (s : Watched) (a : Action) : Prop :=
  ∀ o, next s.state (answered s a) = some o →
    (∀ b, o.out = .dequeued b → o.win.Fits b) ∧
    ∀ error b, a = .readReturns error → s.state.pc = .dequeueRead → s.state.win.freeBufs ≠ 0 →
      s.state.win.pick = some b → s.state.win.Fits b →
        o.out = .dequeued b ∧ o.win.bufList = s.state.win.bufList ∧ o.win.next = s.state.win.next

/-- What was asked for in the place of a buffer that no longer fits is what the
window wants when it is there. -/
def Agrees (s : Watched) : Action → Prop
  | .roundtripDone _ =>
    match s.state.pc with
    | .adding .dequeue _ => s.asked = wanted s.state.win
    | _ => True
  | _ => True

def Made (x : Buf) (r : Request) : Prop := { shape x with format := r.format } = r

section Shape

variable (w : Window) (b c : Nat)

theorem fits_iff : w.Fits b ↔ shape (w.bufs b) = wanted w := by
  simp only [Window.Fits, shape, wanted, Request.mk.injEq]

theorem shape_modify (f : Buf → Buf) (hf : shape (f (w.bufs b)) = shape (w.bufs b)) :
    shape ((w.modify b f).bufs c) = shape (w.bufs c) := by
  rw [modify_bufs]
  split
  next hc => rw [hf, hc]
  next => rfl

theorem shape_setYoungest : shape ((w.setYoungest b).bufs c) = shape (w.bufs c) := by
  simp only [Window.setYoungest]
  split
  next => rfl
  next => split <;> rfl

theorem shape_setBusy (busy : Bool) : shape ((w.setBusy b busy).bufs c) = shape (w.bufs c) :=
  shape_modify w b c _ rfl

theorem shape_releasePosted : shape ((w.releasePosted b).bufs c) = shape (w.bufs c) :=
  shape_setBusy _ b c false

theorem shape_releaseFronted : shape ((w.releaseFronted b).bufs c) = shape (w.bufs c) := by
  rw [Window.releaseFronted, shape_setYoungest, shape_setBusy]

theorem shape_handOut : shape ((w.handOut b).bufs c) = shape (w.bufs c) :=
  shape_setBusy _ b c true

theorem shape_listBuffer (format : Nat) :
    shape ((w.listBuffer b format).bufs b) = { shape (w.bufs b) with format := format } := by
  simp only [Window.listBuffer, Window.modify, Function.update_self, shape]

theorem made_newBuffer : Made (w.newBuffer.bufs w.next) (request w.newBuffer) := by
  simp only [Made, shape, request, Window.newBuffer, Function.update_self]

end Shape

theorem Made.congr {x y : Buf} {r : Request} (h : Made x r) (hs : shape y = shape x) :
    Made y r := by
  rw [Made, hs]
  exact h

theorem fits_handOut {w : Window} {b : Nat} : (w.handOut b).Fits b ↔ w.Fits b := by
  rw [fits_iff, fits_iff, shape_handOut]
  rfl

def Inv (s : Watched) : Prop :=
  ∀ p b, s.state.pc = .adding p b → Made (s.state.win.bufs b) s.asked

section Step

variable {s t : Watched} {a : Action}

theorem asks_answered (s : Watched) (a : Action) : asks (answered s a) = asks a := by
  cases a <;> rfl

theorem not_asks_of_unlocked (ha : a.unlocked) : asks a = false := by
  cases a <;> first | rfl | cases ha

theorem made_move {s : State} {o : Outcome} {asked : Request}
    (hi : ∀ p b, s.pc = .adding p b → Made (s.win.bufs b) asked) (h : Move s a o)
    (p : Purpose) (b : Nat) (hpc : o.pc = .adding p b) :
    Made (o.win.bufs b) (if asks a then request o.win else asked) := by
  cases h with
  | releasePosted c hd hw hc => exact (hi p b hpc).congr (shape_releasePosted _ c b)
  | releaseFronted c hd hw hc hf hl => exact (hi p b hpc).congr (shape_releaseFronted _ c b)
  | frame hd => exact hi p b hpc
  | setter a ha width height format usage windowWidth windowHeight =>
    rw [not_asks_of_unlocked ha]
    exact hi p b hpc
  | grow cnt n hr hcnt =>
    obtain ⟨_, rfl⟩ := Pc.adding.inj hpc
    exact made_newBuffer _
  | dequeueReplace error c hc hf hp hfits =>
    obtain ⟨_, rfl⟩ := Pc.adding.inj hpc
    exact made_newBuffer (s.win.remove c)
  | addedMore format c n hc =>
    obtain ⟨_, rfl⟩ := Pc.adding.inj hpc
    exact made_newBuffer (s.win.listBuffer c format)
  | _ => cases hpc

theorem inv_step (hi : Inv s) (h : s.step a = some t) : Inv t := by
  obtain ⟨o, ho, rfl⟩ := Option.map_eq_some_iff.mp h
  intro p b hpc
  have hmade := made_move hi (move_of_next ho) p b hpc
  rw [asks_answered] at hmade
  exact hmade

theorem fits_added {w : Window} {b : Nat} {r : Request} (h : Made (w.bufs b) r) :
    ((w.listBuffer b r.format).handOut b).Fits b ↔ r = wanted w := by
  rw [fits_handOut, fits_iff, shape_listBuffer, h]
  rfl

theorem agrees_of_matches (hi : Inv s) (h : Matches s a) : Agrees s a := by
  cases a with
  | roundtripDone format =>
    cases hpc : s.state.pc with
    | adding p b =>
      cases p with
      | dequeue =>
        rw [Agrees, hpc]
        apply (fits_added (hi _ b hpc)).mp
        have hnext : next s.state (answered s (.roundtripDone format)) =
            some ⟨(s.state.win.listBuffer b s.asked.format).handOut b, .idle,
              [.access, .unlock, .ret], .dequeued b⟩ := by
          rw [answered, next, hpc, afterRoundtrip]
        exact (h _ hnext).1 b rfl
      | count n => simp [Agrees, hpc]
    | _ => simp [Agrees, hpc]
  | _ => trivial

theorem answered_roundtrip {format : Nat} (h : answered s a = .roundtripDone format) :
    format = s.asked.format ∧ ∃ given, a = .roundtripDone given := by
  cases a with
  | roundtripDone given => exact ⟨(Action.roundtripDone.inj h).symm, given, rfl⟩
  | _ => cases h

theorem fits_of_agrees (hi : Inv s) (hc : Agrees s a) {o : Outcome}
    (h : Move s.state (answered s a) o) {b : Nat} (hb : o.out = .dequeued b) : o.win.Fits b := by
  generalize ha : answered s a = act at h
  cases h with
  | dequeuePick error c hpc hf hp hfits =>
    cases hb
    exact fits_handOut.mpr hfits
  | addedForDequeue format c hpc =>
    cases hb
    obtain ⟨rfl, given, rfl⟩ := answered_roundtrip ha
    rw [Agrees, hpc] at hc
    exact (fits_added (hi _ b hpc)).mpr hc
  | _ => cases hb

theorem keeps_of_fits {error : Bool} {b : Nat} (hpc : s.state.pc = .dequeueRead)
    (hf : s.state.win.freeBufs ≠ 0) (hp : s.state.win.pick = some b) (hfits : s.state.win.Fits b)
    {o : Outcome} (h : next s.state (answered s (.readReturns error)) = some o) :
    o.out = .dequeued b ∧ o.win.bufList = s.state.win.bufList ∧
      o.win.next = s.state.win.next := by
  simp only [answered, next, hpc, afterRead, dequeueAfterRead, if_neg hf, hp, hfits, if_true,
    Option.some.injEq] at h
  subst h
  exact ⟨rfl, rfl, rfl⟩

theorem matches_of_agrees (hi : Inv s) (hc : Agrees s a) : Matches s a := by
  intro o ho
  constructor
  · intro b hb
    exact fits_of_agrees hi hc (move_of_next ho) hb
  · rintro error b rfl hpc hf hp hfits
    exact keeps_of_fits hpc hf hp hfits ho

end Step

theorem inv_start (width height : Nat) : Inv (Watched.start width height) := by
  intro p b hpc
  cases hpc

/-- What is handed out matches the window precisely when each buffer that is
made in the place of another one was asked for in the size of the window. -/
theorem matches_iff_agrees (width height : Nat) (as : List Action) :
    Guarded Watched.step Matches (Watched.start width height) as ↔
      Guarded Watched.step Agrees (Watched.start width height) as := by
  have hinv : Always Watched.step Inv (Watched.start width height) as :=
    always_of_step (fun _ _ _ => inv_step) (inv_start width height) as
  apply guarded_congr hinv
  intro s a hi
  exact ⟨agrees_of_matches hi, matches_of_agrees hi⟩

/-- A window of 4 by 4 is resized, and its next buffer still has the old size. -/
theorem not_matches_resize :
    ¬ ∀ as, Guarded Watched.step Matches (Watched.start 4 4) as := by
  intro h
  have hmatches := h [.setBufferCount 3, .roundtripDone 1, .roundtripDone 1, .roundtripDone 1,
    .resize 8 8, .dequeueBuffer, .readReturns false, .roundtripDone 1]
    [.setBufferCount 3, .roundtripDone 1, .roundtripDone 1, .roundtripDone 1,
    .resize 8 8, .dequeueBuffer, .readReturns false] (.roundtripDone 1) _ List.prefix_rfl rfl
  exact absurd ((hmatches _ rfl).1 3 rfl) (by decide)

end FakeLibc.WaylandSizes

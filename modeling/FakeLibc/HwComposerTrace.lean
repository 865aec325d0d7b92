import FakeLibc.HwComposerWindow
import FakeLibc.Lib.RoundRobin

namespace FakeLibc.HwComposerTrace

open FakeLibc.Lib.RefCount FakeLibc.Lib.RoundRobin FakeLibc.HwComposerWindow

structure Parameters where
  width : Nat
  height : Nat
  format : Nat
  usage : Nat
  deriving DecidableEq

/-- The window with the parameters of every buffer, and with all the buffers
that `dequeueBuffer` has returned, the oldest first. -/
structure Traced where
  win : Window
  width : Nat
  height : Nat
  made : Buffer → Parameters
  dequeued : List Buffer

def Traced.parameters (s : Traced) : Parameters := ⟨s.width, s.height, s.win.bufFormat, s.win.usage⟩

def filled (w : Window) (ok : Nat) : Window :=
  if w.bufs.list.isEmpty then allocateBuffers w ok else w

/-- What `dequeueBuffer` adds to what the client holds. -/
def returned (w : Window) (ok : Nat) : Option Buffer :=
  (dequeueBuffer w ok).bind (fun t => (t.held.take (t.held.length - w.held.length)).head?)

def Traced.madeBy (s : Traced) : Buffer → Parameters :=
  if s.win.bufs.list.isEmpty then fun b => if s.win.bufs.next ≤ b then s.parameters else s.made b
  else s.made

def tracedStep (flags : Nat) (s : Traced) (c : Call) : Option Traced :=
  (step flags s.win c).map (fun w =>
    match c with
    | .dequeueBuffer ok =>
      { s with
        win := w, made := s.madeBy, dequeued := s.dequeued ++ (returned s.win ok).toList }
    | _ => { s with win := w })

def tracedWindow (flags width height format : Nat) : Traced where
  win := hwComposerNativeWindow flags format
  width := width
  height := height
  made := fun _ => ⟨0, 0, 0, 0⟩
  dequeued := []

theorem filled_held (w : Window) (ok : Nat) : (filled w ok).held = w.held := by
  rw [filled]
  split <;> rfl

theorem returned_eq (w : Window) (ok : Nat) :
    returned w ok = (filled w ok).bufs.list[(filled w ok).nextBuffer]? := by
  show (Option.map _ ((filled w ok).bufs.list[(filled w ok).nextBuffer]?)).bind _ = _
  cases (filled w ok).bufs.list[(filled w ok).nextBuffer]? with
  | none => rfl
  | some b =>
    simp only [Option.map_some, Option.bind_some, List.length_cons]
    rw [show (if w.bufs.list.isEmpty then allocateBuffers w ok else w).held = w.held from
      filled_held w ok, Nat.add_sub_cancel_left]
    rfl

theorem dequeueBuffer_some {w t : Window} {ok : Nat} (h : dequeueBuffer w ok = some t) :
    ∃ b, returned w ok = some b ∧ t.held = b :: w.held ∧ t.bufs = (filled w ok).bufs ∧
      t.nextBuffer = advance (filled w ok).bufs.list.length (filled w ok).nextBuffer ∧
      t.fenceFd = Function.update (filled w ok).fenceFd b (-1) ∧
      t.bufferCount = w.bufferCount ∧ t.usage = w.usage ∧ t.bufFormat = w.bufFormat := by
  obtain ⟨b, hb, rfl⟩ := Option.map_eq_some_iff.mp h
  refine ⟨b, (returned_eq w ok).trans hb, ?_, rfl, rfl, ?_, ?_, ?_, ?_⟩
  · exact congrArg (b :: ·) (filled_held w ok)
  · simp only [filled]
    split <;> simp_all
  all_goals
    simp only
    split <;> rfl

end FakeLibc.HwComposerTrace

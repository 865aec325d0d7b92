import FakeLibc.Lib.Run
import Mathlib.Logic.Function.Basic

namespace FakeLibc.WaylandWindow

/-- Buffers are named in the order of their creation. `other` is set in those
that `postBuffer` wraps, and `wlbuffer` says whether there is a `wl_buffer`. -/
structure Buf where
  width : Nat
  height : Nat
  format : Nat
  usage : Nat
  other : Option Nat
  wlbuffer : Bool
  busy : Bool
  youngest : Bool

structure Window where
  bufs : Nat → Buf
  next : Nat
  bufList : List Nat
  fronted : List Nat
  posted : List Nat
  postRegistered : List Nat
  queue : List Nat
  lastBuffer : Option Nat
  freeBufs : Int
  width : Nat
  height : Nat
  format : Nat
  usage : Nat
  windowWidth : Nat
  windowHeight : Nat
  frameCallback : Bool
  swapInterval : Nat

def grallocUsageHwTexture : Nat := 0x100

def grallocUsageHwRender : Nat := 0x200

def Window.modify (w : Window) (b : Nat) (f : Buf → Buf) : Window :=
  { w with bufs := Function.update w.bufs b (f (w.bufs b)) }

def Window.setBusy (w : Window) (b : Nat) (busy : Bool) : Window :=
  w.modify b (fun buf => { buf with busy := busy })

def Window.setYoungest (w : Window) (b : Nat) : Window :=
  { w with bufs := fun c =>
      if c = b then { w.bufs c with youngest := true }
      else if c ∈ w.bufList then { w.bufs c with youngest := false }
      else w.bufs c }

/-- The part of `releaseBuffer` for a buffer that `postBuffer` sent. -/
def Window.releasePosted (w : Window) (b : Nat) : Window :=
  { w with posted := w.posted.erase b }.setBusy b false

/-- The part of `releaseBuffer` for a buffer that `finishSwap` sent. -/
def Window.releaseFronted (w : Window) (b : Nat) : Window :=
  ({ w with
    fronted := w.fronted.erase b
    freeBufs := w.freeBufs + 1 }.setBusy b false).setYoungest b

/-- The first free buffer that is not the youngest, or else the first free one. -/
def Window.pick (w : Window) : Option Nat :=
  (w.bufList.find? (fun b => !(w.bufs b).busy && !(w.bufs b).youngest)).or
    (w.bufList.find? (fun b => !(w.bufs b).busy))

def Window.Fits (w : Window) (b : Nat) : Prop :=
  (w.bufs b).width = w.windowWidth ∧ (w.bufs b).height = w.windowHeight ∧
    (w.bufs b).format = w.format ∧ (w.bufs b).usage = w.usage

instance (w : Window) (b : Nat) : Decidable (w.Fits b) :=
  inferInstanceAs (Decidable ((w.bufs b).width = w.windowWidth ∧
    (w.bufs b).height = w.windowHeight ∧ (w.bufs b).format = w.format ∧
    (w.bufs b).usage = w.usage))

def Window.destroyBuffer (w : Window) (b : Nat) : Window :=
  { w with freeBufs := w.freeBufs - 1 }.modify b (fun buf => { buf with wlbuffer := false })

def Window.remove (w : Window) (b : Nat) : Window :=
  { w.destroyBuffer b with bufList := w.bufList.erase b }

/-- The first part of `addBuffer`: a new buffer, of the size that was set. -/
def Window.newBuffer (w : Window) : Window :=
  { w with
    next := w.next + 1
    bufs := Function.update w.bufs w.next
      ⟨w.width, w.height, 0, w.usage, none, false, false, false⟩ }

/-- The second part of `addBuffer`, once the server has said which format the
buffer has. -/
def Window.listBuffer (w : Window) (b format : Nat) : Window :=
  { w with bufList := w.bufList ++ [b], freeBufs := w.freeBufs + 1 }.modify b
    (fun buf => { buf with format := format })

def Window.handOut (w : Window) (b : Nat) : Window :=
  { w with queue := w.queue ++ [b], freeBufs := w.freeBufs - 1 }.setBusy b true

/-- What a shrinking list gives up from its front. The bound of the loop falls
with the length of the list. -/
def givenUp (cnt : Nat) : Nat → List Nat → List Nat
  | _, [] => []
  | i, b :: l => if i ≤ (b :: l).length - cnt then b :: givenUp cnt (i + 1) l else []

def Window.shrink (w : Window) (cnt : Nat) : Window :=
  let gone := givenUp cnt 0 w.bufList
  { gone.foldl Window.destroyBuffer w with bufList := w.bufList.drop gone.length }

def Window.cancel (w : Window) (b : Nat) : Window :=
  ({ w with freeBufs := w.freeBufs + 1 }.setBusy b false).setYoungest b

/-- What `finishSwap` finds in the deque. On an empty one `front()` yields
whatever lies there. -/
def Window.front (w : Window) (stale : Option Nat) : Option Nat := w.queue.head?.or stale

/-- `finishSwap` up to the dispatch. -/
def Window.takeFront (w : Window) (b : Nat) : Window :=
  { w with queue := w.queue.tail, lastBuffer := some b }.setBusy b true

/-- `finishSwap` from the dispatch on. -/
def Window.attach (w : Window) (b : Nat) : Window :=
  { w with
    frameCallback := w.frameCallback || decide (0 < w.swapInterval)
    fronted := w.fronted ++ [b] }.modify b (fun buf => { buf with wlbuffer := true })

/-- The wrapper that `postBuffer` uses for a buffer of somebody else. -/
def Window.registered (w : Window) (other : Nat) : Option Nat :=
  w.postRegistered.find? (fun b => (w.bufs b).other = some other)

def Window.wrap (w : Window) (other : Nat) : Window :=
  { w with
    next := w.next + 1
    bufs := Function.update w.bufs w.next ⟨0, 0, 0, 0, some other, false, false, false⟩ }

def Window.post (w : Window) (b : Nat) : Window :=
  { w with
    postRegistered := if (w.bufs b).wlbuffer then w.postRegistered else w.postRegistered ++ [b]
    posted := w.posted ++ [b] }.modify b (fun buf => { buf with wlbuffer := true })

inductive Purpose
  | dequeue
  | count (n : Nat)

/-- Where the calling thread is. All but `idle` are dispatches of the queue. -/
inductive Pc
  | idle
  | dequeueRead
  | adding (p : Purpose) (b : Nat)
  | swapRead (b : Nat)
  | swapWait (b : Nat)
  | postRead (b : Nat)

def Pc.dispatches : Pc → Bool
  | .idle => false
  | _ => true

/-- What a step does with the mutex and with the fields it guards. `leave` ends
`releaseBuffer`, which found the mutex held or not. -/
inductive LockEvent
  | lock
  | unlock
  | access
  | ret
  | leave (found : Bool)
deriving DecidableEq

inductive Fault
  | accessFree
  | unlockFree
  | returnHeld
  | leaveChanged
deriving DecidableEq

inductive Output
  | nothing
  | dequeued (b : Nat)
  | attached (b : Nat)
  | unswapped

structure State where
  win : Window
  pc : Pc
  locked : Bool
  faults : List Fault

structure Outcome where
  win : Window
  pc : Pc
  trace : List LockEvent
  out : Output

inductive Action
  | dequeueBuffer
  | queueBuffer (b : Nat)
  | cancelBuffer (b : Nat)
  | finishSwap (stale : Option Nat)
  | setBufferCount (cnt : Int)
  | setSwapInterval (interval : Int)
  | prepareSwap
  | postBuffer (other : Nat)
  | release (b : Nat)
  | frame
  | readReturns (error : Bool)
  | roundtripDone (format : Nat)
  | setBuffersFormat (format : Nat)
  | setUsage (usage : Nat)
  | setBuffersDimensions (width height : Nat)
  | resize (width height : Nat)

/-- A call of a locked function starts when the thread is idle and the mutex free. -/
def State.ready (s : State) : Bool := !s.pc.dispatches && !s.locked

/-- The rest of `dequeueBuffer` after a read. -/
def dequeueAfterRead (w : Window) : Outcome :=
  if w.freeBufs = 0 then ⟨w, .dequeueRead, [.access], .nothing⟩
  else
    match w.pick with
    | none => ⟨w, .idle, [.access, .unlock, .ret], .nothing⟩
    | some b =>
      if w.Fits b then ⟨w.handOut b, .idle, [.access, .unlock, .ret], .dequeued b⟩
      else
        ⟨(w.remove b).newBuffer, .adding .dequeue w.next, [.access], .nothing⟩

/-- The rest of `finishSwap` after its last read. -/
def swapAfterRead (w : Window) (b : Nat) (error : Bool) : Outcome :=
  if error then ⟨w, .idle, [.ret], .unswapped⟩
  else ⟨w.attach b, .idle, [.access, .unlock, .ret], .attached b⟩

def afterRead (w : Window) (error : Bool) : Pc → Option Outcome
  | .dequeueRead => some (dequeueAfterRead w)
  | .swapRead b =>
    some (if w.frameCallback then ⟨w, .swapWait b, [], .nothing⟩ else swapAfterRead w b error)
  | .swapWait b =>
    some (if w.frameCallback && !error then ⟨w, .swapWait b, [], .nothing⟩
      else swapAfterRead w b error)
  | .postRead b =>
    some (if error then ⟨w, .idle, [.unlock, .ret], .nothing⟩
      else ⟨w.post b, .idle, [.access, .unlock, .ret], .nothing⟩)
  | _ => none

def afterRoundtrip (w : Window) (format : Nat) : Pc → Option Outcome
  | .adding .dequeue b =>
    some ⟨(w.listBuffer b format).handOut b, .idle, [.access, .unlock, .ret], .dequeued b⟩
  | .adding (.count 0) b => some ⟨w.listBuffer b format, .idle, [.access, .unlock, .ret], .nothing⟩
  | .adding (.count (n + 1)) b =>
    some ⟨(w.listBuffer b format).newBuffer, .adding (.count n) w.next, [.access], .nothing⟩
  | _ => none

/-- A failed assertion ends the process. -/
def releaseBuffer (s : State) (b : Nat) : Option Outcome :=
  if (s.win.bufs b).wlbuffer then
    if b ∈ s.win.posted then
      some ⟨s.win.releasePosted b, s.pc, [.access, .unlock, .leave s.locked], .nothing⟩
    else if b ∈ s.win.fronted ∧ b ∈ s.win.bufList then
      some ⟨s.win.releaseFronted b, s.pc, [.access, .leave s.locked], .nothing⟩
    else none
  else none

/-- The list's length is read before the mutex is taken. -/
def setBufferCount (w : Window) (cnt : Int) : Outcome :=
  if cnt = w.bufList.length then ⟨w, .idle, [.access, .ret], .nothing⟩
  else if 0 ≤ cnt ∧ cnt < w.bufList.length then
    ⟨w.shrink cnt.toNat, .idle, [.access, .lock, .access, .unlock, .ret], .nothing⟩
  else
    match (cnt - w.bufList.length).toNat with
    | 0 => ⟨w, .idle, [.access, .lock, .access, .unlock, .ret], .nothing⟩
    | n + 1 => ⟨w.newBuffer, .adding (.count n) w.next, [.access, .lock, .access], .nothing⟩

/-- A failed assertion ends the process, and so does a pointer to what never was
a buffer. Where an empty deque yields a pointer the code pops the empty deque,
which leaves no state to go on from. -/
def finishSwap (w : Window) (stale : Option Nat) : Option Outcome :=
  ((w.front stale).or w.lastBuffer).bind (fun b =>
    if b < w.next ∧ (w.queue = [] → stale = none) then
      some ⟨w.takeFront b, .swapRead b, [.lock, .access], .nothing⟩
    else none)

def postBuffer (w : Window) (other : Nat) : Outcome :=
  match w.registered other with
  | some b => ⟨w.setBusy b true, .postRead b, [.lock, .unlock, .lock], .nothing⟩
  | none =>
    ⟨(w.wrap other).setBusy w.next true, .postRead w.next, [.lock, .unlock, .lock], .nothing⟩

def next (s : State) : Action → Option Outcome
  | .dequeueBuffer => if s.ready then some ⟨s.win, .dequeueRead, [.lock], .nothing⟩ else none
  | .queueBuffer _ =>
    if s.ready then some ⟨s.win, .idle, [.lock, .access, .unlock, .ret], .nothing⟩ else none
  | .cancelBuffer b =>
    if s.ready ∧ b ∈ s.win.bufList then
      some ⟨s.win.cancel b, .idle, [.lock, .access, .unlock, .ret], .nothing⟩
    else none
  | .finishSwap stale => if s.ready then finishSwap s.win stale else none
  | .setBufferCount cnt => if s.ready then some (setBufferCount s.win cnt) else none
  | .setSwapInterval interval =>
    if s.ready then
      some ⟨{ s.win with swapInterval := (min (max interval 0) 1).toNat }, .idle,
        [.lock, .unlock, .ret], .nothing⟩
    else none
  | .prepareSwap => if s.ready then some ⟨s.win, .idle, [.lock, .unlock, .ret], .nothing⟩ else none
  | .postBuffer other => if s.ready then some (postBuffer s.win other) else none
  | .release b => if s.pc.dispatches then releaseBuffer s b else none
  | .frame =>
    if s.pc.dispatches then some ⟨{ s.win with frameCallback := false }, s.pc, [], .nothing⟩
    else none
  | .readReturns error => afterRead s.win error s.pc
  | .roundtripDone format => afterRoundtrip s.win format s.pc
  | .setBuffersFormat format => some ⟨{ s.win with format := format }, s.pc, [], .nothing⟩
  | .setUsage usage =>
    some ⟨{ s.win with usage := usage ||| grallocUsageHwTexture }, s.pc, [], .nothing⟩
  | .setBuffersDimensions width height =>
    some ⟨{ s.win with width := width, height := height }, s.pc, [], .nothing⟩
  | .resize width height =>
    some ⟨{ s.win with windowWidth := width, windowHeight := height }, s.pc, [], .nothing⟩

/-- Whether the thread holds the mutex after a step, and what went wrong in it. -/
def replay : Bool → List LockEvent → Bool × List Fault
  | held, [] => (held, [])
  | _, .lock :: es => replay true es
  | held, .unlock :: es =>
    if held then replay false es else ((replay false es).1, .unlockFree :: (replay false es).2)
  | held, .access :: es =>
    if held then replay held es else ((replay held es).1, .accessFree :: (replay held es).2)
  | held, .ret :: es =>
    if held then ((replay held es).1, .returnHeld :: (replay held es).2) else replay held es
  | held, .leave found :: es =>
    if held = found then replay held es
    else ((replay held es).1, .leaveChanged :: (replay held es).2)

def State.advance (s : State) (o : Outcome) : State where
  win := o.win
  pc := o.pc
  locked := (replay s.locked o.trace).1
  faults := (replay s.locked o.trace).2 ++ s.faults

def step (s : State) (a : Action) : Option State := (next s a).map s.advance

/-- What the constructor leaves behind, up to its call of `setBufferCount`. -/
def start (width height : Nat) : State where
  win :=
    { bufs := fun _ => ⟨0, 0, 0, 0, none, false, false, false⟩, next := 0, bufList := []
      fronted := [], posted := [], postRegistered := [], queue := [], lastBuffer := none
      freeBufs := 0, width := width, height := height, format := 1
      usage := grallocUsageHwRender ||| grallocUsageHwTexture, windowWidth := width
      windowHeight := height, frameCallback := false, swapInterval := 1 }
  pc := .idle
  locked := false
  faults := []

end FakeLibc.WaylandWindow

import FakeLibc.Lib.Run
import FakeLibc.Lib.RefCount

namespace FakeLibc.FbDevWindow

open FakeLibc.Lib.RefCount

abbrev Buffer := Nat

/-- The window of `fbdev_window.cpp` and the calls in flight: `waitFree` and
`waitBuf` dequeues wait in the first and in the second loop, `held` buffers are
dequeued, and `posting` ones are between the two locked parts of `queueBuffer`. -/
structure Window where
  usage : Nat
  bufFormat : Nat
  bufferCount : Nat
  freeBufs : Int
  allocateBuffers : Bool
  bufs : Pool
  frontBuf : Option Buffer
  busy : Buffer → Nat
  waitFree : Nat
  waitBuf : Nat
  held : List Buffer
  posting : List Buffer

def destroyBuffers (w : Window) : Window :=
  { w with bufs := w.bufs.clear, freeBufs := 0, frontBuf := none }

/-- `ok` allocations succeed before one fails. -/
def reallocateBuffers (w : Window) (ok : Nat) : Window :=
  let w := destroyBuffers w
  let bufs := w.bufs.fill w.bufferCount ok
  { w with
    bufs := bufs
    freeBufs := bufs.list.length
    busy := fun b => if b ∈ bufs.list then 0 else w.busy b
    allocateBuffers := false }

def freeNonFront (w : Window) : Option Buffer :=
  w.bufs.list.find? (fun b => w.frontBuf ≠ some b ∧ w.busy b = 0)

/-- The front buffer, which only a build for an old Android hands out. -/
def freeFront (legacy : Bool) (w : Window) : Option Buffer :=
  if legacy then w.frontBuf.filter (fun b => w.busy b = 0) else none

def handOut (w : Window) (b : Buffer) : Window :=
  { w with
    busy := Function.update w.busy b 1
    freeBufs := w.freeBufs - 1
    held := b :: w.held }

def take (legacy : Bool) (w : Window) : Window :=
  match (freeNonFront w).or (freeFront legacy w) with
  | some b => handOut w b
  | none => { w with waitBuf := w.waitBuf + 1 }

def awaitFree (legacy : Bool) (w : Window) : Window :=
  if w.freeBufs = 0 then { w with waitFree := w.waitFree + 1 } else take legacy w

/-- The locked part of `dequeueBuffer` up to its return or its first wait. -/
def dequeueBuffer (legacy : Bool) (w : Window) (ok : Nat) : Window :=
  awaitFree legacy (if w.allocateBuffers then reallocateBuffers w ok else w)

/-- The first locked part of `queueBuffer`. -/
def queueBuffer (w : Window) (b : Buffer) : Window :=
  { w with
    busy := Function.update w.busy b 2
    held := w.held.erase b
    posting := b :: w.posting }

/-- The second locked part, once the frame buffer device has the buffer. -/
def posted (w : Window) (b : Buffer) : Window :=
  { w with
    busy := Function.update w.busy b 0
    frontBuf := some b
    freeBufs := w.freeBufs + 1
    posting := w.posting.erase b }

def cancelBuffer (w : Window) (b : Buffer) : Window :=
  { w with
    busy := Function.update w.busy b 0
    freeBufs := w.freeBufs + 1
    held := w.held.erase b }

/-- The request to allocate is overwritten, not added to. -/
def setUsage (w : Window) (usage : Nat) : Window :=
  { w with allocateBuffers := w.usage ≠ usage, usage := usage }

def setBuffersFormat (w : Window) (format : Nat) : Window :=
  { w with
    allocateBuffers := w.allocateBuffers || decide (format ≠ w.bufFormat)
    bufFormat := format }

/-- Counts are compared and kept as unsigned values. -/
def setBufferCount (w : Window) (cnt : Nat) : Window :=
  if w.bufferCount ≠ cnt then { w with bufferCount := cnt, allocateBuffers := true } else w

/-- A thread that waits may wake at any time. -/
inductive Call
  | dequeueBuffer (ok : Nat)
  | wakeFree
  | wakeBuf
  | queueBuffer (b : Buffer)
  | posted (b : Buffer)
  | cancelBuffer (b : Buffer)
  | setUsage (usage : Nat)
  | setBuffersFormat (format : Nat)
  | setBufferCount (cnt : Nat)
deriving DecidableEq

/-- A client returns only what it has dequeued. The assertion of `queueBuffer`
ends the process, and the run with it. -/
def Enabled (w : Window) : Call → Prop
  | .wakeFree => 0 < w.waitFree
  | .wakeBuf => 0 < w.waitBuf
  | .queueBuffer b => b ∈ w.held ∧ w.busy b = 1
  | .posted b => b ∈ w.posting
  | .cancelBuffer b => b ∈ w.held
  | _ => True

instance (w : Window) : (c : Call) → Decidable (Enabled w c)
  | .wakeFree => inferInstanceAs (Decidable (0 < w.waitFree))
  | .wakeBuf => inferInstanceAs (Decidable (0 < w.waitBuf))
  | .queueBuffer b => inferInstanceAs (Decidable (b ∈ w.held ∧ w.busy b = 1))
  | .posted b => inferInstanceAs (Decidable (b ∈ w.posting))
  | .cancelBuffer b => inferInstanceAs (Decidable (b ∈ w.held))
  | .dequeueBuffer _ => .isTrue trivial
  | .setUsage _ => .isTrue trivial
  | .setBuffersFormat _ => .isTrue trivial
  | .setBufferCount _ => .isTrue trivial

def perform (legacy : Bool) (w : Window) : Call → Window
  | .dequeueBuffer ok => dequeueBuffer legacy w ok
  | .wakeFree => awaitFree legacy { w with waitFree := w.waitFree - 1 }
  | .wakeBuf => take legacy { w with waitBuf := w.waitBuf - 1 }
  | .queueBuffer b => queueBuffer w b
  | .posted b => posted w b
  | .cancelBuffer b => cancelBuffer w b
  | .setUsage usage => setUsage w usage
  | .setBuffersFormat format => setBuffersFormat w format
  | .setBufferCount cnt => setBufferCount w cnt

def step (legacy : Bool) (w : Window) (c : Call) : Option Window :=
  if Enabled w c then some (perform legacy w c) else none

/-- What the constructor does not initialise. -/
structure Garbage where
  freeBufs : Int
  frontBuf : Option Buffer
  busy : Buffer → Nat

def fbDevNativeWindow (g : Garbage) (usage format framebuffers : Nat) : Window :=
  setBufferCount
    { usage := usage, bufFormat := format, bufferCount := 0, freeBufs := g.freeBufs
      allocateBuffers := true, bufs := Pool.empty, frontBuf := g.frontBuf, busy := g.busy
      waitFree := 0, waitBuf := 0, held := [], posting := [] }
    framebuffers

def outstanding (w : Window) : List Buffer := w.held ++ w.posting

end FakeLibc.FbDevWindow

import FakeLibc.Lib.Run
import FakeLibc.Lib.RefCount

namespace FakeLibc.HwComposerWindow

open FakeLibc.Lib.RefCount

abbrev Buffer := Nat

/-- The window of `hwcomposer_window.cpp`. Nothing marks a buffer as handed
out, so `held` has one entry for each dequeue. -/
structure Window where
  usage : Nat
  bufFormat : Nat
  bufferCount : Nat
  bufs : Pool
  nextBuffer : Nat
  fenceFd : Buffer → Int
  held : List Buffer

def destroyBuffers (w : Window) : Window := { w with bufs := w.bufs.clear, nextBuffer := 0 }

/-- `ok` allocations succeed before one fails. -/
def allocateBuffers (w : Window) (ok : Nat) : Window :=
  { w with
    bufs := w.bufs.fill w.bufferCount ok
    fenceFd := fun b => if w.bufs.next ≤ b then -1 else w.fenceFd b
    nextBuffer := 0 }

/-- The two assertions end the process. -/
def dequeueBuffer (w : Window) (ok : Nat) : Option Window :=
  let w := if w.bufs.list.isEmpty then allocateBuffers w ok else w
  (w.bufs.list[w.nextBuffer]?).map (fun b =>
    { w with
      nextBuffer := if w.bufs.list.length ≤ w.nextBuffer + 1 then 0 else w.nextBuffer + 1
      fenceFd := if w.fenceFd b ≠ -1 then Function.update w.fenceFd b (-1) else w.fenceFd
      held := b :: w.held })

/-- `present` may leave another fence than the one it is given. -/
def queueBuffer (w : Window) (b : Buffer) (fenceFd : Int) (present : Int → Int) : Option Window :=
  if w.fenceFd b = -1 then
    some { w with fenceFd := Function.update w.fenceFd b (present fenceFd), held := w.held.erase b }
  else none

def cancelBuffer (w : Window) (b : Buffer) (fenceFd : Int) : Window :=
  { w with fenceFd := Function.update w.fenceFd b fenceFd, held := w.held.erase b }

/-- `flags` is `GRALLOC_USAGE_HW_COMPOSER | GRALLOC_USAGE_HW_FB`. -/
def setUsage (flags : Nat) (w : Window) (usage : Nat) : Window :=
  let usage := usage ||| flags
  let needRealloc := w.usage ≠ usage
  let w := { w with usage := usage }
  if needRealloc then destroyBuffers w else w

def setBuffersFormat (w : Window) (format : Nat) : Window :=
  let needRealloc := format ≠ w.bufFormat
  let w := { w with bufFormat := format }
  if needRealloc then destroyBuffers w else w

def setBufferCount (w : Window) (count : Nat) : Window :=
  { if count ≠ w.bufferCount then destroyBuffers w else w with bufferCount := count }

inductive Call
  | dequeueBuffer (ok : Nat)
  | queueBuffer (b : Buffer) (fenceFd : Int) (present : Int → Int)
  | cancelBuffer (b : Buffer) (fenceFd : Int)
  | setUsage (usage : Nat)
  | setBuffersFormat (format : Nat)
  | setBufferCount (count : Nat)

/-- A client returns only what it has dequeued. A failed assertion ends the
process, and the run with it. -/
def step (flags : Nat) (w : Window) : Call → Option Window
  | .dequeueBuffer ok => dequeueBuffer w ok
  | .queueBuffer b fenceFd present =>
    if b ∈ w.held then queueBuffer w b fenceFd present else none
  | .cancelBuffer b fenceFd => if b ∈ w.held then some (cancelBuffer w b fenceFd) else none
  | .setUsage usage => some (setUsage flags w usage)
  | .setBuffersFormat format => some (setBuffersFormat w format)
  | .setBufferCount count => some (setBufferCount w count)

def hwComposerNativeWindow (flags format : Nat) : Window where
  usage := flags
  bufFormat := format
  bufferCount := 2
  bufs := Pool.empty
  nextBuffer := 0
  fenceFd := fun _ => -1
  held := []

end FakeLibc.HwComposerWindow

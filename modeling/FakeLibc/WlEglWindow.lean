import FakeLibc.Egl
import FakeLibc.Lib.MutualLinks

namespace FakeLibc.WlEglWindow

open FakeLibc.Lib.Run FakeLibc.Lib.MutualLinks FakeLibc.Egl

abbrev Dim := BitVec 32

/-- `struct wl_egl_window`. A callback is that of `WaylandNativeWindow` or null. -/
structure EglWindow where
  surface : Nat
  width : Dim
  height : Dim
  dx : Dim
  dy : Dim
  attachedWidth : Dim
  attachedHeight : Dim
  nativewindow : Option EGLNativeWindowType
  resizeCallback : Bool
  freeCallback : Bool

/-- What a `WaylandNativeWindow` has beside its buffers. -/
structure NativeWindow where
  window : Option Ptr
  width : Dim
  height : Dim
  defaultWidth : Dim
  defaultHeight : Dim
  swapInterval : Int
  refcount : Int

inductive Fault
  | freedEglWindow
  | freedNativeWindow
  | nullPointer
  | abort
deriving DecidableEq

/-- Both kinds of windows are numbered as they are made, and no number is used
again. `held` counts the references that the wrapped library has. -/
structure State where
  surfaces : Surfaces
  eglWindows : Ptr → Option EglWindow
  made : Nat
  windows : EGLNativeWindowType → Option NativeWindow
  held : EGLNativeWindowType → Nat
  fault : Option Fault

def State.putEglWindow (s : State) (p : Ptr) (e : Option EglWindow) : State :=
  { s with eglWindows := Function.update s.eglWindows p e }

def State.putWindow (s : State) (w : EGLNativeWindowType) (n : Option NativeWindow) : State :=
  { s with windows := Function.update s.windows w n }

def State.eglWindow (s : State) (p : Ptr) : Except Fault EglWindow :=
  (s.eglWindows p).elim (.error .freedEglWindow) .ok

def State.window (s : State) (w : EGLNativeWindowType) : Except Fault NativeWindow :=
  (s.windows w).elim (.error .freedNativeWindow) .ok

def pointee {α : Type} (p : Option α) : Except Fault α := p.elim (.error .nullPointer) .ok

def resizeCallback (s : State) (e : EglWindow) : Except Fault State := do
  let w ← pointee e.nativewindow
  let n ← s.window w
  return s.putWindow w (some { n with defaultWidth := e.width, defaultHeight := e.height })

def freeCallback (s : State) (e : EglWindow) : Except Fault State := do
  let w ← pointee e.nativewindow
  let n ← s.window w
  return s.putWindow w (some { n with window := none })

def wlEglWindowResize (s : State) (p : Ptr) (width height dx dy : Dim) : Except Fault State := do
  let e ← s.eglWindow p
  let e := { e with width := width, height := height, dx := dx, dy := dy }
  let s := s.putEglWindow p (some e)
  if e.resizeCallback then resizeCallback s e else return s

/-- The callbacks are null before the size is set. -/
def wlEglWindowCreate (s : State) (surface : Nat) (width height : Dim) : State :=
  { s.putEglWindow s.made (some ⟨surface, width, height, 0, 0, 0, 0, none, false, false⟩) with
    made := s.made + 1 }

def wlEglWindowDestroy (s : State) (p : Ptr) : Except Fault State := do
  let e ← s.eglWindow p
  let s ← if e.freeCallback then freeCallback s e else pure s
  return s.putEglWindow p none

def wlEglWindowGetAttachedSize (s : State) (p : Ptr) : Except Fault (Dim × Dim) := do
  let e ← s.eglWindow p
  return (e.attachedWidth, e.attachedHeight)

def construct (s : State) (w : EGLNativeWindowType) (p : Ptr) : Except Fault State := do
  let e ← s.eglWindow p
  let s := s.putEglWindow p
    (some { e with nativewindow := some w, resizeCallback := true, freeCallback := true })
  return s.putWindow w (some ⟨some p, e.width, e.height, e.width, e.height, 1, 0⟩)

/-- The destructor `~WaylandNativeWindow`, and the end of the window. -/
def destruct (s : State) (w : EGLNativeWindowType) : Except Fault State := do
  let n ← s.window w
  let s ← match n.window with
    | none => pure s
    | some p => do
      let e ← s.eglWindow p
      pure (s.putEglWindow p
        (some { e with nativewindow := none, resizeCallback := false, freeCallback := false }))
  return s.putWindow w none

def incRef (s : State) (w : EGLNativeWindowType) : Except Fault State := do
  let n ← s.window w
  return s.putWindow w (some { n with refcount := n.refcount + 1 })

def decRef (s : State) (w : EGLNativeWindowType) : Except Fault State := do
  let n ← s.window w
  let s := s.putWindow w (some { n with refcount := n.refcount - 1 })
  if n.refcount = 1 then destruct s w else return s

def waylandwsCreateWindow (s : State) (w : EGLNativeWindowType) (win : Option Ptr)
    (display : Option Ptr) : Except Fault State :=
  match win, display with
  | some p, some _ => do
    let s ← construct s w p
    incRef s w
  | _, _ => .error .abort

def waylandwsDestroyWindow (s : State) (w : EGLNativeWindowType) : Except Fault State := decRef s w

/-- `display` is the mapping of the display, `result` what the wrapped function answers. -/
def eglCreateWindowSurface (s : State) (win display : Option Ptr) (result : EGLSurface) :
    Except Fault State := do
  let t ← waylandwsCreateWindow s s.surfaces.created win display
  return { t with surfaces := createOn t.surfaces result }

def eglDestroySurface (s : State) (surface : EGLSurface) (result : Bool) : Except Fault State :=
  let t := { s with surfaces := Egl.eglDestroySurface s.surfaces surface result }
  match s.surfaces.surfaceWindowMap surface with
  | none => .ok t
  | some w => waylandwsDestroyWindow t w

def setSwapInterval (s : State) (w : EGLNativeWindowType) (interval : Int) :
    Except Fault State := do
  let n ← s.window w
  return s.putWindow w (some { n with swapInterval := min (max interval 0) 1 })

def eglSwapInterval (s : State) (surface : EGLSurface) (interval : Int) : Except Fault State :=
  match s.surfaces.surfaceWindowMap surface with
  | none => .ok s
  | some w => setSwapInterval s w interval

/-- `buffer` is the size of the buffer, or `none` when the queue cannot be read. -/
def finishSwap (s : State) (w : EGLNativeWindowType) (buffer : Option (Dim × Dim)) :
    Except Fault State := do
  let n ← s.window w
  match buffer with
  | none => return s
  | some (width, height) =>
    let p ← pointee n.window
    let e ← s.eglWindow p
    return s.putEglWindow p (some { e with attachedWidth := width, attachedHeight := height })

def eglSwapBuffers (s : State) (surface : EGLSurface) (buffer : Option (Dim × Dim)) :
    Except Fault State :=
  match s.surfaces.surfaceWindowMap surface with
  | none => .ok s
  | some w => do
    let _ ← s.window w
    finishSwap s w buffer

/-- The size that `dequeueBuffer` compares with, if there is a free buffer. -/
def dequeueBuffer (s : State) (w : EGLNativeWindowType) (free : Bool) : Except Fault State := do
  let n ← s.window w
  if free then
    let p ← pointee n.window
    let _ ← s.eglWindow p
    return s
  else return s

def waylandwsPost (s : State) (p : Ptr) (read : Bool) : Except Fault State := do
  let e ← s.eglWindow p
  let w ← pointee e.nativewindow
  let n ← s.window w
  if read then
    let p ← pointee n.window
    let _ ← s.eglWindow p
    return s
  else return s

inductive Action
  | wlEglWindowCreate (surface : Nat) (width height : Dim)
  | wlEglWindowResize (p : Ptr) (width height dx dy : Dim)
  | wlEglWindowDestroy (p : Ptr)
  | wlEglWindowGetAttachedSize (p : Ptr)
  | eglCreateWindowSurface (win display : Option Ptr) (result : EGLSurface)
  | eglDestroySurface (surface : EGLSurface) (result : Bool)
  | eglSwapInterval (surface : EGLSurface) (interval : Int)
  | eglSwapBuffers (surface : EGLSurface) (buffer : Option (Dim × Dim))
  | waylandwsPost (p : Ptr) (read : Bool)
  | incRef (w : EGLNativeWindowType)
  | decRef (w : EGLNativeWindowType)
  | dequeueBuffer (w : EGLNativeWindowType) (free : Bool)

/-- The wrapped library gives back only references it has taken, and uses a
window only while it has one. -/
def Enabled (s : State) : Action → Prop
  | .incRef w => (s.windows w).isSome
  | .decRef w => 0 < s.held w
  | .dequeueBuffer w _ => 0 < s.held w
  | _ => True

instance (s : State) : (a : Action) → Decidable (Enabled s a)
  | .incRef w => inferInstanceAs (Decidable ((s.windows w).isSome = true))
  | .decRef w => inferInstanceAs (Decidable (0 < s.held w))
  | .dequeueBuffer w _ => inferInstanceAs (Decidable (0 < s.held w))
  | .wlEglWindowCreate _ _ _ => .isTrue trivial
  | .wlEglWindowResize _ _ _ _ _ => .isTrue trivial
  | .wlEglWindowDestroy _ => .isTrue trivial
  | .wlEglWindowGetAttachedSize _ => .isTrue trivial
  | .eglCreateWindowSurface _ _ _ => .isTrue trivial
  | .eglDestroySurface _ _ => .isTrue trivial
  | .eglSwapInterval _ _ => .isTrue trivial
  | .eglSwapBuffers _ _ => .isTrue trivial
  | .waylandwsPost _ _ => .isTrue trivial

def perform (s : State) : Action → Except Fault State
  | .wlEglWindowCreate surface width height => .ok (wlEglWindowCreate s surface width height)
  | .wlEglWindowResize p width height dx dy => wlEglWindowResize s p width height dx dy
  | .wlEglWindowDestroy p => wlEglWindowDestroy s p
  | .wlEglWindowGetAttachedSize p => (wlEglWindowGetAttachedSize s p).map (fun _ => s)
  | .eglCreateWindowSurface win display result => eglCreateWindowSurface s win display result
  | .eglDestroySurface surface result => eglDestroySurface s surface result
  | .eglSwapInterval surface interval => eglSwapInterval s surface interval
  | .eglSwapBuffers surface buffer => eglSwapBuffers s surface buffer
  | .waylandwsPost p read => waylandwsPost s p read
  | .incRef w => incRef { s with held := Function.update s.held w (s.held w + 1) } w
  | .decRef w => decRef { s with held := Function.update s.held w (s.held w - 1) } w
  | .dequeueBuffer w free => dequeueBuffer s w free

def settle (s : State) : Except Fault State → State
  | .ok t => t
  | .error f => { s with fault := some f }

def step (s : State) (a : Action) : Option State :=
  if s.fault = none ∧ s.surfaces.aborted = false ∧ Enabled s a then some (settle s (perform s a))
  else none

def start : State := ⟨Egl.start.surfaces, fun _ => none, 0, fun _ => none, fun _ => 0, none⟩

end FakeLibc.WlEglWindow

import FakeLibc.Egl

namespace FakeLibc.SingleWindow

open FakeLibc.Lib.Run FakeLibc.Egl

inductive Platform
  | fbdev
  | hwcomposer
deriving DecidableEq

inductive Fault
  | abort
  | freedWindow
deriving DecidableEq

/-- Windows are numbered as they are made, up to `surfaces.created`: the fbdev
platform makes its own, and the client those of the other one. A window that was
not deleted has a reference count. `held` counts the references of the wrapped
library, and `unused` are the windows that got no surface yet. -/
structure State where
  surfaces : Surfaces
  nativewindow : Option EGLNativeWindowType
  windows : EGLNativeWindowType → Option Int
  held : EGLNativeWindowType → Nat
  unused : EGLNativeWindowType → Bool
  fault : Option Fault

def State.refcount (s : State) (w : EGLNativeWindowType) : Except Fault Int :=
  (s.windows w).elim (.error .freedWindow) .ok

def incRef (s : State) (w : EGLNativeWindowType) : Except Fault State := do
  let n ← s.refcount w
  return { s with windows := Function.update s.windows w (some (n + 1)) }

def decRef (s : State) (w : EGLNativeWindowType) : Except Fault State := do
  let n ← s.refcount w
  return { s with windows := Function.update s.windows w (if n = 1 then none else some (n - 1)) }

def newWindow (s : State) : State :=
  { s with
    surfaces := { s.surfaces with created := s.surfaces.created + 1 }
    windows := Function.update s.windows s.surfaces.created (some 0) }

def hwcNativeWindowCreate (s : State) : State :=
  { newWindow s with unused := Function.update s.unused s.surfaces.created true }

def fbdevwsCreateWindow (s : State) : Except Fault (State × EGLNativeWindowType) :=
  if s.nativewindow = none then do
    let w := s.surfaces.created
    let t ← incRef { newWindow s with nativewindow := some w } w
    return (t, w)
  else .error .abort

/-- `setup` writes to the window. -/
def hwcomposerwsCreateWindow (s : State) (win : EGLNativeWindowType) :
    Except Fault (State × EGLNativeWindowType) :=
  if s.nativewindow = none then do
    let _ ← s.refcount win
    let s := { s with unused := Function.update s.unused win false }
    let t ← incRef { s with nativewindow := some win } win
    return (t, win)
  else .error .abort

/-- The two platforms have the same function. -/
def wsDestroyWindow (s : State) (win : EGLNativeWindowType) : Except Fault State :=
  if s.nativewindow = some win then do
    let t ← decRef s win
    return { t with nativewindow := none }
  else .error .abort

def fbdevwsDestroyWindow := wsDestroyWindow

def hwcomposerwsDestroyWindow := wsDestroyWindow

def fbdevwsSetSwapInterval (s : State) (win : EGLNativeWindowType) : Except Fault State := do
  let _ ← s.refcount win
  return s

def createWindow (s : State) (win : EGLNativeWindowType) :
    Platform → Except Fault (State × EGLNativeWindowType)
  | .fbdev => fbdevwsCreateWindow s
  | .hwcomposer => hwcomposerwsCreateWindow s win

def destroyWindow (s : State) (win : EGLNativeWindowType) : Platform → Except Fault State
  | .fbdev => fbdevwsDestroyWindow s win
  | .hwcomposer => hwcomposerwsDestroyWindow s win

/-- The hwcomposer platform has no such function. -/
def setSwapInterval (s : State) (win : EGLNativeWindowType) : Platform → Except Fault State
  | .fbdev => fbdevwsSetSwapInterval s win
  | .hwcomposer => .ok s

def eglCreateWindowSurface (platform : Platform) (s : State) (win : EGLNativeWindowType)
    (result : EGLSurface) : Except Fault State := do
  let (t, w) ← createWindow s win platform
  let surfaces := eglHelperPushMapping (wrappedCreate t.surfaces w result) result w
  if surfaces.aborted then .error .abort else return { t with surfaces := surfaces }

def eglDestroySurface (platform : Platform) (s : State) (surface : EGLSurface) (result : Bool) :
    Except Fault State :=
  let t := { s with surfaces := Egl.eglDestroySurface s.surfaces surface result }
  match s.surfaces.surfaceWindowMap surface with
  | none => .ok t
  | some w => destroyWindow t w platform

/-- `surface` is the current one. -/
def eglSwapInterval (platform : Platform) (s : State) (surface : EGLSurface) :
    Except Fault State :=
  match s.surfaces.surfaceWindowMap surface with
  | none => .ok s
  | some w => setSwapInterval s w platform

inductive Action
  | hwcNativeWindowCreate
  | eglCreateWindowSurface (win : EGLNativeWindowType) (result : EGLSurface)
  | eglDestroySurface (surface : EGLSurface) (result : Bool)
  | eglSwapInterval (surface : EGLSurface)
  | incRef (w : EGLNativeWindowType)
  | decRef (w : EGLNativeWindowType)
  | use (w : EGLNativeWindowType)
deriving DecidableEq

/-- The wrapped library knows the window of the surface and those it holds. -/
def enabled (platform : Platform) (s : State) : Action → Bool
  | .hwcNativeWindowCreate => decide (platform = .hwcomposer)
  | .incRef w => decide (s.nativewindow = some w ∨ 0 < s.held w)
  | .decRef w => decide (0 < s.held w)
  | .use w => decide (0 < s.held w)
  | _ => true

def perform (platform : Platform) (s : State) : Action → Except Fault State
  | .hwcNativeWindowCreate => .ok (hwcNativeWindowCreate s)
  | .eglCreateWindowSurface win result => eglCreateWindowSurface platform s win result
  | .eglDestroySurface surface result => eglDestroySurface platform s surface result
  | .eglSwapInterval surface => eglSwapInterval platform s surface
  | .incRef w => incRef { s with held := Function.update s.held w (s.held w + 1) } w
  | .decRef w => decRef { s with held := Function.update s.held w (s.held w - 1) } w
  | .use w => (s.refcount w).map (fun _ => s)

def settle (s : State) : Except Fault State → State
  | .ok t => t
  | .error f => { s with fault := some f }

def step (platform : Platform) (s : State) (a : Action) : Option State :=
  if s.fault = none ∧ enabled platform s a = true then some (settle s (perform platform s a))
  else none

def start : State :=
  ⟨Egl.start.surfaces, none, fun _ => none, fun _ => 0, fun _ => false, none⟩

end FakeLibc.SingleWindow

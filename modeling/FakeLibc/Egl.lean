import FakeLibc.Lib.Run
import Mathlib.Logic.Function.Basic

namespace FakeLibc.Egl

abbrev EGLDisplay := Nat

abbrev EGLSurface := Nat

abbrev EGLNativeDisplayType := Nat

abbrev EGLNativeWindowType := Nat

abbrev Ptr := Nat

def eglNoDisplay : EGLDisplay := 0

def eglNoSurface : EGLSurface := 0

/-- The array `_displayMappings`, with `none` for a null slot. -/
@[ext] structure Mappings where
  slots : List (Option Ptr)
  length_eq : slots.length = 100

/-- The table, the memory its pointers lead to, and what becomes of the
displays of the window system. `tenant` is the last display made at an address. -/
structure Displays where
  mappings : Mappings
  dpy : Ptr → EGLDisplay
  tenant : Ptr → Option Nat
  made : Nat
  terminated : List Nat
  passed : List (Option Ptr × Bool)

/-- The map of `helper.cpp`, and what becomes of the windows and surfaces. -/
structure Surfaces where
  surfaceWindowMap : EGLSurface → Option EGLNativeWindowType
  created : Nat
  destroyed : List EGLNativeWindowType
  live : EGLSurface → Option EGLNativeWindowType
  aborted : Bool

structure State where
  displays : Displays
  surfaces : Surfaces

def Displays.Live (d : Displays) (p : Ptr) : Prop := ∃ k ∈ d.tenant p, k ∉ d.terminated

instance (d : Displays) (p : Ptr) : Decidable (d.Live p) :=
  match h : d.tenant p with
  | none => .isFalse (by simp [Displays.Live, h])
  | some k => decidable_of_iff (k ∉ d.terminated) (by simp [Displays.Live, h])

/-- The loop stops at the first null slot, and drops the pointer if there is
none. -/
def addFirst (p : Ptr) : List (Option Ptr) → List (Option Ptr)
  | [] => []
  | none :: slots => some p :: slots
  | some q :: slots => some q :: addFirst p slots

theorem length_addFirst (p : Ptr) (slots : List (Option Ptr)) :
    (addFirst p slots).length = slots.length := by
  induction slots with
  | nil => rfl
  | cons slot slots ih => cases slot <;> simp [addFirst, ih]

def addMapping (table : Mappings) (p : Ptr) : Mappings :=
  ⟨addFirst p table.slots, by rw [length_addFirst, table.length_eq]⟩

def hybrisEglDisplayGetMapping (d : Displays) (display : EGLDisplay) : Option Ptr :=
  d.mappings.slots.findSome? (fun slot => slot.filter (fun p => d.dpy p = display))

def Displays.make (d : Displays) (p : Ptr) : Displays :=
  { d with tenant := Function.update d.tenant p (some d.made), made := d.made + 1 }

def Displays.pass (d : Displays) (display : Option Ptr) : Displays :=
  { d with passed := (display, display.any (fun p => d.Live p)) :: d.passed }

def wsTerminate (d : Displays) (display : Option Ptr) : Displays :=
  { d.pass display with terminated := (display.bind d.tenant).toList ++ d.terminated }

/-- `real` is what the wrapped `eglGetDisplay` answers. -/
def eglGetDisplay (d : Displays) (wsGetDisplay : EGLNativeDisplayType → Option Ptr)
    (displayId : EGLNativeDisplayType) (real : EGLDisplay) : Displays × EGLDisplay :=
  if real = eglNoDisplay then (d, eglNoDisplay)
  else
    match hybrisEglDisplayGetMapping d real with
    | some _ => (d, real)
    | none =>
      match wsGetDisplay displayId with
      | none => (d, eglNoDisplay)
      | some p =>
        ({ d.make p with
            dpy := Function.update d.dpy p real
            mappings := addMapping d.mappings p }, real)

def eglTerminate (d : Displays) (dpy : EGLDisplay) : Displays :=
  wsTerminate d (hybrisEglDisplayGetMapping d dpy)

def eglHelperHasMapping (s : Surfaces) (surface : EGLSurface) : Bool :=
  (s.surfaceWindowMap surface).isSome

/-- The assertion fails when the surface is in the map already. -/
def eglHelperPushMapping (s : Surfaces) (surface : EGLSurface)
    (window : EGLNativeWindowType) : Surfaces :=
  if eglHelperHasMapping s surface then { s with aborted := true }
  else { s with surfaceWindowMap := Function.update s.surfaceWindowMap surface (some window) }

def eglHelperPopMapping (s : Surfaces) (surface : EGLSurface) : Surfaces :=
  { s with surfaceWindowMap := Function.update s.surfaceWindowMap surface none }

def wsDestroyWindow (s : Surfaces) (window : EGLNativeWindowType) : Surfaces :=
  { s with destroyed := window :: s.destroyed }

/-- The wrapped `eglCreateWindowSurface` makes `result` a live surface on the
window, or fails. -/
def wrappedCreate (s : Surfaces) (window : EGLNativeWindowType) (result : EGLSurface) : Surfaces :=
  if result = eglNoSurface then s
  else { s with live := Function.update s.live result (some window) }

def wrappedDestroy (s : Surfaces) (surface : EGLSurface) (result : Bool) : Surfaces :=
  if result then { s with live := Function.update s.live surface none } else s

def createOn (s : Surfaces) (result : EGLSurface) : Surfaces :=
  eglHelperPushMapping (wrappedCreate { s with created := s.created + 1 } s.created result)
    result s.created

def eglCreateWindowSurface (s : State) (dpy : EGLDisplay) (result : EGLSurface) : State :=
  ⟨s.displays.pass (hybrisEglDisplayGetMapping s.displays dpy), createOn s.surfaces result⟩

def eglDestroySurface (s : Surfaces) (surface : EGLSurface) (result : Bool) : Surfaces :=
  let s := wrappedDestroy s surface result
  match s.surfaceWindowMap surface with
  | none => s
  | some window => wsDestroyWindow (eglHelperPopMapping s surface) window

/-- A call with what the wrapped library and the window system answer, or a
write to memory that no display of the window system occupies. -/
inductive Call
  | eglGetDisplay (wsGetDisplay : EGLNativeDisplayType → Option Ptr)
      (displayId : EGLNativeDisplayType) (real : EGLDisplay)
  | eglTerminate (dpy : EGLDisplay)
  | eglCreateWindowSurface (dpy : EGLDisplay) (result : EGLSurface)
  | eglDestroySurface (surface : EGLSurface) (result : Bool)
  | scribble (p : Ptr) (dpy : EGLDisplay)

/-- The window system makes a new display where none lives. -/
def Enabled (s : State) : Call → Prop
  | .eglGetDisplay wsGetDisplay displayId _ =>
    ∀ p ∈ wsGetDisplay displayId, ¬ s.displays.Live p
  | .scribble p _ => ¬ s.displays.Live p
  | _ => True

instance (s : State) : (c : Call) → Decidable (Enabled s c)
  | .eglGetDisplay wsGetDisplay displayId _ =>
    inferInstanceAs (Decidable (∀ p ∈ wsGetDisplay displayId, ¬ s.displays.Live p))
  | .scribble p _ => inferInstanceAs (Decidable (¬ s.displays.Live p))
  | .eglTerminate _ => .isTrue trivial
  | .eglCreateWindowSurface _ _ => .isTrue trivial
  | .eglDestroySurface _ _ => .isTrue trivial

def perform (s : State) : Call → State
  | .eglGetDisplay wsGetDisplay displayId real =>
    { s with displays := (eglGetDisplay s.displays wsGetDisplay displayId real).1 }
  | .eglTerminate dpy => { s with displays := eglTerminate s.displays dpy }
  | .eglCreateWindowSurface dpy result => eglCreateWindowSurface s dpy result
  | .eglDestroySurface surface result =>
    { s with surfaces := eglDestroySurface s.surfaces surface result }
  | .scribble p dpy =>
    { s with displays := { s.displays with dpy := Function.update s.displays.dpy p dpy } }

/-- A failed assertion ends the process. -/
def step (s : State) (c : Call) : Option State :=
  if s.surfaces.aborted = false ∧ Enabled s c then some (perform s c) else none

def start : State where
  displays :=
    ⟨⟨List.replicate 100 none, List.length_replicate⟩, fun _ => 0, fun _ => none, 0, [], []⟩
  surfaces := ⟨fun _ => none, 0, [], fun _ => none, false⟩

theorem mem_addFirst {p q : Ptr} {slots : List (Option Ptr)}
    (h : some q ∈ addFirst p slots) : q = p ∨ some q ∈ slots := by
  induction slots with
  | nil => simp [addFirst] at h
  | cons slot slots ih =>
    cases slot with
    | none => simpa [addFirst] using h
    | some r =>
      obtain h | h := List.mem_cons.mp h
      · exact .inr (by rw [h]; exact List.mem_cons_self)
      · exact (ih h).imp id (List.mem_cons_of_mem _)

theorem mem_of_getMapping {d : Displays} {display : EGLDisplay} {p : Ptr}
    (h : hybrisEglDisplayGetMapping d display = some p) :
    some p ∈ d.mappings.slots ∧ d.dpy p = display := by
  obtain ⟨slot, hslot, hp⟩ := List.exists_of_findSome?_eq_some h
  obtain ⟨rfl, hd⟩ := Option.filter_eq_some_iff.mp hp
  exact ⟨hslot, of_decide_eq_true hd⟩

theorem step_cases {s t : State} {c : Call} (h : step s c = some t) :
    s.surfaces.aborted = false ∧ Enabled s c ∧ t = perform s c := by
  unfold step at h
  split at h
  · rename_i hc
    exact ⟨hc.1, hc.2, (Option.some.inj h).symm⟩
  · cases h

end FakeLibc.Egl

import FakeLibc.WlEglWindow

namespace FakeLibc.WlEglWindow

open FakeLibc.Lib.Run FakeLibc.Lib.MutualLinks FakeLibc.Egl

def EglWindow.size (e : EglWindow) : Dim × Dim := (e.width, e.height)

def EglWindow.callbacks (e : EglWindow) : Bool × Bool := (e.resizeCallback, e.freeCallback)

def NativeWindow.defaultSize (n : NativeWindow) : Dim × Dim := (n.defaultWidth, n.defaultHeight)

def State.nativewindow (s : State) (p : Ptr) : Option EGLNativeWindowType :=
  (s.eglWindows p).bind EglWindow.nativewindow

def State.callbacks (s : State) (p : Ptr) : Bool × Bool :=
  (s.eglWindows p).elim (false, false) EglWindow.callbacks

def State.size (s : State) (p : Ptr) : Option (Dim × Dim) :=
  (s.eglWindows p).map EglWindow.size

def State.mWindow (s : State) (w : EGLNativeWindowType) : Option Ptr :=
  (s.windows w).bind NativeWindow.window

def State.defaultSize (s : State) (w : EGLNativeWindowType) : Option (Dim × Dim) :=
  (s.windows w).map NativeWindow.defaultSize

def State.refcount (s : State) (w : EGLNativeWindowType) : Int :=
  (s.windows w).elim 0 NativeWindow.refcount

/-- A surface in the map counts once for its window, beside what the wrapped
library holds. -/
def State.Mapped (s : State) (w : EGLNativeWindowType) : Prop :=
  ∃ surface, s.surfaces.surfaceWindowMap surface = some w

open Classical in
noncomputable def State.references (s : State) (w : EGLNativeWindowType) : Int :=
  s.held w + if s.Mapped w then 1 else 0

/-- The two kinds of windows point at each other or not at all, the callbacks
are there while they do, and the native window follows the size of the other. -/
structure Linked (s : State) : Prop where
  paired : Paired s.nativewindow s.mWindow
  callbacks : ∀ p, s.callbacks p = ((s.nativewindow p).isSome, (s.nativewindow p).isSome)
  sizes : ∀ p w, s.nativewindow p = some w → s.defaultSize w = s.size p

/-- A native window lives exactly as long as there are references to it. -/
structure Counted (s : State) : Prop where
  counts : ∀ w, s.refcount w = s.references w
  positive : ∀ w, (s.windows w).isSome → 0 < s.refcount w
  apart : ∀ surface surface' w, s.surfaces.surfaceWindowMap surface = some w →
    s.surfaces.surfaceWindowMap surface' = some w → surface = surface'

/-- Nothing has been done with a window that is gone, and nothing will be as
long as the client sees to it that its own windows are there. -/
structure Sound (s : State) : Prop where
  fault : s.fault = none
  linked : Linked s
  counted : s.surfaces.aborted = false → Counted s
  windows : ∀ w, s.surfaces.created ≤ w → s.windows w = none
  eglWindows : ∀ p, s.made ≤ p → s.eglWindows p = none

/-- The windows that the client uses are there and have no second surface, and
it draws only on surfaces whose window is still there. -/
def Kept (s : State) : Action → Prop
  | .wlEglWindowResize p _ _ _ _ => (s.eglWindows p).isSome
  | .wlEglWindowDestroy p => (s.eglWindows p).isSome
  | .wlEglWindowGetAttachedSize p => (s.eglWindows p).isSome
  | .eglCreateWindowSurface win display _ =>
    display.isSome ∧ ∃ p ∈ win, (s.eglWindows p).isSome ∧ s.nativewindow p = none
  | .eglSwapBuffers surface buffer =>
    buffer.isSome → ∀ w ∈ s.surfaces.surfaceWindowMap surface, (s.mWindow w).isSome
  | .dequeueBuffer w free => free = true → (s.mWindow w).isSome
  | .waylandwsPost p _ => (s.eglWindows p).isSome ∧ (s.nativewindow p).isSome
  | _ => True

instance (s : State) : (a : Action) → Decidable (Kept s a)
  | .wlEglWindowResize p _ _ _ _ => inferInstanceAs (Decidable ((s.eglWindows p).isSome = true))
  | .wlEglWindowDestroy p => inferInstanceAs (Decidable ((s.eglWindows p).isSome = true))
  | .wlEglWindowGetAttachedSize p => inferInstanceAs (Decidable ((s.eglWindows p).isSome = true))
  | .eglCreateWindowSurface win display _ =>
    inferInstanceAs (Decidable (display.isSome = true ∧
      ∃ p ∈ win, (s.eglWindows p).isSome = true ∧ s.nativewindow p = none))
  | .eglSwapBuffers surface buffer =>
    inferInstanceAs (Decidable (buffer.isSome = true →
      ∀ w ∈ s.surfaces.surfaceWindowMap surface, (s.mWindow w).isSome = true))
  | .dequeueBuffer w free => inferInstanceAs (Decidable (free = true → (s.mWindow w).isSome = true))
  | .waylandwsPost p _ =>
    inferInstanceAs (Decidable ((s.eglWindows p).isSome = true ∧
      (s.nativewindow p).isSome = true))
  | .wlEglWindowCreate _ _ _ => .isTrue trivial
  | .eglDestroySurface _ _ => .isTrue trivial
  | .eglSwapInterval _ _ => .isTrue trivial
  | .incRef _ => .isTrue trivial
  | .decRef _ => .isTrue trivial

section Views

variable (s : State) (p : Ptr) (w : EGLNativeWindowType) (e : Option EglWindow)
  (n : Option NativeWindow)

@[simp] theorem nativewindow_putEglWindow : (s.putEglWindow p e).nativewindow =
    Function.update s.nativewindow p (e.bind EglWindow.nativewindow) :=
  Function.comp_update (fun e : Option EglWindow => e.bind EglWindow.nativewindow) s.eglWindows p e

@[simp] theorem callbacks_putEglWindow : (s.putEglWindow p e).callbacks =
    Function.update s.callbacks p (e.elim (false, false) EglWindow.callbacks) :=
  Function.comp_update (fun e : Option EglWindow => e.elim (false, false) EglWindow.callbacks)
    s.eglWindows p e

@[simp] theorem size_putEglWindow : (s.putEglWindow p e).size =
    Function.update s.size p (e.map EglWindow.size) :=
  Function.comp_update (fun e : Option EglWindow => e.map EglWindow.size) s.eglWindows p e

@[simp] theorem mWindow_putWindow : (s.putWindow w n).mWindow =
    Function.update s.mWindow w (n.bind NativeWindow.window) :=
  Function.comp_update (fun n : Option NativeWindow => n.bind NativeWindow.window) s.windows w n

@[simp] theorem defaultSize_putWindow : (s.putWindow w n).defaultSize =
    Function.update s.defaultSize w (n.map NativeWindow.defaultSize) :=
  Function.comp_update (fun n : Option NativeWindow => n.map NativeWindow.defaultSize)
    s.windows w n

@[simp] theorem refcount_putWindow : (s.putWindow w n).refcount =
    Function.update s.refcount w (n.elim 0 NativeWindow.refcount) :=
  Function.comp_update (fun n : Option NativeWindow => n.elim 0 NativeWindow.refcount)
    s.windows w n

@[simp] theorem mWindow_putEglWindow : (s.putEglWindow p e).mWindow = s.mWindow := rfl

@[simp] theorem defaultSize_putEglWindow : (s.putEglWindow p e).defaultSize = s.defaultSize := rfl

@[simp] theorem refcount_putEglWindow : (s.putEglWindow p e).refcount = s.refcount := rfl

@[simp] theorem windows_putEglWindow : (s.putEglWindow p e).windows = s.windows := rfl

@[simp] theorem size_putWindow : (s.putWindow w n).size = s.size := rfl

end Views

variable {s t : State} {p : Ptr} {w : EGLNativeWindowType} {e : EglWindow} {n : NativeWindow}

theorem eglWindow_eq (he : s.eglWindows p = some e) : s.eglWindow p = .ok e := by
  rw [State.eglWindow, he, Option.elim_some]

theorem window_eq (hn : s.windows w = some n) : s.window w = .ok n := by
  rw [State.window, hn, Option.elim_some]

theorem eglWindow_bind {α : Type} (he : s.eglWindows p = some e)
    (f : EglWindow → Except Fault α) : (s.eglWindow p >>= f) = f e := by
  rw [eglWindow_eq he]
  rfl

theorem window_bind {α : Type} (hn : s.windows w = some n)
    (f : NativeWindow → Except Fault α) : (s.window w >>= f) = f n := by
  rw [window_eq hn]
  rfl

theorem pointee_bind {α β : Type} {o : Option α} {a : α} (ho : o = some a)
    (f : α → Except Fault β) : (pointee o >>= f) = f a := by
  rw [ho]
  rfl

theorem nativewindow_eq (he : s.eglWindows p = some e) : s.nativewindow p = e.nativewindow := by
  rw [State.nativewindow, he, Option.bind_some]

theorem mWindow_eq (hn : s.windows w = some n) : s.mWindow w = n.window := by
  rw [State.mWindow, hn, Option.bind_some]

theorem exists_eglWindow (h : s.nativewindow p = some w) : ∃ e, s.eglWindows p = some e := by
  obtain ⟨e, he, -⟩ := Option.bind_eq_some_iff.mp h
  exact ⟨e, he⟩

theorem exists_window (h : s.mWindow w = some p) : ∃ n, s.windows w = some n := by
  obtain ⟨n, hn, -⟩ := Option.bind_eq_some_iff.mp h
  exact ⟨n, hn⟩

namespace Linked

theorem callbacks_eq (hl : Linked s) (he : s.eglWindows p = some e) :
    e.resizeCallback = e.nativewindow.isSome ∧ e.freeCallback = e.nativewindow.isSome := by
  have h := hl.callbacks p
  rw [State.callbacks, nativewindow_eq he, he, Option.elim_some] at h
  exact Prod.mk.inj h

theorem window_of_nativewindow (hl : Linked s) (h : s.nativewindow p = some w) :
    ∃ n, s.windows w = some n ∧ n.window = some p := by
  have hm : s.mWindow w = some p := (hl.paired p w).mp h
  obtain ⟨n, hn⟩ := exists_window hm
  exact ⟨n, hn, (mWindow_eq hn).symm.trans hm⟩

theorem eglWindow_of_mWindow (hl : Linked s) (h : s.mWindow w = some p) :
    ∃ e, s.eglWindows p = some e ∧ e.nativewindow = some w := by
  have hn : s.nativewindow p = some w := (hl.paired p w).mpr h
  obtain ⟨e, he⟩ := exists_eglWindow hn
  exact ⟨e, he, (nativewindow_eq he).symm.trans hn⟩

theorem of_eq (hl : Linked s) (hn : t.nativewindow = s.nativewindow) (hm : t.mWindow = s.mWindow)
    (hc : t.callbacks = s.callbacks)
    (hs : ∀ p w, s.nativewindow p = some w → t.defaultSize w = t.size p) : Linked t := by
  constructor
  · rw [hn, hm]
    exact hl.paired
  · rw [hn, hc]
    exact hl.callbacks
  · rw [hn]
    exact hs

theorem of_part (hl : Linked s) (h : s.nativewindow p = some w)
    (hn : t.nativewindow = Function.update s.nativewindow p none)
    (hm : t.mWindow = Function.update s.mWindow w none)
    (hc : t.callbacks = Function.update s.callbacks p (false, false))
    (hd : ∀ v, v ≠ w → t.defaultSize v = s.defaultSize v)
    (hs : ∀ q, q ≠ p → t.size q = s.size q) : Linked t := by
  constructor
  · rw [hn, hm]
    exact hl.paired.part h
  · intro q
    rw [hn, hc]
    by_cases hq : q = p
    · rw [hq, Function.update_self, Function.update_self]
      rfl
    · rw [Function.update_of_ne hq, Function.update_of_ne hq]
      exact hl.callbacks q
  · intro q v hqv
    rw [hn] at hqv
    have hq : q ≠ p := by
      rintro rfl
      rw [Function.update_self] at hqv
      cases hqv
    rw [Function.update_of_ne hq] at hqv
    have hv : v ≠ w := by
      rintro rfl
      have hpq := ((hl.paired q v).mp hqv).symm.trans ((hl.paired p v).mp h)
      exact hq (Option.some.inj hpq)
    rw [hd v hv, hs q hq]
    exact hl.sizes q v hqv

end Linked

structure Frame (s t : State) : Prop where
  surfaces : t.surfaces = s.surfaces
  made : t.made = s.made
  held : t.held = s.held
  fault : t.fault = s.fault
  refcount : t.refcount = s.refcount
  windows : ∀ w, t.windows w = none ↔ s.windows w = none
  eglWindows : ∀ p, s.eglWindows p = none → t.eglWindows p = none

namespace Frame

theorem trans {u : State} (h : Frame s t) (h' : Frame t u) : Frame s u where
  surfaces := h'.surfaces.trans h.surfaces
  made := h'.made.trans h.made
  held := h'.held.trans h.held
  fault := h'.fault.trans h.fault
  refcount := h'.refcount.trans h.refcount
  windows w := (h'.windows w).trans (h.windows w)
  eglWindows p hp := h'.eglWindows p (h.eglWindows p hp)

theorem putEglWindow (he : s.eglWindows p = some e) (o : Option EglWindow) :
    Frame s (s.putEglWindow p o) := by
  refine ⟨rfl, rfl, rfl, rfl, rfl, fun _ => Iff.rfl, fun q hq => ?_⟩
  have hqp : q ≠ p := by
    rintro rfl
    rw [he] at hq
    cases hq
  exact (Function.update_of_ne hqp _ _).trans hq

theorem putWindow (hn : s.windows w = some n) (m : NativeWindow) (hm : m.refcount = n.refcount) :
    Frame s (s.putWindow w (some m)) := by
  refine ⟨rfl, rfl, rfl, rfl, ?_, fun v => ?_, fun _ h => h⟩
  · rw [refcount_putWindow, Function.update_eq_self_iff, State.refcount, hn]
    exact hm
  · by_cases hv : v = w
    · subst hv
      have hput : (s.putWindow v (some m)).windows v = some m := Function.update_self ..
      rw [hput, hn]
      exact iff_of_false (Option.some_ne_none _) (Option.some_ne_none _)
    · have hput : (s.putWindow w (some m)).windows v = s.windows v := Function.update_of_ne hv _ _
      rw [hput]

end Frame

theorem Counted.of_frame (hc : Counted s) (hf : Frame s t) : Counted t := by
  constructor
  · intro w
    rw [State.references, State.Mapped, hf.held, hf.surfaces, hf.refcount]
    exact hc.counts w
  · intro w hw
    rw [hf.refcount]
    apply hc.positive w
    rwa [Option.isSome_iff_ne_none, ne_eq, ← hf.windows w, ← ne_eq, ← Option.isSome_iff_ne_none]
  · rw [hf.surfaces]
    exact hc.apart

theorem Sound.of_frame (hs : Sound s) (hl : Linked t) (hf : Frame s t) : Sound t where
  fault := hf.fault.trans hs.fault
  linked := hl
  counted ha := (hs.counted (hf.surfaces ▸ ha)).of_frame hf
  windows w hw := (hf.windows w).mpr (hs.windows w (hf.surfaces ▸ hw))
  eglWindows p hp := hf.eglWindows p (hs.eglWindows p (hf.made ▸ hp))

theorem wlEglWindowResize_spec (hl : Linked s) (he : s.eglWindows p = some e)
    (width height dx dy : Dim) :
    ∃ t, wlEglWindowResize s p width height dx dy = .ok t ∧ Linked t ∧ Frame s t := by
  have hcall := (hl.callbacks_eq he).1
  let e' : EglWindow := { e with width := width, height := height, dx := dx, dy := dy }
  have hn : (s.putEglWindow p (some e')).nativewindow = s.nativewindow := by
    rw [nativewindow_putEglWindow, Function.update_eq_self_iff, nativewindow_eq he]
    rfl
  have hc : (s.putEglWindow p (some e')).callbacks = s.callbacks := by
    rw [callbacks_putEglWindow, Function.update_eq_self_iff, State.callbacks, he]
    rfl
  have hframe := Frame.putEglWindow he (some e')
  cases hnat : e.nativewindow with
  | none =>
    have hoff : ¬ e'.resizeCallback = true := by
      rw [hcall, hnat]
      exact Bool.false_ne_true
    refine ⟨s.putEglWindow p (some e'), ?_, hl.of_eq hn rfl hc fun q w hq => ?_, hframe⟩
    · rw [wlEglWindowResize, eglWindow_bind he]
      exact if_neg hoff
    · have hqp : q ≠ p := by
        rintro rfl
        rw [nativewindow_eq he, hnat] at hq
        cases hq
      rw [size_putEglWindow, Function.update_of_ne hqp]
      exact hl.sizes q w hq
  | some w =>
    have hon : e'.resizeCallback = true := by
      rw [hcall, hnat]
      rfl
    have hpw : s.nativewindow p = some w := (nativewindow_eq he).trans hnat
    obtain ⟨n, hwin, hback⟩ := hl.window_of_nativewindow hpw
    let n' : NativeWindow := { n with defaultWidth := width, defaultHeight := height }
    have hput : (s.putEglWindow p (some e')).windows w = some n := hwin
    refine ⟨(s.putEglWindow p (some e')).putWindow w (some n'), ?_,
      hl.of_eq hn ?_ hc fun q v hq => ?_, hframe.trans (.putWindow hput n' rfl)⟩
    · rw [wlEglWindowResize, eglWindow_bind he]
      refine (if_pos hon).trans ?_
      rw [resizeCallback, pointee_bind hnat]
      exact window_bind hput _
    · rw [mWindow_putWindow, mWindow_putEglWindow, Function.update_eq_self_iff, mWindow_eq hwin]
      rfl
    · rw [size_putWindow, size_putEglWindow, defaultSize_putWindow]
      by_cases hqp : q = p
      · subst hqp
        obtain rfl : w = v := Option.some.inj (hpw.symm.trans hq)
        rw [Function.update_self, Function.update_self]
        rfl
      · have hvw : v ≠ w := by
          rintro rfl
          exact hqp (Option.some.inj (((hl.paired q v).mp hq).symm.trans ((hl.paired p v).mp hpw)))
        rw [Function.update_of_ne hqp, Function.update_of_ne hvw]
        exact hl.sizes q v hq

theorem wlEglWindowDestroy_spec (hl : Linked s) (he : s.eglWindows p = some e) :
    ∃ t, wlEglWindowDestroy s p = .ok t ∧ Linked t ∧ Frame s t := by
  have hcall := hl.callbacks_eq he
  cases hnat : e.nativewindow with
  | none =>
    rw [hnat] at hcall
    have hn : (s.putEglWindow p none).nativewindow = s.nativewindow := by
      rw [nativewindow_putEglWindow, Function.update_eq_self_iff, nativewindow_eq he, hnat]
      rfl
    have hc : (s.putEglWindow p none).callbacks = s.callbacks := by
      rw [callbacks_putEglWindow, Function.update_eq_self_iff, State.callbacks, he]
      exact (Prod.ext hcall.1 hcall.2).symm
    refine ⟨s.putEglWindow p none, ?_, hl.of_eq hn rfl hc fun q w hq => ?_,
      .putEglWindow he none⟩
    · have hoff : ¬ e.freeCallback = true := by
        rw [hcall.2]
        exact Bool.false_ne_true
      rw [wlEglWindowDestroy, eglWindow_bind he, if_neg hoff]
      rfl
    · have hqp : q ≠ p := by
        rintro rfl
        rw [nativewindow_eq he, hnat] at hq
        cases hq
      rw [size_putEglWindow, Function.update_of_ne hqp]
      exact hl.sizes q w hq
  | some w =>
    have hpw : s.nativewindow p = some w := (nativewindow_eq he).trans hnat
    obtain ⟨n, hwin, -⟩ := hl.window_of_nativewindow hpw
    let n' : NativeWindow := { n with window := none }
    have hput : (s.putWindow w (some n')).eglWindows p = some e := he
    refine ⟨(s.putWindow w (some n')).putEglWindow p none, ?_, ?_,
      (Frame.putWindow hwin n' rfl).trans (.putEglWindow hput none)⟩
    · have hon : e.freeCallback = true := by
        rw [hcall.2, hnat]
        rfl
      rw [wlEglWindowDestroy, eglWindow_bind he, if_pos hon, freeCallback, pointee_bind hnat,
        window_bind hwin]
      rfl
    · apply hl.of_part hpw
      · exact nativewindow_putEglWindow ..
      · exact mWindow_putWindow ..
      · exact callbacks_putEglWindow ..
      · intro v hv
        rw [defaultSize_putEglWindow, defaultSize_putWindow, Function.update_of_ne hv]
      · intro q hq
        rw [size_putEglWindow, Function.update_of_ne hq, size_putWindow]

structure Recount (s t : State) (w : EGLNativeWindowType) (k : Int) : Prop where
  surfaces : t.surfaces = s.surfaces
  made : t.made = s.made
  held : t.held = s.held
  fault : t.fault = s.fault
  refcount : t.refcount = Function.update s.refcount w k
  windows : ∀ v, v ≠ w → (t.windows v = none ↔ s.windows v = none)
  window : t.windows w = none ↔ k = 0
  eglWindows : ∀ p, s.eglWindows p = none → t.eglWindows p = none

theorem destruct_spec (hl : Linked s) (hn : s.windows w = some n) :
    ∃ t, destruct s w = .ok t ∧ Linked t ∧ Recount s t w 0 := by
  have hgone : ∀ u : State, (u.putWindow w none).windows w = none := fun u =>
    Function.update_self ..
  have hother : ∀ (u : State) v, v ≠ w → (u.putWindow w none).windows v = u.windows v :=
    fun u v hv => Function.update_of_ne hv _ _
  cases hback : n.window with
  | none =>
    refine ⟨s.putWindow w none, ?_, hl.of_eq rfl ?_ rfl fun q v hq => ?_, rfl, rfl, rfl, rfl,
      refcount_putWindow .., fun v hv => ?_, iff_of_true (hgone s) rfl, fun _ h => h⟩
    · rw [destruct, window_bind hn, hback]
      rfl
    · rw [mWindow_putWindow, Function.update_eq_self_iff, mWindow_eq hn, hback]
      rfl
    · have hv : v ≠ w := by
        rintro rfl
        have hm := (hl.paired q v).mp hq
        rw [mWindow_eq hn, hback] at hm
        cases hm
      rw [defaultSize_putWindow, Function.update_of_ne hv]
      exact hl.sizes q v hq
    · rw [hother s v hv]
  | some p =>
    have hwp : s.mWindow w = some p := (mWindow_eq hn).trans hback
    obtain ⟨e, he, -⟩ := hl.eglWindow_of_mWindow hwp
    let e' : EglWindow :=
      { e with nativewindow := none, resizeCallback := false, freeCallback := false }
    have hframe := Frame.putEglWindow he (some e')
    refine ⟨(s.putEglWindow p (some e')).putWindow w none, ?_, ?_, rfl, rfl, rfl, rfl, ?_,
      fun v hv => ?_, iff_of_true (hgone _) rfl, hframe.eglWindows⟩
    · rw [destruct, window_bind hn, hback]
      exact eglWindow_bind he _
    · apply hl.of_part ((hl.paired p w).mpr hwp)
      · exact nativewindow_putEglWindow ..
      · exact mWindow_putWindow ..
      · exact callbacks_putEglWindow ..
      · intro v hv
        rw [defaultSize_putWindow, Function.update_of_ne hv, defaultSize_putEglWindow]
      · intro q hq
        rw [size_putWindow, size_putEglWindow, Function.update_of_ne hq]
    · rw [refcount_putWindow, refcount_putEglWindow]
      rfl
    · rw [hother _ v hv, windows_putEglWindow]

theorem Linked.putWindow (hl : Linked s) (hn : s.windows w = some n) {m : NativeWindow}
    (hm : m.window = n.window) (hd : m.defaultSize = n.defaultSize) :
    Linked (s.putWindow w (some m)) := by
  refine hl.of_eq rfl ?_ rfl fun q v hq => ?_
  · rw [mWindow_putWindow, Function.update_eq_self_iff, mWindow_eq hn]
    exact hm
  · have hsize : (s.putWindow w (some m)).defaultSize = s.defaultSize := by
      rw [defaultSize_putWindow, Function.update_eq_self_iff, State.defaultSize, hn]
      exact congrArg some hd
    rw [hsize]
    exact hl.sizes q v hq

theorem recount_putRefcount (n : NativeWindow) {k : Int} (hk : k ≠ 0) :
    Recount s (s.putWindow w (some { n with refcount := k })) w k := by
  refine ⟨rfl, rfl, rfl, rfl, refcount_putWindow .., fun v hv => ?_, ?_, fun _ h => h⟩
  · have hput : (s.putWindow w (some { n with refcount := k })).windows v = s.windows v :=
      Function.update_of_ne hv _ _
    rw [hput]
  · have hput : (s.putWindow w (some { n with refcount := k })).windows w =
        some { n with refcount := k } := Function.update_self ..
    rw [hput]
    exact iff_of_false (Option.some_ne_none _) hk

theorem incRef_spec (hl : Linked s) (hn : s.windows w = some n) (hpos : 0 < n.refcount) :
    ∃ t, incRef s w = .ok t ∧ Linked t ∧ Recount s t w (n.refcount + 1) := by
  refine ⟨s.putWindow w (some { n with refcount := n.refcount + 1 }), ?_,
    hl.putWindow hn rfl rfl, recount_putRefcount n (by omega)⟩
  rw [incRef, window_bind hn]
  rfl

theorem decRef_spec (hl : Linked s) (hn : s.windows w = some n) :
    ∃ t, decRef s w = .ok t ∧ Linked t ∧ Recount s t w (n.refcount - 1) := by
  let u := s.putWindow w (some { n with refcount := n.refcount - 1 })
  have hu : Linked u := hl.putWindow hn rfl rfl
  by_cases hone : n.refcount = 1
  · have hun : u.windows w = some { n with refcount := n.refcount - 1 } := Function.update_self ..
    obtain ⟨t, ht, hlt, hr⟩ := destruct_spec hu hun
    refine ⟨t, ?_, hlt, hr.surfaces, hr.made, hr.held, hr.fault, ?_, fun v hv => ?_, ?_,
      hr.eglWindows⟩
    · rw [decRef, window_bind hn]
      exact (if_pos hone).trans ht
    · rw [hr.refcount, refcount_putWindow, Function.update_idem, hone]
      rfl
    · have hput : u.windows v = s.windows v := Function.update_of_ne hv _ _
      rw [hr.windows v hv, hput]
    · exact iff_of_true (hr.window.mpr rfl) (by omega)
  · refine ⟨u, ?_, hu, recount_putRefcount n (by omega)⟩
    rw [decRef, window_bind hn]
    exact if_neg hone

end FakeLibc.WlEglWindow

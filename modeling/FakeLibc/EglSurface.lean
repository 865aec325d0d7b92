import FakeLibc.Egl

namespace FakeLibc.EglSurface

open FakeLibc.Lib.Run FakeLibc.Egl

/-- The map is that of the live window surfaces, and every window that was
created is bound to one of them or was destroyed, once. -/
structure Mirrors (s : Surfaces) : Prop where
  map : s.surfaceWindowMap = s.live
  noSurface : s.surfaceWindowMap eglNoSurface = none
  assertions : s.aborted = false
  windows : ∀ w, w < s.created ↔ w ∈ s.destroyed ∨ ∃ surface, s.live surface = some w
  bound : ∀ surface w, s.live surface = some w → w ∉ s.destroyed
  apart : ∀ surface surface' w, s.live surface = some w → s.live surface' = some w →
    surface = surface'
  once : s.destroyed.Nodup

/-- The wrapped create answers `EGL_NO_SURFACE` or a handle that is not live. -/
def Fresh (s : State) : Call → Prop
  | .eglCreateWindowSurface _ result =>
    result ≠ eglNoSurface → s.surfaces.live result = none
  | _ => True

instance (s : State) : (c : Call) → Decidable (Fresh s c)
  | .eglCreateWindowSurface _ result =>
    inferInstanceAs (Decidable (result ≠ eglNoSurface → s.surfaces.live result = none))
  | .eglGetDisplay _ _ _ => .isTrue trivial
  | .eglTerminate _ => .isTrue trivial
  | .eglDestroySurface _ _ => .isTrue trivial
  | .scribble _ _ => .isTrue trivial

def freshStep (s : State) (c : Call) : Option State :=
  if Fresh s c then step s c else none

/-- No create fails, and no destroy of a surface in the map fails. -/
def Succeeds (s : State) : Call → Prop
  | .eglCreateWindowSurface _ result => result ≠ eglNoSurface
  | .eglDestroySurface surface result => s.surfaces.surfaceWindowMap surface ≠ none → result = true
  | _ => True

instance (s : State) : (c : Call) → Decidable (Succeeds s c)
  | .eglCreateWindowSurface _ result => inferInstanceAs (Decidable (result ≠ eglNoSurface))
  | .eglDestroySurface surface result =>
    inferInstanceAs (Decidable (s.surfaces.surfaceWindowMap surface ≠ none → result = true))
  | .eglGetDisplay _ _ _ => .isTrue trivial
  | .eglTerminate _ => .isTrue trivial
  | .scribble _ _ => .isTrue trivial

theorem freshStep_cases {s t : State} {c : Call} (h : freshStep s c = some t) :
    Fresh s c ∧ t = perform s c := by
  unfold freshStep at h
  split at h
  · rename_i hf
    exact ⟨hf, (step_cases h).2.2⟩
  · cases h

theorem createOn_eq {s : Surfaces} {result : EGLSurface} (hm : Mirrors s)
    (hresult : result ≠ eglNoSurface) (hfresh : s.live result = none) :
    createOn s result =
      { s with
        created := s.created + 1
        live := Function.update s.live result (some s.created)
        surfaceWindowMap := Function.update s.surfaceWindowMap result (some s.created) } := by
  have hmap : s.surfaceWindowMap result = none := by rw [hm.map, hfresh]
  simp [createOn, wrappedCreate, hresult, eglHelperPushMapping, eglHelperHasMapping, hmap]

theorem update_some_eq_iff {f : EGLSurface → Option EGLNativeWindowType} {a x : EGLSurface}
    {v w : EGLNativeWindowType} :
    Function.update f a (some v) x = some w ↔ (x = a ∧ v = w) ∨ (x ≠ a ∧ f x = some w) := by
  by_cases hx : x = a <;> simp [hx]

theorem update_none_eq_iff {f : EGLSurface → Option EGLNativeWindowType} {a x : EGLSurface}
    {w : EGLNativeWindowType} :
    Function.update f a none x = some w ↔ x ≠ a ∧ f x = some w := by
  by_cases hx : x = a <;> simp [hx]

theorem mirrors_createOn {s : Surfaces} {result : EGLSurface} (hm : Mirrors s)
    (hresult : result ≠ eglNoSurface) (hfresh : s.live result = none) :
    Mirrors (createOn s result) := by
  have hnew : ∀ surface, s.live surface ≠ some s.created := by
    intro surface h
    exact absurd ((hm.windows s.created).mpr (.inr ⟨surface, h⟩)) (Nat.lt_irrefl _)
  have hlt : ∀ w ∈ s.destroyed, w < s.created := fun w hw => (hm.windows w).mpr (.inl hw)
  rw [createOn_eq hm hresult hfresh]
  constructor
  · simp only [hm.map]
  · simpa [hresult.symm] using hm.noSurface
  · exact hm.assertions
  · intro w
    simp only [update_some_eq_iff]
    constructor
    · intro hw
      by_cases he : s.created = w
      · exact .inr ⟨result, .inl ⟨rfl, he⟩⟩
      · obtain hw | ⟨surface, hs⟩ := (hm.windows w).mp (by omega)
        · exact .inl hw
        · refine .inr ⟨surface, .inr ⟨?_, hs⟩⟩
          rintro rfl
          simp [hfresh] at hs
    · rintro (hw | ⟨surface, ⟨_, rfl⟩ | ⟨_, hs⟩⟩)
      · exact Nat.lt_succ_of_lt (hlt w hw)
      · exact Nat.lt_succ_self _
      · exact Nat.lt_succ_of_lt ((hm.windows w).mpr (.inr ⟨surface, hs⟩))
  · intro surface w hs hw
    obtain ⟨_, rfl⟩ | ⟨_, hs⟩ := update_some_eq_iff.mp hs
    · exact Nat.lt_irrefl _ (hlt _ hw)
    · exact hm.bound surface w hs hw
  · intro x y w hx hy
    obtain ⟨hxr, hw⟩ | ⟨_, hx⟩ := update_some_eq_iff.mp hx <;>
      obtain ⟨hyr, hw'⟩ | ⟨_, hy⟩ := update_some_eq_iff.mp hy
    · rw [hxr, hyr]
    · exact absurd (hw ▸ hy) (hnew y)
    · exact absurd (hw' ▸ hx) (hnew x)
    · exact hm.apart x y w hx hy
  · exact hm.once

theorem eglDestroySurface_of_none {s : Surfaces} (hm : Mirrors s) {surface : EGLSurface}
    (h : s.surfaceWindowMap surface = none) (result : Bool) :
    eglDestroySurface s surface result = s := by
  have hlive : Function.update s.live surface none = s.live := by
    rw [Function.update_eq_self_iff, ← hm.map, h]
  cases result <;> simp [eglDestroySurface, wrappedDestroy, h, hlive]

theorem eglDestroySurface_of_some {s : Surfaces} {surface : EGLSurface} {w : EGLNativeWindowType}
    (h : s.surfaceWindowMap surface = some w) (result : Bool) :
    eglDestroySurface s surface result =
      { s with
        live := if result then Function.update s.live surface none else s.live
        surfaceWindowMap := Function.update s.surfaceWindowMap surface none
        destroyed := w :: s.destroyed } := by
  cases result <;>
    simp [eglDestroySurface, wrappedDestroy, h, eglHelperPopMapping, wsDestroyWindow]

theorem mirrors_eglDestroySurface {s : Surfaces} (hm : Mirrors s) {surface : EGLSurface}
    {w : EGLNativeWindowType} (h : s.surfaceWindowMap surface = some w) :
    Mirrors (eglDestroySurface s surface true) := by
  have hw : s.live surface = some w := hm.map ▸ h
  rw [eglDestroySurface_of_some h]
  constructor
  · simp only [hm.map, if_true]
  · by_cases hz : eglNoSurface = surface
    · simp [hz]
    · simpa [hz] using hm.noSurface
  · exact hm.assertions
  · intro v
    simp only [if_true, update_none_eq_iff, List.mem_cons]
    rw [hm.windows v]
    constructor
    · rintro (hv | ⟨x, hx⟩)
      · exact .inl (.inr hv)
      · by_cases he : x = surface
        · exact .inl (.inl (by simpa [he, hw] using hx.symm))
        · exact .inr ⟨x, he, hx⟩
    · rintro ((rfl | hv) | ⟨x, _, hx⟩)
      · exact .inr ⟨surface, hw⟩
      · exact .inl hv
      · exact .inr ⟨x, hx⟩
  · intro x v hx hv
    obtain ⟨hne, hlive⟩ := update_none_eq_iff.mp hx
    obtain rfl | hv := List.mem_cons.mp hv
    · exact hne (hm.apart x surface v hlive hw)
    · exact hm.bound x v hlive hv
  · intro x y v hx hy
    exact hm.apart x y v (update_none_eq_iff.mp hx).2 (update_none_eq_iff.mp hy).2
  · exact List.nodup_cons.mpr ⟨hm.bound surface w hw, hm.once⟩

theorem mirrors_step {s t : State} {c : Call} (hm : Mirrors s.surfaces) (hc : Succeeds s c)
    (h : freshStep s c = some t) : Mirrors t.surfaces := by
  obtain ⟨hfresh, rfl⟩ := freshStep_cases h
  cases c with
  | eglCreateWindowSurface dpy result => exact mirrors_createOn hm hc (hfresh hc)
  | eglDestroySurface surface result =>
    cases hmap : s.surfaces.surfaceWindowMap surface with
    | none => simpa only [perform, eglDestroySurface_of_none hm hmap] using hm
    | some w =>
      obtain rfl : result = true := hc (by simp [hmap])
      exact mirrors_eglDestroySurface hm hmap
  | eglGetDisplay wsGetDisplay displayId real => exact hm
  | eglTerminate dpy => exact hm
  | scribble p dpy => exact hm

theorem not_mirrors_createOn {s : Surfaces} (hm : Mirrors s) :
    ¬ Mirrors (createOn s eglNoSurface) := by
  intro ht
  have h := ht.noSurface
  simp [createOn, wrappedCreate, eglHelperPushMapping, eglHelperHasMapping, hm.noSurface] at h

theorem not_mirrors_eglDestroySurface {s : Surfaces} (hm : Mirrors s) {surface : EGLSurface}
    {w : EGLNativeWindowType} (h : s.surfaceWindowMap surface = some w) :
    ¬ Mirrors (eglDestroySurface s surface false) := by
  intro ht
  have hmap := congrFun ht.map surface
  simp [eglDestroySurface_of_some h, ← hm.map, h] at hmap

theorem not_mirrors_of_fails {s t : State} {c : Call} (hm : Mirrors s.surfaces)
    (hc : ¬ Succeeds s c) (h : freshStep s c = some t) : ¬ Mirrors t.surfaces := by
  obtain ⟨_, rfl⟩ := freshStep_cases h
  cases c with
  | eglCreateWindowSurface dpy result =>
    obtain rfl : result = eglNoSurface := by simpa [Succeeds] using hc
    exact not_mirrors_createOn hm
  | eglDestroySurface surface result =>
    obtain ⟨hmap, hresult⟩ := Classical.not_imp.mp hc
    obtain ⟨w, hw⟩ := Option.ne_none_iff_exists'.mp hmap
    obtain rfl : result = false := by simpa using hresult
    exact not_mirrors_eglDestroySurface hm hw
  | eglGetDisplay wsGetDisplay displayId real => exact absurd trivial hc
  | eglTerminate dpy => exact absurd trivial hc
  | scribble p dpy => exact absurd trivial hc

theorem mirrors_start : Mirrors start.surfaces := by
  constructor <;> simp [start]

/-- The map mirrors the live surfaces precisely in the runs without failures. -/
theorem mirrors_iff_succeeds {calls : List Call} (hrun : (exec freshStep start calls).isSome) :
    Always freshStep (fun s => Mirrors s.surfaces) start calls ↔
      Guarded freshStep Succeeds start calls := by
  have hsafe : ∀ s : State, Mirrors s.surfaces → Mirrors s.surfaces := fun _ => id
  exact always_iff_guarded hsafe (fun _ _ _ => mirrors_step)
    (fun _ _ _ => not_mirrors_of_fails) mirrors_start hrun

/-- A surface is made, destroyed, and its handle given out again. -/
theorem mirrors_iff_succeeds_again :
    Always freshStep (fun s => Mirrors s.surfaces) start
        [.eglCreateWindowSurface 1 7, .eglDestroySurface 7 true, .eglCreateWindowSurface 1 7,
          .eglDestroySurface 9 false] ↔
      Guarded freshStep Succeeds start
        [.eglCreateWindowSurface 1 7, .eglDestroySurface 7 true, .eglCreateWindowSurface 1 7,
          .eglDestroySurface 9 false] :=
  mirrors_iff_succeeds (by decide)

/-- The second failed create meets the entry that the first one left. -/
theorem not_mirrors_create_fails_twice :
    ¬ ∀ calls, (exec freshStep start calls).isSome →
      Always freshStep (fun s => Mirrors s.surfaces) start calls := by
  intro h
  have hm := h [.eglCreateWindowSurface 1 0, .eglCreateWindowSurface 1 0] (by decide)
    _ _ List.prefix_rfl rfl
  exact absurd hm.assertions (by decide)

end FakeLibc.EglSurface

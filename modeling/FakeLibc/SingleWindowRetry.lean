import FakeLibc.SingleWindowLife

namespace FakeLibc.SingleWindow

open FakeLibc.Lib.Run FakeLibc.Egl

variable {platform : Platform} {s t : State} {a : Action} {w win : EGLNativeWindowType}
  {surface result : EGLSurface} {n : Int} {refcount : Option Int}

structure Lost (win : EGLNativeWindowType) (s : State) : Prop where
  old : win < s.surfaces.created
  unheld : s.held win = 0
  last : s.nativewindow = some win ∧ s.windows win = some 1 ∨ s.windows win = none

theorem ne_of_window (hl : s.windows win = none) (hn : s.windows w = some n) : w ≠ win := by
  rintro rfl
  rw [hl] at hn
  cases hn

theorem window_of_bind {f : Int → Except Fault State} (h : (s.refcount w >>= f) = .ok t) :
    ∃ n, s.windows w = some n ∧ f n = .ok t := by
  cases hn : s.windows w with
  | none =>
    rw [State.refcount, hn] at h
    cases h
  | some n =>
    rw [refcount_bind hn] at h
    exact ⟨n, rfl, h⟩

theorem fault_of_exec {as : List Action} (h : exec (step platform) s as = some t)
    (ht : t.fault = none) : s.fault = none := by
  cases as with
  | nil =>
    obtain rfl := Option.some.inj h
    exact ht
  | cons a as =>
    obtain ⟨u, hu, -⟩ := Option.bind_eq_some_iff.mp h
    rw [step, Option.ite_none_right_eq_some] at hu
    exact hu.1.1

theorem ok_of_step (h : step platform s a = some t) (ht : t.fault = none) :
    perform platform s a = .ok t := by
  obtain ⟨-, rfl⟩ := step_cases h
  cases hp : perform platform s a with
  | error f =>
    rw [hp] at ht
    cases ht
  | ok u => rfl

theorem created_push (x : Surfaces) :
    (eglHelperPushMapping (wrappedCreate x w result) result w).created = x.created := by
  unfold eglHelperPushMapping wrappedCreate
  split <;> split <;> rfl

theorem created_pop (x : Surfaces) (r : Bool) :
    (Egl.eglDestroySurface x surface r).created = x.created := by
  cases hmap : x.surfaceWindowMap surface with
  | none => exact (not_popped x r hmap).2.2
  | some w => exact (popped x r hmap).2.2

theorem create_cases (h : eglCreateWindowSurface .hwcomposer s win result = .ok t) :
    s.nativewindow = none ∧ t.held = s.held ∧ t.surfaces.created = s.surfaces.created ∧
      ∃ n, s.windows win = some n ∧ t.windows = Function.update s.windows win (some (n + 1)) := by
  have hk : Kept .hwcomposer s (.eglCreateWindowSurface win result) := by
    by_contra hk
    obtain ⟨e, he⟩ := create_error hk
    rw [he] at h
    cases h
  obtain ⟨hnone, hwin⟩ := hk
  obtain ⟨n, hn⟩ := Option.isSome_iff_exists.mp (hwin rfl)
  rw [eglCreateWindowSurface, createWindow_hwcomposer hnone hn] at h
  replace h : (if (eglHelperPushMapping (wrappedCreate s.surfaces win result) result win).aborted
      then Except.error Fault.abort else Except.ok _) = Except.ok t := h
  split at h
  next => cases h
  next =>
    obtain rfl := Except.ok.inj h
    exact ⟨hnone, rfl, created_push s.surfaces, n, hn, rfl⟩

theorem wsDestroyWindow_cases (h : wsDestroyWindow s w = .ok t) :
    s.nativewindow = some w ∧ ∃ n, s.windows w = some n ∧
      t = { s with
        windows := Function.update s.windows w (if n = 1 then none else some (n - 1))
        nativewindow := none } := by
  rw [wsDestroyWindow] at h
  split at h
  next hnative =>
    refine ⟨hnative, ?_⟩
    cases hn : s.windows w with
    | none =>
      rw [decRef, State.refcount, hn] at h
      cases h
    | some n =>
      rw [decRef_eq hn] at h
      exact ⟨n, rfl, (Except.ok.inj h).symm⟩
  next => cases h

theorem destroy_cases {r : Bool} (h : eglDestroySurface platform s surface r = .ok t) :
    t.held = s.held ∧ t.surfaces.created = s.surfaces.created ∧
      (t.windows = s.windows ∧ t.nativewindow = s.nativewindow ∨
        ∃ w n, s.nativewindow = some w ∧ s.windows w = some n ∧
          t.windows = Function.update s.windows w (if n = 1 then none else some (n - 1))) := by
  cases hmap : s.surfaces.surfaceWindowMap surface with
  | none =>
    rw [eglDestroySurface, hmap] at h
    obtain rfl := Except.ok.inj h
    exact ⟨rfl, created_pop s.surfaces r, .inl ⟨rfl, rfl⟩⟩
  | some w =>
    rw [eglDestroySurface, hmap] at h
    replace h : destroyWindow { s with surfaces := Egl.eglDestroySurface s.surfaces surface r } w
      platform = .ok t := h
    rw [destroyWindow_eq] at h
    obtain ⟨hnative, n, hn, rfl⟩ := wsDestroyWindow_cases h
    exact ⟨rfl, created_pop s.surfaces r, .inr ⟨w, n, hnative, hn, rfl⟩⟩

theorem Lost.other (hl : Lost win s) (hne : w ≠ win)
    (hold : t.surfaces.created = s.surfaces.created) (hheld : t.held win = s.held win)
    (hgone : s.windows win = none) (hw : t.windows = Function.update s.windows w refcount) :
    Lost win t := by
  refine ⟨hold ▸ hl.old, hheld.trans hl.unheld, .inr ?_⟩
  rw [hw, Function.update_of_ne hne.symm]
  exact hgone

/-- The window of a surface that was not created: the reference of the map keeps
it from being used again, and takes it away when it goes. -/
theorem lost_step (hl : Lost win s) (ha : a ≠ .incRef win)
    (h : step .hwcomposer s a = some t) (ht : t.fault = none) : Lost win t := by
  have hok := ok_of_step h ht
  obtain ⟨he, -⟩ := step_cases h
  cases a with
  | hwcNativeWindowCreate =>
    obtain rfl := Except.ok.inj hok
    have hne : win ≠ s.surfaces.created := Nat.ne_of_lt hl.old
    have hsame : (hwcNativeWindowCreate s).windows win = s.windows win :=
      Function.update_of_ne hne ..
    refine ⟨Nat.lt_succ_of_lt hl.old, hl.unheld, ?_⟩
    rw [hsame]
    exact hl.last
  | eglCreateWindowSurface w result =>
    obtain ⟨hnone, hheld, hcreated, n, hn, hw⟩ := create_cases hok
    obtain ⟨hnative, -⟩ | hgone := hl.last
    · rw [hnone] at hnative
      cases hnative
    · exact hl.other (ne_of_window hgone hn) hcreated (congrFun hheld win) hgone hw
  | eglDestroySurface surface result =>
    obtain ⟨hheld, hcreated, ⟨hw, hnative⟩ | ⟨w, n, hnative, hn, hw⟩⟩ := destroy_cases hok
    · refine ⟨hcreated ▸ hl.old, (congrFun hheld win).trans hl.unheld, ?_⟩
      rw [hw, hnative]
      exact hl.last
    · obtain ⟨hnat, hone⟩ | hgone := hl.last
      · obtain rfl : w = win := Option.some.inj (hnative.symm.trans hnat)
        obtain rfl : n = 1 := Option.some.inj (hn.symm.trans hone)
        refine ⟨hcreated ▸ hl.old, (congrFun hheld w).trans hl.unheld, .inr ?_⟩
        rw [hw, Function.update_self]
        rfl
      · exact hl.other (ne_of_window hgone hn) hcreated (congrFun hheld win) hgone hw
  | eglSwapInterval surface =>
    have hsame : s = t := by
      cases hmap : s.surfaces.surfaceWindowMap surface with
      | none =>
        rw [perform, eglSwapInterval, hmap] at hok
        exact Except.ok.inj hok
      | some w =>
        rw [perform, eglSwapInterval, hmap] at hok
        exact Except.ok.inj hok
    exact hsame ▸ hl
  | incRef w =>
    have hne : w ≠ win := by
      rintro rfl
      exact ha rfl
    obtain ⟨n, hn, hu⟩ := window_of_bind hok
    obtain rfl := Except.ok.inj hu
    refine ⟨hl.old, (Function.update_of_ne hne.symm ..).trans hl.unheld, ?_⟩
    have hsame : Function.update s.windows w (some (n + 1)) win = s.windows win :=
      Function.update_of_ne hne.symm ..
    show _ ∨ Function.update s.windows w (some (n + 1)) win = none
    rw [hsame]
    exact hl.last.imp (fun h => ⟨h.1, hsame.trans h.2⟩) id
  | decRef w =>
    have hne : w ≠ win := by
      rintro rfl
      have hheld : 0 < s.held w := of_decide_eq_true he
      rw [hl.unheld] at hheld
      exact Nat.lt_irrefl 0 hheld
    obtain ⟨n, hn, hu⟩ := window_of_bind hok
    obtain rfl := Except.ok.inj hu
    refine ⟨hl.old, (Function.update_of_ne hne.symm ..).trans hl.unheld, ?_⟩
    have hsame : Function.update s.windows w (if n = 1 then none else some (n - 1)) win =
      s.windows win := Function.update_of_ne hne.symm ..
    exact hl.last.imp (fun h => ⟨h.1, hsame.trans h.2⟩) (fun h => hsame.trans h)
  | use w =>
    cases hn : s.windows w with
    | none =>
      rw [perform, State.refcount, hn] at hok
      cases hok
    | some n =>
      rw [perform, State.refcount, hn] at hok
      obtain rfl := Except.ok.inj hok
      exact hl

theorem lost_run {as : List Action} (hl : Lost win s) (ha : ∀ a ∈ as, a ≠ .incRef win)
    (h : exec (step .hwcomposer) s as = some t) (ht : t.fault = none) : Lost win t := by
  induction as generalizing s with
  | nil =>
    obtain rfl := Option.some.inj h
    exact hl
  | cons a as ih =>
    obtain ⟨u, hu, h⟩ := Option.bind_eq_some_iff.mp h
    have hlost := lost_step hl (ha a List.mem_cons_self) hu (fault_of_exec h ht)
    exact ih hlost (fun b hb => ha b (List.mem_cons_of_mem a hb)) h

theorem Lost.not_kept (hl : Lost win s) (result : EGLSurface) :
    ¬ Kept .hwcomposer s (.eglCreateWindowSurface win result) := by
  rintro ⟨hnone, hwin⟩
  obtain ⟨hnative, -⟩ | hgone := hl.last
  · rw [hnone] at hnative
    cases hnative
  · have hlive := hwin rfl
    rw [hgone] at hlive
    cases hlive

theorem lost_of_failed (hs : Sound s)
    (hk : Kept .hwcomposer s (.eglCreateWindowSurface win eglNoSurface))
    (hheld : s.held win = 0)
    (h : step .hwcomposer s (.eglCreateWindowSurface win eglNoSurface) = some t) : Lost win t := by
  obtain ⟨hnone, hwin⟩ := hk
  obtain ⟨n, hn⟩ := Option.isSome_iff_exists.mp (hwin rfl)
  obtain ⟨u, hu, hsound, hnative, hsame⟩ := hwcomposer_create hs hnone hn eglNoSurface
  obtain ⟨-, rfl⟩ := step_cases h
  rw [perform, hu]
  show Lost win u
  have hunheld : u.held win = 0 := (congrFun hsame win).trans hheld
  obtain ⟨k, hk⟩ := hsound.window_of_nativewindow hnative
  have hcount : k = 1 := by
    rw [(hsound.lives win).count k hk, State.references, hunheld, if_pos hnative]
    rfl
  refine ⟨?_, hunheld, .inl ⟨hnative, hcount ▸ hk⟩⟩
  by_contra hlt
  rw [hsound.made win (Nat.not_lt.mp hlt)] at hk
  cases hk

/-- When `eglCreateWindowSurface` fails on the hwcomposer platform, the window
stays the native one. Until `eglDestroySurface` is called for `EGL_NO_SURFACE` no
surface can be created at all, and that call deletes the client's window: unless
the wrapped library takes a reference, a second try with the same window ends in
a failed assertion or uses it after its end, whatever is done in between. -/
theorem retry_faults (as bs : List Action) (s t u : State) (win : EGLNativeWindowType)
    (hg : Guarded (step .hwcomposer) (Kept .hwcomposer) start as)
    (hs : exec (step .hwcomposer) start as = some s)
    (hk : Kept .hwcomposer s (.eglCreateWindowSurface win eglNoSurface))
    (hheld : s.held win = 0)
    (ht : step .hwcomposer s (.eglCreateWindowSurface win eglNoSurface) = some t)
    (hu : exec (step .hwcomposer) t bs = some u) (hfault : u.fault = none)
    (hbs : ∀ a ∈ bs, a ≠ .incRef win) (result : EGLSurface) :
    ∃ v, step .hwcomposer u (.eglCreateWindowSurface win result) = some v ∧ v.fault ≠ none := by
  have hsound : Always (step .hwcomposer) Sound start as :=
    always_of_guarded (fun _ _ _ hs hk h => (sound_step_iff hs h).mpr hk) sound_start hg
  have hlost := lost_of_failed (hsound as s List.prefix_rfl hs) hk hheld ht
  obtain ⟨e, he⟩ := create_error ((lost_run hlost hbs hu hfault).not_kept result)
  refine ⟨{ u with fault := some e }, ?_, Option.some_ne_none e⟩
  rw [step, if_pos ⟨hfault, rfl⟩, perform, he]
  rfl

/-- Another window gets a surface in between. -/
theorem retry_faults_after_destroy :
    ∃ t u v, step .hwcomposer (hwcNativeWindowCreate start) (.eglCreateWindowSurface 0 0) = some t ∧
      exec (step .hwcomposer) t [.eglDestroySurface 0 false, .hwcNativeWindowCreate,
        .eglCreateWindowSurface 1 7, .eglDestroySurface 7 true] = some u ∧
      step .hwcomposer u (.eglCreateWindowSurface 0 7) = some v ∧ v.fault ≠ none := by
  have hretry := retry_faults [.hwcNativeWindowCreate] [.eglDestroySurface 0 false,
    .hwcNativeWindowCreate, .eglCreateWindowSurface 1 7, .eglDestroySurface 7 true] _ _ _ 0
    (by decide) rfl (by decide) rfl rfl rfl rfl (by decide) 7
  obtain ⟨v, hv, hfault⟩ := hretry
  exact ⟨_, _, v, rfl, rfl, hv, hfault⟩

end FakeLibc.SingleWindow

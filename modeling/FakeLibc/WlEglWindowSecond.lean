import FakeLibc.WlEglWindowRuns

namespace FakeLibc.WlEglWindow

open FakeLibc.Lib.Run FakeLibc.Lib.MutualLinks FakeLibc.Egl

variable {s t : State} {p : Ptr} {v w : EGLNativeWindowType} {e : EglWindow}
  {a b surface : EGLSurface} {j k : Nat}

theorem step_ok {action : Action} (hf : s.fault = none) (ha : s.surfaces.aborted = false)
    (hen : Enabled s action) (h : perform s action = .ok t) : step s action = some t := by
  rw [step, if_pos ⟨hf, ha, hen⟩, h]
  rfl

theorem step_error {action : Action} {f : Fault} (hf : s.fault = none)
    (ha : s.surfaces.aborted = false) (hen : Enabled s action) (h : perform s action = .error f) :
    step s action = some { s with fault := some f } := by
  rw [step, if_pos ⟨hf, ha, hen⟩, h]
  rfl

theorem createOn_of_none {x : Surfaces} {result : EGLSurface}
    (h : x.surfaceWindowMap result = none) : (createOn x result).aborted = x.aborted := by
  by_cases hz : result = eglNoSurface <;>
    simp_all [createOn, wrappedCreate, eglHelperPushMapping, eglHelperHasMapping]

theorem destruct_bind {n : NativeWindow} (hn : s.windows w = some n) (hback : n.window = some p) :
    destruct s w = (s.eglWindow p >>= fun e =>
      .ok ((s.putEglWindow p (some { e with
        nativewindow := none, resizeCallback := false, freeCallback := false })).putWindow w
          none)) := by
  rw [destruct, window_bind hn]
  simp only [hback]
  cases hp : s.eglWindows p with
  | none =>
    rw [State.eglWindow, hp]
    rfl
  | some e =>
    rw [eglWindow_eq hp]
    rfl

/-- The window `w` points at `p`, and its references are that of its surface and
`k` of the wrapped library. -/
structure Surfaced (s : State) (p : Ptr) (w : EGLNativeWindowType) (surface : EGLSurface)
    (k : Nat) : Prop where
  fault : s.fault = none
  running : s.surfaces.aborted = false
  mapped : s.surfaces.surfaceWindowMap surface = some w
  held : s.held w = k
  window : ∃ n, s.windows w = some n ∧ n.window = some p ∧ n.refcount = k + 1

structure Recounted (w : EGLNativeWindowType) (s t : State) : Prop where
  surfaces : t.surfaces = s.surfaces
  eglWindows : t.eglWindows = s.eglWindows
  fault : t.fault = s.fault
  windows : ∀ v ≠ w, t.windows v = s.windows v
  held : ∀ v ≠ w, t.held v = s.held v

theorem recounted_refl (w : EGLNativeWindowType) (s : State) : Recounted w s s :=
  ⟨rfl, rfl, rfl, fun _ _ => rfl, fun _ _ => rfl⟩

theorem Recounted.trans {u : State} (h : Recounted w s t) (h' : Recounted w t u) :
    Recounted w s u where
  surfaces := h'.surfaces.trans h.surfaces
  eglWindows := h'.eglWindows.trans h.eglWindows
  fault := h'.fault.trans h.fault
  windows := fun v hv => (h'.windows v hv).trans (h.windows v hv)
  held := fun v hv => (h'.held v hv).trans (h.held v hv)

theorem Surfaced.of_recounted (h : Surfaced s p v surface k) (hr : Recounted w s t) (hv : v ≠ w) :
    Surfaced t p v surface k := by
  obtain ⟨n, hn, hback, hcount⟩ := h.window
  refine ⟨hr.fault.trans h.fault, ?_, ?_, (hr.held v hv).trans h.held, n, ?_, hback, hcount⟩
  · rw [hr.surfaces]
    exact h.running
  · rw [hr.surfaces]
    exact h.mapped
  · exact (hr.windows v hv).trans hn

theorem Surfaced.incRef (h : Surfaced s p w surface k) :
    ∃ t, step s (.incRef w) = some t ∧ Surfaced t p w surface (k + 1) ∧ Recounted w s t := by
  obtain ⟨n, hn, hback, hcount⟩ := h.window
  let u : State := { s with held := Function.update s.held w (s.held w + 1) }
  let t := u.putWindow w (some { n with refcount := n.refcount + 1 })
  have hun : u.windows w = some n := hn
  have hperform : perform s (.incRef w) = .ok t := window_bind hun _
  have henabled : Enabled s (.incRef w) := by
    show (s.windows w).isSome = true
    rw [hn]
    rfl
  refine ⟨t, step_ok h.fault h.running henabled hperform, ?_, ?_⟩
  · refine ⟨h.fault, h.running, h.mapped, ?_, _, Function.update_self .., hback, ?_⟩
    · show Function.update s.held w (s.held w + 1) w = k + 1
      rw [Function.update_self, h.held]
    · simp [hcount]
  · exact ⟨rfl, rfl, rfl, fun v hv => Function.update_of_ne hv .., fun v hv =>
      Function.update_of_ne hv ..⟩

theorem Surfaced.decRef (h : Surfaced s p w surface (k + 1)) :
    ∃ t, step s (.decRef w) = some t ∧ Surfaced t p w surface k ∧ Recounted w s t := by
  obtain ⟨n, hn, hback, hcount⟩ := h.window
  let u : State := { s with held := Function.update s.held w (s.held w - 1) }
  let t := u.putWindow w (some { n with refcount := n.refcount - 1 })
  have hun : u.windows w = some n := hn
  have hmore : ¬ n.refcount = 1 := by
    rw [hcount]
    omega
  have hperform : perform s (.decRef w) = .ok t := by
    show FakeLibc.WlEglWindow.decRef u w = _
    rw [FakeLibc.WlEglWindow.decRef, window_bind hun]
    exact if_neg hmore
  have henabled : Enabled s (.decRef w) := by
    show 0 < s.held w
    rw [h.held]
    exact Nat.succ_pos k
  refine ⟨t, step_ok h.fault h.running henabled hperform, ?_, ?_⟩
  · refine ⟨h.fault, h.running, h.mapped, ?_, _, Function.update_self .., hback, ?_⟩
    · show Function.update s.held w (s.held w - 1) w = k
      rw [Function.update_self, h.held, Nat.add_sub_cancel]
    · simp [hcount]
  · exact ⟨rfl, rfl, rfl, fun v hv => Function.update_of_ne hv .., fun v hv =>
      Function.update_of_ne hv ..⟩

theorem Surfaced.takes (h : Surfaced s p w surface k) (j : Nat) :
    ∃ t, exec step s (List.replicate j (.incRef w)) = some t ∧ Surfaced t p w surface (k + j) ∧
      Recounted w s t := by
  induction j generalizing s k with
  | zero => exact ⟨s, rfl, h, recounted_refl w s⟩
  | succ j ih =>
    obtain ⟨u, hu, hsurfaced, hsu⟩ := h.incRef
    obtain ⟨t, ht, hlast, hut⟩ := ih hsurfaced
    refine ⟨t, ?_, ?_, hsu.trans hut⟩
    · rw [List.replicate_succ, exec_cons, hu, Option.bind_some, ht]
    · rwa [Nat.add_assoc, Nat.add_comm 1 j] at hlast

theorem Surfaced.gives (h : Surfaced s p w surface k) :
    ∃ t, exec step s (List.replicate k (.decRef w)) = some t ∧ Surfaced t p w surface 0 ∧
      Recounted w s t := by
  induction k generalizing s with
  | zero => exact ⟨s, rfl, h, recounted_refl w s⟩
  | succ k ih =>
    obtain ⟨u, hu, hsurfaced, hsu⟩ := h.decRef
    obtain ⟨t, ht, hlast, hut⟩ := ih hsurfaced
    refine ⟨t, ?_, hlast, hsu.trans hut⟩
    rw [List.replicate_succ, exec_cons, hu, Option.bind_some, ht]

/-- A surface is destroyed: the wrapped library gives back what it holds of the
window, and then the surface's own reference goes. -/
def destroySurface (w : EGLNativeWindowType) (k : Nat) (surface : EGLSurface) (result : Bool) :
    List Action :=
  List.replicate k (.decRef w) ++ [.eglDestroySurface surface result]

theorem Surfaced.faults (h : Surfaced s p w surface k) (hgone : s.eglWindows p = none)
    (result : Bool) : ∃ t, exec step s (destroySurface w k surface result) = some t ∧
      t.fault = some .freedEglWindow := by
  obtain ⟨u, hu, hlast, hsu⟩ := h.gives
  obtain ⟨n, hn, hback, hcount⟩ := hlast.window
  let x : State := { u with surfaces := Egl.eglDestroySurface u.surfaces surface result }
  let y := x.putWindow w (some { n with refcount := n.refcount - 1 })
  have hxn : x.windows w = some n := hn
  have hyn : y.windows w = some { n with refcount := n.refcount - 1 } := Function.update_self ..
  have hdestruct : destruct y w = .error .freedEglWindow := by
    have hend : ({ n with refcount := n.refcount - 1 } : NativeWindow).window = some p := hback
    rw [destruct_bind hyn hend]
    have hgone' : y.eglWindows p = none := (congrFun hsu.eglWindows p).trans hgone
    exact eglWindow_error hgone' _
  have hbad : eglDestroySurface u surface result = .error .freedEglWindow := by
    rw [eglDestroySurface, hlast.mapped]
    show FakeLibc.WlEglWindow.decRef x w = _
    rw [FakeLibc.WlEglWindow.decRef, window_bind hxn]
    exact (if_pos hcount).trans hdestruct
  have hstep : step u (.eglDestroySurface surface result) =
      some { u with fault := some .freedEglWindow } :=
    step_error hlast.fault hlast.running trivial hbad
  refine ⟨{ u with fault := some .freedEglWindow }, ?_, rfl⟩
  rw [destroySurface, exec_append, hu, Option.bind_some, exec_cons, hstep]
  rfl

theorem Surfaced.ends (h : Surfaced s p w surface k) (he : s.eglWindows p = some e)
    (result : Bool) : ∃ t e', exec step s (destroySurface w k surface result) = some t ∧
      t.fault = none ∧ t.surfaces.aborted = false ∧
      t.surfaces.surfaceWindowMap = Function.update s.surfaces.surfaceWindowMap surface none ∧
      t.eglWindows p = some e' ∧ e'.freeCallback = false ∧
      (∀ v ≠ w, t.windows v = s.windows v) ∧ ∀ v ≠ w, t.held v = s.held v := by
  obtain ⟨u, hu, hlast, hsu⟩ := h.gives
  obtain ⟨n, hn, hback, hcount⟩ := hlast.window
  let x := Egl.eglDestroySurface u.surfaces surface result
  have hx : x.surfaceWindowMap = Function.update u.surfaces.surfaceWindowMap surface none ∧
      x.aborted = u.surfaces.aborted := by
    have hmap := hlast.mapped
    cases result <;>
      simp [x, Egl.eglDestroySurface, wrappedDestroy, hmap, eglHelperPopMapping, wsDestroyWindow]
  let e' : EglWindow := { e with
    nativewindow := none, resizeCallback := false, freeCallback := false }
  let u₁ : State := { u with surfaces := x }
  let u₂ := u₁.putWindow w (some { n with refcount := n.refcount - 1 })
  let t := (u₂.putEglWindow p (some e')).putWindow w none
  have hu₁ : u₁.windows w = some n := hn
  have hu₂ : u₂.windows w = some { n with refcount := n.refcount - 1 } := Function.update_self ..
  have he₂ : u₂.eglWindows p = some e := (congrFun hsu.eglWindows p).trans he
  have hdestruct : destruct u₂ w = .ok t := by
    have hend : ({ n with refcount := n.refcount - 1 } : NativeWindow).window = some p := hback
    rw [destruct_bind hu₂ hend]
    exact eglWindow_bind he₂ _
  have hgood : eglDestroySurface u surface result = .ok t := by
    rw [eglDestroySurface, hlast.mapped]
    show FakeLibc.WlEglWindow.decRef u₁ w = _
    rw [FakeLibc.WlEglWindow.decRef, window_bind hu₁]
    exact (if_pos hcount).trans hdestruct
  have hstep : step u (.eglDestroySurface surface result) = some t :=
    step_ok hlast.fault hlast.running trivial hgood
  refine ⟨t, e', ?_, hlast.fault, hx.2.trans hlast.running, ?_, Function.update_self .., rfl,
    fun v hv => ?_, hsu.held⟩
  · rw [destroySurface, exec_append, hu, Option.bind_some, exec_cons, hstep]
    rfl
  · exact hx.1.trans (by rw [hsu.surfaces])
  · have h₁ : t.windows v = u₂.windows v := Function.update_of_ne hv ..
    have h₂ : u₂.windows v = u.windows v := Function.update_of_ne hv ..
    exact h₁.trans (h₂.trans (hsu.windows v hv))

structure Taken (s : State) (p : Ptr) (w : EGLNativeWindowType) (a b : EGLSurface) : Prop where
  sound : Sound s
  running : s.surfaces.aborted = false
  partner : s.nativewindow p = some w
  mapped : s.surfaces.surfaceWindowMap a = some w
  fresh : s.surfaces.surfaceWindowMap b = none

theorem Taken.create (h : Taken s p w a b) (d : Ptr) :
    ∃ (e : EglWindow) (t : State), step s (.eglCreateWindowSurface (some p) (some d) b) = some t ∧
      Surfaced t p w a (s.held w) ∧ Surfaced t p s.surfaces.created b 0 ∧
      t.eglWindows p = some (e.attach s.surfaces.created) ∧ w ≠ s.surfaces.created := by
  obtain ⟨e, he⟩ := exists_eglWindow h.partner
  obtain ⟨n, hn, hcount⟩ := (h.sound.counted h.running).window_of_mapped h.mapped
  obtain ⟨n', hn', hback⟩ := h.sound.linked.window_of_nativewindow h.partner
  obtain rfl : n = n' := Option.some.inj (hn.symm.trans hn')
  have hnone := h.sound.windows s.surfaces.created (Nat.le_refl _)
  have hnew : w ≠ s.surfaces.created := by
    rintro rfl
    rw [hnone] at hn
    cases hn
  have hheld := ((h.sound.counted h.running).references_of_none hnone).1
  have hrunning : (createOn s.surfaces b).aborted = false :=
    (createOn_of_none h.fresh).trans h.running
  obtain ⟨-, hmap⟩ := createOn_cases hrunning
  have hab : a ≠ b := by
    rintro rfl
    have hmapped := h.mapped
    rw [h.fresh] at hmapped
    cases hmapped
  refine ⟨e, _, step_ok h.sound.fault h.running trivial (eglCreateWindowSurface_eq he d b),
    ⟨h.sound.fault, hrunning, ?_, rfl, n, ?_, hback, hcount⟩,
    ⟨h.sound.fault, hrunning, ?_, hheld, _, Function.update_self .., rfl, rfl⟩,
    Function.update_self .., hnew⟩
  · show (createOn s.surfaces b).surfaceWindowMap a = some w
    rw [hmap, Function.update_of_ne hab]
    exact h.mapped
  · exact (Function.update_of_ne hnew ..).trans hn
  · show (createOn s.surfaces b).surfaceWindowMap b = _
    rw [hmap, Function.update_self]

/-- A second surface is made, and the wrapped library takes `j` references to
its native window `v`. -/
def secondSurface (p d : Ptr) (b : EGLSurface) (v : EGLNativeWindowType) (j : Nat) :
    List Action :=
  .eglCreateWindowSurface (some p) (some d) b :: List.replicate j (.incRef v)

theorem Taken.second (h : Taken s p w a b) (d : Ptr) (j : Nat) :
    ∃ (e : EglWindow) (t : State), exec step s (secondSurface p d b s.surfaces.created j) = some t ∧
      Surfaced t p w a (s.held w) ∧ Surfaced t p s.surfaces.created b j ∧
      t.eglWindows p = some (e.attach s.surfaces.created) ∧ w ≠ s.surfaces.created := by
  obtain ⟨e, u, hu, hfirst, hsecond, he, hne⟩ := h.create d
  obtain ⟨t, ht, hlast, hut⟩ := hsecond.takes j
  refine ⟨e, t, ?_, hfirst.of_recounted hut hne, Nat.zero_add j ▸ hlast, ?_, hne⟩
  · rw [secondSurface, exec_cons, hu, Option.bind_some, ht]
  · rw [hut.eglWindows]
    exact he

/-- The window goes before its first surface. -/
theorem Taken.window_first (h : Taken s p w a b) (d : Ptr) (j : Nat) (r : Bool) :
    ∃ t, exec step s (secondSurface p d b s.surfaces.created j ++ [.wlEglWindowDestroy p] ++
      destroySurface w (s.held w) a r) = some t ∧ t.fault = some .freedEglWindow := by
  obtain ⟨e, u, hu, hfirst, hsecond, he, hne⟩ := h.second d j
  obtain ⟨m, hm, -, -⟩ := hsecond.window
  let v := (u.putWindow s.surfaces.created (some { m with window := none })).putEglWindow p none
  have hv : wlEglWindowDestroy u p = .ok v := by
    rw [wlEglWindowDestroy, eglWindow_bind he]
    show (freeCallback u _ >>= _) = _
    have hnat : (e.attach s.surfaces.created).nativewindow = some s.surfaces.created := rfl
    rw [freeCallback, pointee_bind hnat, window_bind hm]
    rfl
  have hstep : step u (.wlEglWindowDestroy p) = some v :=
    step_ok hfirst.fault hfirst.running trivial hv
  obtain ⟨n, hn, hback, hcount⟩ := hfirst.window
  have hlast : Surfaced v p w a (s.held w) :=
    ⟨hfirst.fault, hfirst.running, hfirst.mapped, hfirst.held, n,
      (Function.update_of_ne hne ..).trans hn, hback, hcount⟩
  obtain ⟨t, ht, hfault⟩ := hlast.faults (Function.update_self ..) r
  refine ⟨t, ?_, hfault⟩
  rw [exec_append, exec_append, hu, Option.bind_some, exec_cons, hstep]
  exact ht

/-- The first surface goes, and takes the callbacks of the window with it; then the window. -/
theorem Taken.surface_first (h : Taken s p w a b) (d : Ptr) (j : Nat) (r r' : Bool) :
    ∃ t, exec step s (secondSurface p d b s.surfaces.created j ++ destroySurface w (s.held w) a r ++
      [.wlEglWindowDestroy p] ++ destroySurface s.surfaces.created j b r') = some t ∧
      t.fault = some .freedEglWindow := by
  obtain ⟨e, u, hu, hfirst, hsecond, he, hne⟩ := h.second d j
  obtain ⟨x, e', hx, hf, ha, hmap, he', hfree, hwindows, hheld⟩ := hfirst.ends he r
  have hba : b ≠ a := by
    rintro rfl
    exact hne (Option.some.inj (hfirst.mapped.symm.trans hsecond.mapped))
  let v := x.putEglWindow p none
  have hv : wlEglWindowDestroy x p = .ok v := by
    rw [wlEglWindowDestroy, eglWindow_bind he', hfree]
    rfl
  have hstep : step x (.wlEglWindowDestroy p) = some v := step_ok hf ha trivial hv
  obtain ⟨m, hm, hback, hcount⟩ := hsecond.window
  have hlast : Surfaced v p s.surfaces.created b j := by
    refine ⟨hf, ha, ?_, (hheld _ hne.symm).trans hsecond.held, m,
      (hwindows _ hne.symm).trans hm, hback, hcount⟩
    show x.surfaces.surfaceWindowMap b = _
    rw [hmap, Function.update_of_ne hba]
    exact hsecond.mapped
  obtain ⟨t, ht, hfault⟩ := hlast.faults (Function.update_self ..) r'
  refine ⟨t, ?_, hfault⟩
  rw [exec_append, exec_append, exec_append, hu, Option.bind_some, hx, Option.bind_some, exec_cons,
    hstep]
  exact ht

/-- The driver does not see that a window has a surface already, since each
surface gets a native window of its own. Once a second one is made, the window
must outlive both: whichever of the first surface and the window goes first, the
destructor of a native window writes to the window after it was freed. -/
theorem second_surface_faults (calls : List Action) (s : State) (p d : Ptr)
    (w : EGLNativeWindowType) (a b : EGLSurface) (j : Nat) (r r' : Bool)
    (hg : Guarded step Kept start calls) (hs : exec step start calls = some s)
    (ha : s.surfaces.aborted = false) (hp : s.nativewindow p = some w)
    (hmap : s.surfaces.surfaceWindowMap a = some w)
    (hb : s.surfaces.surfaceWindowMap b = none) :
    (∃ t, exec step s (secondSurface p d b s.surfaces.created j ++ [.wlEglWindowDestroy p] ++
        destroySurface w (s.held w) a r) = some t ∧ t.fault = some .freedEglWindow) ∧
      ∃ t, exec step s (secondSurface p d b s.surfaces.created j ++
        destroySurface w (s.held w) a r ++ [.wlEglWindowDestroy p] ++
        destroySurface s.surfaces.created j b r') = some t ∧ t.fault = some .freedEglWindow := by
  have hsound : Always step Sound start calls :=
    always_of_guarded (fun _ _ _ hs hk h => (sound_step_iff hs h).mpr hk) sound_start hg
  have htaken : Taken s p w a b := ⟨hsound calls s List.prefix_rfl hs, ha, hp, hmap, hb⟩
  exact ⟨htaken.window_first d j r, htaken.surface_first d j r r'⟩

/-- The first surface has a reference of the wrapped library to its window. -/
theorem second_surface_faults_held :
    ∃ t, exec step start [.wlEglWindowCreate 1 640 480,
        .eglCreateWindowSurface (some 0) (some 5) 3, .incRef 0] = some t ∧
      ∃ u, exec step t [.eglCreateWindowSurface (some 0) (some 5) 7, .incRef 1,
        .wlEglWindowDestroy 0, .decRef 0, .eglDestroySurface 3 true] = some u ∧
        u.fault = some .freedEglWindow := by
  refine ⟨_, rfl, ?_⟩
  exact (second_surface_faults [.wlEglWindowCreate 1 640 480,
    .eglCreateWindowSurface (some 0) (some 5) 3, .incRef 0] _ 0 5 0 3 7 1 true true (by decide) rfl
    rfl rfl rfl rfl).1

end FakeLibc.WlEglWindow

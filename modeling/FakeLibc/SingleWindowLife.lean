import FakeLibc.SingleWindow

namespace FakeLibc.SingleWindow

open FakeLibc.Lib.Run FakeLibc.Egl

def State.references (s : State) (w : EGLNativeWindowType) : Int :=
  s.held w + if s.nativewindow = some w then 1 else 0

/-- A window is there as long as there are references to it, and also until it
gets its first surface. -/
structure Lives (refcount : Option Int) (references : Int) (unused : Bool) : Prop where
  count : ∀ n, refcount = some n → n = references
  isSome : refcount.isSome ↔ 0 < references ∨ unused = true
  fresh : unused = true → references = 0

/-- No window that was deleted has been used, and no assertion has failed. The
one native window is that of the one surface in the map. -/
structure Sound (s : State) : Prop where
  fault : s.fault = none
  running : s.surfaces.aborted = false
  single : ∀ surface w, s.surfaces.surfaceWindowMap surface = some w → s.nativewindow = some w
  mapped : ∀ w, s.nativewindow = some w → ∃ surface, s.surfaces.surfaceWindowMap surface = some w
  apart : ∀ surface surface' w, s.surfaces.surfaceWindowMap surface = some w →
    s.surfaces.surfaceWindowMap surface' = some w → surface = surface'
  lives : ∀ w, Lives (s.windows w) (s.references w) (s.unused w)
  made : ∀ w, s.surfaces.created ≤ w → s.windows w = none

/-- The client creates a surface only when every surface it created before was
destroyed, also one that was not created at all, and with a window that is there. -/
def Kept (platform : Platform) (s : State) : Action → Prop
  | .eglCreateWindowSurface win _ =>
    s.nativewindow = none ∧ (platform = .hwcomposer → (s.windows win).isSome)
  | _ => True

instance (platform : Platform) (s : State) : (a : Action) → Decidable (Kept platform s a)
  | .eglCreateWindowSurface win _ =>
    inferInstanceAs (Decidable (s.nativewindow = none ∧
      (platform = .hwcomposer → (s.windows win).isSome = true)))
  | .hwcNativeWindowCreate => .isTrue trivial
  | .eglDestroySurface _ _ => .isTrue trivial
  | .eglSwapInterval _ => .isTrue trivial
  | .incRef _ => .isTrue trivial
  | .decRef _ => .isTrue trivial
  | .use _ => .isTrue trivial

variable {platform : Platform} {s t : State} {a : Action} {w win : EGLNativeWindowType}
  {surface result : EGLSurface} {n : Int} {refcount : Option Int} {references : Int}
  {unused : Bool}

namespace Lives

theorem more (h : Lives (some n) references unused) (hr : 0 ≤ references) :
    Lives (some (n + 1)) (references + 1) false := by
  obtain rfl := h.count n rfl
  refine ⟨fun k hk => (Option.some.inj hk).symm, ?_, fun hu => by cases hu⟩
  exact iff_of_true rfl (.inl (by omega))

theorem less (h : Lives (some n) (references + 1) unused) (hr : 0 ≤ references) :
    Lives (if n = 1 then none else some (n - 1)) references unused := by
  obtain rfl := h.count n rfl
  have hused : unused ≠ true := fun hu => by
    have := h.fresh hu
    omega
  split
  next hlast =>
    refine ⟨fun k hk => (by cases hk), iff_of_false Bool.false_ne_true ?_,
      fun hu => absurd hu hused⟩
    rintro (hpos | hu)
    · omega
    · exact hused hu
  next hmore =>
    refine ⟨fun k hk => ?_, iff_of_true rfl (.inl (by omega)), fun hu => absurd hu hused⟩
    have := Option.some.inj hk
    omega

end Lives

theorem refcount_bind {α : Type} (hn : s.windows w = some n) (f : Int → Except Fault α) :
    (s.refcount w >>= f) = f n := by
  rw [State.refcount, hn]
  rfl

theorem incRef_eq (hn : s.windows w = some n) :
    incRef s w = .ok { s with windows := Function.update s.windows w (some (n + 1)) } :=
  refcount_bind hn _

theorem decRef_eq (hn : s.windows w = some n) :
    decRef s w = .ok
      { s with windows := Function.update s.windows w (if n = 1 then none else some (n - 1)) } :=
  refcount_bind hn _

theorem references_nonneg (s : State) (w : EGLNativeWindowType) : 0 ≤ s.references w := by
  rw [State.references]
  split <;> omega

theorem Sound.window_of_references (hs : Sound s) (h : 0 < s.references w) :
    ∃ n, s.windows w = some n :=
  Option.isSome_iff_exists.mp ((hs.lives w).isSome.mpr (.inl h))

theorem Sound.window_of_held (hs : Sound s) (h : 0 < s.held w) : ∃ n, s.windows w = some n := by
  apply hs.window_of_references
  rw [State.references]
  split <;> omega

theorem Sound.window_of_nativewindow (hs : Sound s) (h : s.nativewindow = some w) :
    ∃ n, s.windows w = some n := by
  apply hs.window_of_references
  rw [State.references, if_pos h]
  omega

theorem lives_update (hs : ∀ v, Lives (s.windows v) (s.references v) (s.unused v))
    (hw : t.windows = Function.update s.windows w refcount)
    (hr : ∀ v, v ≠ w → t.references v = s.references v)
    (hu : ∀ v, v ≠ w → t.unused v = s.unused v)
    (hl : Lives refcount (t.references w) (t.unused w)) (v : EGLNativeWindowType) :
    Lives (t.windows v) (t.references v) (t.unused v) := by
  by_cases hv : v = w
  · subst hv
    rw [hw, Function.update_self]
    exact hl
  · rw [hw, Function.update_of_ne hv, hr v hv, hu v hv]
    exact hs v

theorem Sound.map_eq_none (hs : Sound s) (h : s.nativewindow = none) (surface : EGLSurface) :
    s.surfaces.surfaceWindowMap surface = none := by
  rw [Option.eq_none_iff_forall_ne_some]
  intro w hw
  rw [hs.single surface w hw] at h
  cases h

theorem pushed {x : Surfaces} (h : x.surfaceWindowMap result = none) :
    (eglHelperPushMapping (wrappedCreate x w result) result w).aborted = x.aborted ∧
      (eglHelperPushMapping (wrappedCreate x w result) result w).surfaceWindowMap =
        Function.update x.surfaceWindowMap result (some w) ∧
      (eglHelperPushMapping (wrappedCreate x w result) result w).created = x.created := by
  by_cases hz : result = eglNoSurface <;>
    simp_all [wrappedCreate, eglHelperPushMapping, eglHelperHasMapping]

theorem popped (x : Surfaces) (result : Bool) (h : x.surfaceWindowMap surface = some w) :
    (Egl.eglDestroySurface x surface result).aborted = x.aborted ∧
      (Egl.eglDestroySurface x surface result).surfaceWindowMap =
        Function.update x.surfaceWindowMap surface none ∧
      (Egl.eglDestroySurface x surface result).created = x.created := by
  cases result <;>
    simp [Egl.eglDestroySurface, wrappedDestroy, h, eglHelperPopMapping, Egl.wsDestroyWindow]

theorem not_popped (x : Surfaces) (result : Bool) (h : x.surfaceWindowMap surface = none) :
    (Egl.eglDestroySurface x surface result).aborted = x.aborted ∧
      (Egl.eglDestroySurface x surface result).surfaceWindowMap = x.surfaceWindowMap ∧
      (Egl.eglDestroySurface x surface result).created = x.created := by
  cases result <;> simp [Egl.eglDestroySurface, wrappedDestroy, h]

theorem sound_attach (hs : Sound s) (hnone : s.nativewindow = none)
    (hcreate : createWindow s win platform = .ok (t, w))
    (hf : t.fault = s.fault) (hx : t.surfaces.aborted = s.surfaces.aborted)
    (hm : t.surfaces.surfaceWindowMap = s.surfaces.surfaceWindowMap)
    (hn : t.nativewindow = some w)
    (hl : ∀ v, Lives (t.windows v) (t.references v) (t.unused v))
    (hmade : ∀ v, t.surfaces.created ≤ v → t.windows v = none) :
    ∃ u, eglCreateWindowSurface platform s win result = .ok u ∧ Sound u ∧
      u.nativewindow = some w ∧ u.held = t.held := by
  have hmap : t.surfaces.surfaceWindowMap result = none := by
    rw [hm]
    exact hs.map_eq_none hnone result
  obtain ⟨haborted, hmapped, hcreated⟩ := pushed (w := w) hmap
  have hrunning :
      ¬ (eglHelperPushMapping (wrappedCreate t.surfaces w result) result w).aborted := by
    rw [haborted, hx, hs.running]
    exact Bool.false_ne_true
  have hone : ∀ x v, (eglHelperPushMapping (wrappedCreate t.surfaces w result) result
      w).surfaceWindowMap x = some v → x = result ∧ v = w := by
    intro x v hv
    rw [hmapped, hm] at hv
    by_cases hxr : x = result
    · rw [hxr, Function.update_self] at hv
      exact ⟨hxr, (Option.some.inj hv).symm⟩
    · rw [Function.update_of_ne hxr, hs.map_eq_none hnone] at hv
      cases hv
  refine ⟨{ t with surfaces := eglHelperPushMapping (wrappedCreate t.surfaces w result) result w },
    ?_, ?_, hn, rfl⟩
  · rw [eglCreateWindowSurface, hcreate]
    exact if_neg hrunning
  · exact {
      fault := hf.trans hs.fault
      running := haborted.trans (hx.trans hs.running)
      single := fun x v hv => by
        obtain ⟨-, rfl⟩ := hone x v hv
        exact hn
      mapped := fun v hv => by
        obtain rfl : w = v := Option.some.inj (hn.symm.trans hv)
        refine ⟨result, ?_⟩
        rw [hmapped, Function.update_self]
      apart := fun x y v hx hy => (hone x v hx).1.trans (hone y v hy).1.symm
      lives := hl
      made := fun v hv => hmade v (hcreated ▸ hv) }

theorem references_attach (hnone : s.nativewindow = none) (hn : t.nativewindow = some w)
    (hh : t.held = s.held) :
    t.references w = s.references w + 1 ∧ ∀ v, v ≠ w → t.references v = s.references v := by
  have hnot : ∀ v, ¬ s.nativewindow = some v := by
    rw [hnone]
    exact fun v h => by cases h
  constructor
  · rw [State.references, State.references, hh, if_pos hn, if_neg (hnot w), Int.add_zero]
  · intro v hv
    have hne : ¬ t.nativewindow = some v := by
      rw [hn]
      exact fun h => hv (Option.some.inj h).symm
    rw [State.references, State.references, hh, if_neg hne, if_neg (hnot v)]

theorem fbdev_create (hs : Sound s) (hnone : s.nativewindow = none) (win : EGLNativeWindowType)
    (result : EGLSurface) :
    ∃ u, eglCreateWindowSurface .fbdev s win result = .ok u ∧ Sound u ∧
      u.nativewindow = some s.surfaces.created ∧ u.held = s.held := by
  let w := s.surfaces.created
  let r : State := { newWindow s with nativewindow := some w }
  have hr : r.windows w = some 0 := Function.update_self ..
  let t : State := { r with windows := Function.update r.windows w (some (0 + 1)) }
  have hcreate : createWindow s win .fbdev = .ok (t, w) := by
    show fbdevwsCreateWindow s = _
    rw [fbdevwsCreateWindow, if_pos hnone]
    show (incRef r w >>= _) = _
    rw [incRef_eq hr]
    rfl
  have hdead : s.windows w = none := hs.made w (Nat.le_refl _)
  obtain ⟨hself, hother⟩ := references_attach (t := t) hnone rfl rfl
  have hunref : s.references w = 0 ∧ s.unused w ≠ true := by
    have h := (hs.lives w).isSome
    rw [hdead] at h
    have hnot := (not_congr h).mp Bool.false_ne_true
    have hle := references_nonneg s w
    exact ⟨by omega, fun hu => hnot (.inr hu)⟩
  have hlives : Lives (some (0 + 1)) (t.references w) (t.unused w) := by
    rw [hself, hunref.1]
    exact ⟨fun n hn => (Option.some.inj hn).symm, iff_of_true rfl (.inl (by omega)),
      fun hu => absurd hu hunref.2⟩
  show ∃ u, _ ∧ Sound u ∧ u.nativewindow = some w ∧ u.held = t.held
  refine sound_attach hs hnone hcreate rfl rfl rfl rfl ?_ fun v hv => ?_
  · refine lives_update hs.lives ?_ hother (fun _ _ => rfl) hlives
    exact Function.update_idem ..
  · have hv : w < v := hv
    have hwindows : t.windows v = s.windows v :=
      (Function.update_of_ne (Nat.ne_of_gt hv) ..).trans
        (Function.update_of_ne (Nat.ne_of_gt hv) ..)
    rw [hwindows]
    exact hs.made v (Nat.le_of_lt hv)

theorem createWindow_hwcomposer (hnone : s.nativewindow = none) (hn : s.windows win = some n) :
    createWindow s win .hwcomposer = .ok
      ({ s with
          unused := Function.update s.unused win false
          nativewindow := some win
          windows := Function.update s.windows win (some (n + 1)) }, win) := by
  let r : State :=
    { s with unused := Function.update s.unused win false, nativewindow := some win }
  have hr : r.windows win = some n := hn
  show hwcomposerwsCreateWindow s win = _
  rw [hwcomposerwsCreateWindow, if_pos hnone, refcount_bind hn]
  show (incRef r win >>= _) = _
  rw [incRef_eq hr]
  rfl

theorem hwcomposer_create (hs : Sound s) (hnone : s.nativewindow = none)
    (hn : s.windows win = some n) (result : EGLSurface) :
    ∃ u, eglCreateWindowSurface .hwcomposer s win result = .ok u ∧ Sound u ∧
      u.nativewindow = some win ∧ u.held = s.held := by
  let t : State :=
    { s with
      unused := Function.update s.unused win false
      nativewindow := some win
      windows := Function.update s.windows win (some (n + 1)) }
  have hcreate : createWindow s win .hwcomposer = .ok (t, win) := createWindow_hwcomposer hnone hn
  obtain ⟨hself, hother⟩ := references_attach (t := t) hnone rfl rfl
  have hlives : Lives (some (n + 1)) (t.references win) (t.unused win) := by
    have hold := hs.lives win
    rw [hn] at hold
    have hfalse : t.unused win = false := Function.update_self ..
    rw [hself, hfalse]
    exact hold.more (references_nonneg s win)
  show ∃ u, _ ∧ Sound u ∧ u.nativewindow = some win ∧ u.held = t.held
  refine sound_attach hs hnone hcreate rfl rfl rfl rfl ?_ fun v hv => ?_
  · exact lives_update hs.lives rfl hother (fun v hv => Function.update_of_ne hv ..) hlives
  · have hne : v ≠ win := by
      rintro rfl
      rw [hs.made v hv] at hn
      cases hn
    exact (Function.update_of_ne hne ..).trans (hs.made v hv)

theorem create_error (hk : ¬ Kept platform s (.eglCreateWindowSurface win result)) :
    ∃ e, eglCreateWindowSurface platform s win result = .error e := by
  by_cases hnone : s.nativewindow = none
  · have hgone : platform = .hwcomposer ∧ s.windows win = none := by
      by_contra h
      refine hk ⟨hnone, fun hp => ?_⟩
      by_contra hw
      exact h ⟨hp, Option.not_isSome_iff_eq_none.mp hw⟩
    obtain ⟨rfl, hwin⟩ := hgone
    refine ⟨.freedWindow, ?_⟩
    have hcreate : createWindow s win .hwcomposer = .error .freedWindow := by
      show hwcomposerwsCreateWindow s win = _
      rw [hwcomposerwsCreateWindow, if_pos hnone, State.refcount, hwin]
      rfl
    rw [eglCreateWindowSurface, hcreate]
    rfl
  · refine ⟨.abort, ?_⟩
    have hcreate : createWindow s win platform = .error .abort := by
      cases platform with
      | fbdev => exact if_neg hnone
      | hwcomposer => exact if_neg hnone
    rw [eglCreateWindowSurface, hcreate]
    rfl

theorem create_ok (hs : Sound s) (hk : Kept platform s (.eglCreateWindowSurface win result)) :
    ∃ u, eglCreateWindowSurface platform s win result = .ok u ∧ Sound u := by
  obtain ⟨hnone, hwin⟩ := hk
  cases platform with
  | fbdev =>
    obtain ⟨u, hu, hsound, -, -⟩ := fbdev_create hs hnone win result
    exact ⟨u, hu, hsound⟩
  | hwcomposer =>
    obtain ⟨n, hn⟩ := Option.isSome_iff_exists.mp (hwin rfl)
    obtain ⟨u, hu, hsound, -, -⟩ := hwcomposer_create hs hnone hn result
    exact ⟨u, hu, hsound⟩

theorem destroyWindow_eq (s : State) (w : EGLNativeWindowType) (platform : Platform) :
    destroyWindow s w platform = wsDestroyWindow s w := by
  cases platform <;> rfl

theorem destroy_ok (platform : Platform) (hs : Sound s) (surface : EGLSurface) (result : Bool) :
    ∃ u, eglDestroySurface platform s surface result = .ok u ∧ Sound u := by
  cases hmap : s.surfaces.surfaceWindowMap surface with
  | none =>
    obtain ⟨haborted, hsame, hcreated⟩ := not_popped s.surfaces result hmap
    refine ⟨{ s with surfaces := Egl.eglDestroySurface s.surfaces surface result }, ?_, ?_⟩
    · rw [eglDestroySurface, hmap]
    · exact {
        fault := hs.fault
        running := haborted.trans hs.running
        single := fun x v hv => hs.single x v (hsame ▸ hv)
        mapped := fun v hv => by
          obtain ⟨x, hx⟩ := hs.mapped v hv
          exact ⟨x, hsame ▸ hx⟩
        apart := fun x y v hx hy => hs.apart x y v (hsame ▸ hx) (hsame ▸ hy)
        lives := hs.lives
        made := fun v hv => hs.made v (hcreated ▸ hv) }
  | some w =>
    obtain ⟨haborted, hpopped, hcreated⟩ := popped s.surfaces result hmap
    have hnative := hs.single surface w hmap
    obtain ⟨n, hn⟩ := hs.window_of_nativewindow hnative
    let r : State := { s with surfaces := Egl.eglDestroySurface s.surfaces surface result }
    let u : State :=
      { r with
        windows := Function.update s.windows w (if n = 1 then none else some (n - 1))
        nativewindow := none }
    have hempty : ∀ x, u.surfaces.surfaceWindowMap x = none := by
      intro x
      rw [Option.eq_none_iff_forall_ne_some]
      intro v hv
      rw [hpopped] at hv
      by_cases hx : x = surface
      · rw [hx, Function.update_self] at hv
        cases hv
      · rw [Function.update_of_ne hx] at hv
        obtain rfl : w = v := Option.some.inj (hnative.symm.trans (hs.single x v hv))
        exact hx (hs.apart x surface w hv hmap)
    obtain ⟨hself, hother⟩ := references_attach (s := u) (t := s) rfl hnative rfl
    have hlives : Lives (if n = 1 then none else some (n - 1)) (u.references w) (u.unused w) := by
      have hold := hs.lives w
      rw [hn, hself] at hold
      exact hold.less (references_nonneg u w)
    refine ⟨u, ?_, ?_⟩
    · rw [eglDestroySurface, hmap]
      show destroyWindow r w platform = _
      rw [destroyWindow_eq, wsDestroyWindow, if_pos hnative]
      have hr : r.windows w = some n := hn
      rw [decRef_eq hr]
      rfl
    · exact {
        fault := hs.fault
        running := haborted.trans hs.running
        single := fun x v hv => by
          rw [hempty x] at hv
          cases hv
        mapped := fun v hv => by cases hv
        apart := fun x y v hx _ => by
          rw [hempty x] at hx
          cases hx
        lives := lives_update hs.lives rfl (fun v hv => (hother v hv).symm) (fun _ _ => rfl) hlives
        made := fun v hv => by
          have hle : s.surfaces.created ≤ v := hcreated ▸ hv
          have hne : v ≠ w := by
            rintro rfl
            rw [hs.made v hle] at hn
            cases hn
          exact (Function.update_of_ne hne ..).trans (hs.made v hle) }

theorem sound_count (hs : Sound s) (hn : s.windows w = some n) (k : Nat)
    (hl : Lives refcount (k + if s.nativewindow = some w then 1 else 0) (s.unused w)) :
    Sound { s with
      held := Function.update s.held w k, windows := Function.update s.windows w refcount } where
  fault := hs.fault
  running := hs.running
  single := hs.single
  mapped := hs.mapped
  apart := hs.apart
  lives := by
    refine lives_update hs.lives rfl (fun v hv => ?_) (fun _ _ => rfl) ?_
    · simp only [State.references, Function.update_of_ne hv]
    · simp only [State.references, Function.update_self]
      exact hl
  made v hv := by
    have hne : v ≠ w := by
      rintro rfl
      rw [hs.made v hv] at hn
      cases hn
    exact (Function.update_of_ne hne ..).trans (hs.made v hv)

theorem step_cases (h : step platform s a = some t) :
    enabled platform s a = true ∧ t = settle s (perform platform s a) := by
  rw [step, Option.ite_none_right_eq_some] at h
  exact ⟨h.1.2, (Option.some.inj h.2).symm⟩

theorem sound_hwcNativeWindowCreate (hs : Sound s) : Sound (hwcNativeWindowCreate s) where
  fault := hs.fault
  running := hs.running
  single := hs.single
  mapped := hs.mapped
  apart := hs.apart
  lives := by
    have hdead : s.windows s.surfaces.created = none := hs.made _ (Nat.le_refl _)
    have hunref : s.references s.surfaces.created = 0 := by
      have h := (hs.lives s.surfaces.created).isSome
      rw [hdead] at h
      have hnot := (not_congr h).mp Bool.false_ne_true
      have hle := references_nonneg s s.surfaces.created
      omega
    have hnew : (hwcNativeWindowCreate s).windows =
      Function.update s.windows s.surfaces.created (some 0) := rfl
    refine lives_update hs.lives hnew (fun _ _ => rfl)
      (fun v hv => Function.update_of_ne hv ..) ?_
    have htrue : (hwcNativeWindowCreate s).unused s.surfaces.created = true :=
      Function.update_self ..
    have hsame : (hwcNativeWindowCreate s).references s.surfaces.created =
      s.references s.surfaces.created := rfl
    rw [htrue, hsame, hunref]
    exact ⟨fun n hn => (Option.some.inj hn).symm, iff_of_true rfl (.inr rfl), fun _ => rfl⟩
  made v hv := by
    have hv : s.surfaces.created < v := hv
    exact (Function.update_of_ne (Nat.ne_of_gt hv) ..).trans (hs.made v (Nat.le_of_lt hv))

/-- A call of the client that meets the condition, and whatever the wrapped
library does. -/
theorem perform_ok (hs : Sound s) (he : enabled platform s a = true) (hk : Kept platform s a) :
    ∃ u, perform platform s a = .ok u ∧ Sound u := by
  cases a with
  | hwcNativeWindowCreate => exact ⟨_, rfl, sound_hwcNativeWindowCreate hs⟩
  | eglCreateWindowSurface win result => exact create_ok hs hk
  | eglDestroySurface surface result => exact destroy_ok platform hs surface result
  | eglSwapInterval surface =>
    refine ⟨s, ?_, hs⟩
    show eglSwapInterval platform s surface = _
    cases hmap : s.surfaces.surfaceWindowMap surface with
    | none => rw [eglSwapInterval, hmap]
    | some w =>
      obtain ⟨n, hn⟩ := hs.window_of_nativewindow (hs.single surface w hmap)
      rw [eglSwapInterval, hmap]
      cases platform with
      | fbdev => exact refcount_bind hn _
      | hwcomposer => rfl
  | incRef w =>
    have hpos : 0 < s.references w := by
      rw [State.references]
      obtain hnative | hheld := of_decide_eq_true he
      · rw [if_pos hnative]
        omega
      · split <;> omega
    obtain ⟨n, hn⟩ := hs.window_of_references hpos
    have hold := hs.lives w
    rw [hn] at hold
    have hmore := hold.more (references_nonneg s w)
    have hused : s.unused w = false := by
      rw [Bool.eq_false_iff]
      intro hu
      rw [hold.fresh hu] at hpos
      exact absurd hpos (Int.lt_irrefl 0)
    refine ⟨_, incRef_eq hn, sound_count hs hn (s.held w + 1) ?_⟩
    have hcount : (s.held w : Int) + 1 + (if s.nativewindow = some w then 1 else 0) =
        s.references w + 1 := by
      rw [State.references]
      omega
    rw [Int.natCast_add, Int.cast_ofNat_Int, hcount, hused]
    exact hmore
  | decRef w =>
    have hheld : 0 < s.held w := of_decide_eq_true he
    obtain ⟨n, hn⟩ := hs.window_of_held hheld
    have hold := hs.lives w
    have hcount : s.references w =
        ((s.held w - 1 : Nat) : Int) + (if s.nativewindow = some w then 1 else 0) + 1 := by
      rw [State.references]
      omega
    rw [hn, hcount] at hold
    refine ⟨_, decRef_eq hn, sound_count hs hn (s.held w - 1) (hold.less ?_)⟩
    split <;> omega
  | use w =>
    obtain ⟨n, hn⟩ := hs.window_of_held (of_decide_eq_true he)
    refine ⟨s, ?_, hs⟩
    show (s.refcount w).map (fun _ => s) = _
    rw [State.refcount, hn]
    rfl

theorem sound_step_iff (hs : Sound s) (h : step platform s a = some t) :
    Sound t ↔ Kept platform s a := by
  obtain ⟨he, rfl⟩ := step_cases h
  constructor
  · intro ht
    cases a with
    | eglCreateWindowSurface win result =>
      by_contra hk
      obtain ⟨e, hbad⟩ := create_error hk
      have hfault := ht.fault
      rw [perform, hbad] at hfault
      cases hfault
    | _ => exact trivial
  · intro hk
    obtain ⟨u, hu, hsound⟩ := perform_ok hs he hk
    rw [hu]
    exact hsound

theorem sound_start : Sound start where
  fault := rfl
  running := rfl
  single := fun _ _ h => by cases h
  mapped := fun _ h => by cases h
  apart := fun _ _ _ h => by cases h
  lives := fun w => by
    have hunref : start.references w = 0 := by
      simp [State.references, start]
    rw [hunref]
    refine ⟨fun _ h => (by cases h), iff_of_false Bool.false_ne_true ?_, fun _ => rfl⟩
    rintro (h | h)
    · exact absurd h (Int.lt_irrefl 0)
    · cases h
  made := fun _ _ => rfl

/-- On both platforms: in every run of the client and of the wrapped library no
assertion fails and no window is used after its end, each window lives until its
last reference goes, and the native window is that of the one surface in the
map, precisely when every surface is created while there is none, and on the
hwcomposer platform with a window that is still there. -/
theorem alone_iff_kept {as : List Action} (hrun : (exec (step platform) start as).isSome) :
    Always (step platform) Sound start as ↔ Guarded (step platform) (Kept platform) start as :=
  always_iff_guarded_of_iff (fun _ _ _ hs h => sound_step_iff hs h) sound_start hrun

/-- The client's window gets a second surface after its first one has taken all
references of the wrapped library with it. -/
theorem alone_iff_kept_held :
    Always (step .hwcomposer) Sound start
        [.hwcNativeWindowCreate, .eglCreateWindowSurface 0 7, .incRef 0, .eglSwapInterval 7,
          .eglDestroySurface 7 true, .use 0, .eglCreateWindowSurface 0 8, .decRef 0,
          .eglDestroySurface 8 true, .eglCreateWindowSurface 0 9] ↔
      Guarded (step .hwcomposer) (Kept .hwcomposer) start
        [.hwcNativeWindowCreate, .eglCreateWindowSurface 0 7, .incRef 0, .eglSwapInterval 7,
          .eglDestroySurface 7 true, .use 0, .eglCreateWindowSurface 0 8, .decRef 0,
          .eglDestroySurface 8 true, .eglCreateWindowSurface 0 9] :=
  alone_iff_kept (by decide)

end FakeLibc.SingleWindow

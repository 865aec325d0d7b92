import FakeLibc.WlEglWindowLife

namespace FakeLibc.WlEglWindow

open FakeLibc.Lib.Run FakeLibc.Lib.MutualLinks FakeLibc.Egl

variable {s t u : State} {p : Ptr} {w : EGLNativeWindowType} {e : EglWindow} {n : NativeWindow}
  {surface : EGLSurface} {k : Int}

theorem references_of_mapped (h : s.Mapped w) : s.references w = s.held w + 1 := by
  rw [State.references, if_pos h]

theorem references_of_not_mapped (h : ¬ s.Mapped w) : s.references w = s.held w := by
  rw [State.references, if_neg h, Int.add_zero]

theorem references_of_surfaces (h : u.surfaces = s.surfaces) (w : EGLNativeWindowType) :
    u.references w - u.held w = s.references w - s.held w := by
  have hm : u.Mapped w ↔ s.Mapped w := by
    rw [State.Mapped, State.Mapped, h]
  by_cases hs : s.Mapped w
  · rw [references_of_mapped hs, references_of_mapped (hm.mpr hs)]
    omega
  · rw [references_of_not_mapped hs, references_of_not_mapped (mt hm.mp hs)]
    omega

theorem Counted.exists_window (hc : Counted s) (h : 0 < s.references w) :
    ∃ n, s.windows w = some n ∧ n.refcount = s.references w := by
  have hcount := hc.counts w
  cases hw : s.windows w with
  | none =>
    rw [State.refcount, hw, Option.elim_none] at hcount
    omega
  | some n =>
    rw [State.refcount, hw, Option.elim_some] at hcount
    exact ⟨n, rfl, hcount⟩

theorem Counted.references_eq (hc : Counted s) (hn : s.windows w = some n) :
    n.refcount = s.references w ∧ 0 < n.refcount := by
  have hcount := hc.counts w
  have hpos := hc.positive w (by rw [hn]; rfl)
  rw [State.refcount, hn, Option.elim_some] at hcount hpos
  exact ⟨hcount, hpos⟩

theorem Counted.references_of_none (hc : Counted s) (hn : s.windows w = none) :
    s.held w = 0 ∧ ¬ s.Mapped w := by
  have hcount := hc.counts w
  rw [State.refcount, hn, Option.elim_none] at hcount
  by_cases hm : s.Mapped w
  · rw [references_of_mapped hm] at hcount
    omega
  · rw [references_of_not_mapped hm] at hcount
    exact ⟨by omega, hm⟩

theorem Counted.window_of_mapped (hc : Counted s)
    (h : s.surfaces.surfaceWindowMap surface = some w) :
    ∃ n, s.windows w = some n ∧ n.refcount = s.held w + 1 := by
  have hm : s.Mapped w := ⟨surface, h⟩
  obtain ⟨n, hn, hr⟩ := hc.exists_window (by rw [references_of_mapped hm]; omega)
  exact ⟨n, hn, hr.trans (references_of_mapped hm)⟩

theorem Counted.window_of_held (hc : Counted s) (h : 0 < s.held w) :
    ∃ n, s.windows w = some n := by
  cases hw : s.windows w with
  | none =>
    have h0 := (hc.references_of_none hw).1
    omega
  | some n => exact ⟨n, rfl⟩

theorem Counted.of_recount (hc : Counted s) (hwin : u.windows = s.windows) (hr : Recount u t w k)
    (hk : u.references w = k) (hpos : 0 ≤ k)
    (hv : ∀ v, v ≠ w → u.references v = s.references v)
    (hapart : ∀ surface surface' v, u.surfaces.surfaceWindowMap surface = some v →
      u.surfaces.surfaceWindowMap surface' = some v → surface = surface') : Counted t := by
  have href : t.references = u.references := by
    funext v
    rw [State.references, State.Mapped, hr.held, hr.surfaces]
    rfl
  have hcount : u.refcount = s.refcount := by
    funext v
    rw [State.refcount, hwin]
    rfl
  constructor
  · intro v
    rw [href, hr.refcount]
    by_cases hvw : v = w
    · rw [hvw, Function.update_self, hk]
    · rw [Function.update_of_ne hvw, hcount, hv v hvw]
      exact hc.counts v
  · intro v hsome
    rw [hr.refcount]
    rw [Option.isSome_iff_ne_none] at hsome
    by_cases hvw : v = w
    · subst hvw
      rw [Function.update_self]
      have hk0 : k ≠ 0 := fun h0 => hsome (hr.window.mpr h0)
      omega
    · rw [Function.update_of_ne hvw, hcount]
      apply hc.positive v
      rw [ne_eq, hr.windows v hvw, hwin] at hsome
      exact Option.isSome_iff_ne_none.mpr hsome
  · rw [hr.surfaces]
    exact hapart

theorem Sound.of_recount (hs : Sound s) (ha : s.surfaces.aborted = false)
    (hwin : u.windows = s.windows) (hegl : u.eglWindows = s.eglWindows) (hmade : u.made = s.made)
    (hcreated : u.surfaces.created = s.surfaces.created) (hf : u.fault = s.fault)
    (hn : s.windows w = some n) (hl : Linked t) (hr : Recount u t w k)
    (hk : u.references w = k) (hpos : 0 ≤ k)
    (hv : ∀ v, v ≠ w → u.references v = s.references v)
    (hapart : ∀ surface surface' v, u.surfaces.surfaceWindowMap surface = some v →
      u.surfaces.surfaceWindowMap surface' = some v → surface = surface') : Sound t where
  fault := hr.fault.trans (hf.trans hs.fault)
  linked := hl
  counted _ := (hs.counted ha).of_recount hwin hr hk hpos hv hapart
  windows v hold := by
    rw [hr.surfaces, hcreated] at hold
    have hnone := hs.windows v hold
    have hvw : v ≠ w := by
      rintro rfl
      rw [hn] at hnone
      cases hnone
    rw [hr.windows v hvw, hwin]
    exact hnone
  eglWindows q hold := by
    rw [hr.made, hmade] at hold
    apply hr.eglWindows q
    rw [hegl]
    exact hs.eglWindows q hold

theorem sound_incRef (hs : Sound s) (ha : s.surfaces.aborted = false)
    (hw : s.windows w = some n) :
    ∃ t, perform s (.incRef w) = .ok t ∧ Sound t := by
  obtain ⟨hcount, hpos⟩ := (hs.counted ha).references_eq hw
  let u : State := { s with held := Function.update s.held w (s.held w + 1) }
  have hlu : Linked u := hs.linked.of_eq rfl rfl rfl hs.linked.sizes
  obtain ⟨t, ht, hl, hr⟩ := incRef_spec (s := u) hlu hw hpos
  have hkey : u.references w = n.refcount + 1 := by
    have href := references_of_surfaces (s := s) (u := u) rfl w
    have hheld : u.held w = s.held w + 1 := Function.update_self ..
    omega
  refine ⟨t, ht, hs.of_recount (u := u) ha rfl rfl rfl rfl rfl hw hl hr hkey (by omega)
    (fun v hv => ?_) (hs.counted ha).apart⟩
  have href := references_of_surfaces (s := s) (u := u) rfl v
  have hother : u.held v = s.held v := Function.update_of_ne hv ..
  omega

theorem sound_decRef (hs : Sound s) (ha : s.surfaces.aborted = false) (hheld : 0 < s.held w) :
    ∃ t, perform s (.decRef w) = .ok t ∧ Sound t := by
  obtain ⟨n, hw⟩ := (hs.counted ha).window_of_held hheld
  obtain ⟨hcount, hpos⟩ := (hs.counted ha).references_eq hw
  let u : State := { s with held := Function.update s.held w (s.held w - 1) }
  have hlu : Linked u := hs.linked.of_eq rfl rfl rfl hs.linked.sizes
  obtain ⟨t, ht, hl, hr⟩ := decRef_spec (s := u) hlu hw
  have hkey : u.references w = n.refcount - 1 := by
    have href := references_of_surfaces (s := s) (u := u) rfl w
    have hless : u.held w = s.held w - 1 := Function.update_self ..
    omega
  refine ⟨t, ht, hs.of_recount (u := u) ha rfl rfl rfl rfl rfl hw hl hr hkey (by omega)
    (fun v hv => ?_) (hs.counted ha).apart⟩
  have href := references_of_surfaces (s := s) (u := u) rfl v
  have hother : u.held v = s.held v := Function.update_of_ne hv ..
  omega

theorem Sound.of_surfaces (hs : Sound s) {x : Surfaces}
    (hmap : x.surfaceWindowMap = s.surfaces.surfaceWindowMap)
    (hcreated : x.created = s.surfaces.created) (haborted : x.aborted = s.surfaces.aborted) :
    Sound { s with surfaces := x } where
  fault := hs.fault
  linked := hs.linked.of_eq rfl rfl rfl hs.linked.sizes
  counted ha := by
    have hc := hs.counted (haborted ▸ ha)
    have hsame : ∀ v, State.Mapped { s with surfaces := x } v ↔ s.Mapped v := fun v => by
      rw [State.Mapped, State.Mapped, hmap]
    refine ⟨fun v => ?_, hc.positive, fun a b v => ?_⟩
    · by_cases hm : s.Mapped v
      · rw [references_of_mapped ((hsame v).mpr hm)]
        exact (hc.counts v).trans (references_of_mapped hm)
      · rw [references_of_not_mapped (mt (hsame v).mp hm)]
        exact (hc.counts v).trans (references_of_not_mapped hm)
    · rw [hmap]
      exact hc.apart a b v
  windows v hv := hs.windows v (hcreated ▸ hv)
  eglWindows := hs.eglWindows

theorem sound_eglDestroySurface (hs : Sound s) (ha : s.surfaces.aborted = false)
    (surface : EGLSurface) (result : Bool) :
    ∃ t, eglDestroySurface s surface result = .ok t ∧ Sound t := by
  have hc := hs.counted ha
  cases hmap : s.surfaces.surfaceWindowMap surface with
  | none =>
    have hsame : (Egl.eglDestroySurface s.surfaces surface result).surfaceWindowMap =
          s.surfaces.surfaceWindowMap ∧
        (Egl.eglDestroySurface s.surfaces surface result).created = s.surfaces.created ∧
        (Egl.eglDestroySurface s.surfaces surface result).aborted = s.surfaces.aborted := by
      cases result <;> simp [Egl.eglDestroySurface, wrappedDestroy, hmap]
    refine ⟨_, ?_, hs.of_surfaces hsame.1 hsame.2.1 hsame.2.2⟩
    rw [eglDestroySurface, hmap]
  | some w =>
    let x := Egl.eglDestroySurface s.surfaces surface result
    have hx : x.surfaceWindowMap = Function.update s.surfaces.surfaceWindowMap surface none ∧
        x.created = s.surfaces.created ∧ x.aborted = s.surfaces.aborted := by
      cases result <;>
        simp [x, Egl.eglDestroySurface, wrappedDestroy, hmap, eglHelperPopMapping, wsDestroyWindow]
    have hxsome : ∀ {a v}, x.surfaceWindowMap a = some v →
        a ≠ surface ∧ s.surfaces.surfaceWindowMap a = some v := by
      intro a v hav
      rw [hx.1] at hav
      by_cases hne : a = surface
      · rw [hne, Function.update_self] at hav
        cases hav
      · rw [Function.update_of_ne hne] at hav
        exact ⟨hne, hav⟩
    let u : State := { s with surfaces := x }
    obtain ⟨n, hw, hcount⟩ := hc.window_of_mapped hmap
    have hlu : Linked u := hs.linked.of_eq rfl rfl rfl hs.linked.sizes
    obtain ⟨t, ht, hl, hr⟩ := decRef_spec (s := u) hlu hw
    have hgone : ¬ u.Mapped w := by
      rintro ⟨a, haw⟩
      obtain ⟨hne, haw⟩ := hxsome haw
      exact hne (hc.apart a surface w haw hmap)
    have hkey : u.references w = n.refcount - 1 := by
      have hheld : u.held w = s.held w := rfl
      rw [references_of_not_mapped hgone]
      omega
    refine ⟨t, ?_, hs.of_recount (u := u) ha rfl rfl rfl hx.2.1 rfl hw hl hr hkey (by omega)
      (fun v hv => ?_) fun a b v hav hbv => hc.apart a b v (hxsome hav).2 (hxsome hbv).2⟩
    · rw [eglDestroySurface, hmap]
      exact ht
    · have hsame : u.Mapped v ↔ s.Mapped v := by
        constructor
        · rintro ⟨a, hav⟩
          exact ⟨a, (hxsome hav).2⟩
        · rintro ⟨a, hav⟩
          have hne : a ≠ surface := by
            rintro rfl
            exact hv (Option.some.inj (hav.symm.trans hmap))
          refine ⟨a, ?_⟩
          show x.surfaceWindowMap a = some v
          rw [hx.1, Function.update_of_ne hne]
          exact hav
      by_cases hm : s.Mapped v
      · rw [references_of_mapped hm, references_of_mapped (hsame.mpr hm)]
      · rw [references_of_not_mapped hm, references_of_not_mapped (mt hsame.mp hm)]

def EglWindow.attach (e : EglWindow) (w : EGLNativeWindowType) : EglWindow :=
  { e with nativewindow := some w, resizeCallback := true, freeCallback := true }

def EglWindow.native (e : EglWindow) (p : Ptr) : NativeWindow :=
  ⟨some p, e.width, e.height, e.width, e.height, 1, 1⟩

def State.join (s : State) (p : Ptr) (e : EglWindow) : State :=
  (s.putEglWindow p (some (e.attach s.surfaces.created))).putWindow s.surfaces.created
    (some (e.native p))

theorem eglCreateWindowSurface_eq (he : s.eglWindows p = some e) (d : Ptr) (result : EGLSurface) :
    eglCreateWindowSurface s (some p) (some d) result =
      .ok { s.join p e with surfaces := createOn s.surfaces result } := by
  let w := s.surfaces.created
  let n : NativeWindow := ⟨some p, e.width, e.height, e.width, e.height, 1, 0⟩
  let u := (s.putEglWindow p (some (e.attach w))).putWindow w (some n)
  have hu : u.windows w = some n := Function.update_self ..
  have hcon : construct s w p = .ok u := by
    rw [construct, eglWindow_bind he]
    rfl
  have hinc : incRef u w = .ok (s.join p e) := by
    rw [incRef, window_bind hu]
    refine congrArg Except.ok ?_
    simp only [State.join, State.putWindow, u, Function.update_idem]
    rfl
  have hws : waylandwsCreateWindow s w (some p) (some d) = .ok (s.join p e) := by
    show (construct s w p >>= fun s => incRef s w) = _
    rw [hcon]
    exact hinc
  show (waylandwsCreateWindow s w (some p) (some d) >>= _) = _
  rw [hws]
  rfl

theorem createOn_cases {x : Surfaces} {result : EGLSurface}
    (h : (createOn x result).aborted = false) :
    x.surfaceWindowMap result = none ∧
      (createOn x result).surfaceWindowMap =
        Function.update x.surfaceWindowMap result (some x.created) := by
  by_cases hz : result = eglNoSurface <;> cases hmap : x.surfaceWindowMap result <;>
    simp_all [createOn, wrappedCreate, eglHelperPushMapping, eglHelperHasMapping]

theorem created_createOn (x : Surfaces) (result : EGLSurface) :
    (createOn x result).created = x.created + 1 := by
  by_cases hz : result = eglNoSurface <;> cases hmap : x.surfaceWindowMap result <;>
    simp_all [createOn, wrappedCreate, eglHelperPushMapping, eglHelperHasMapping]

theorem Sound.mWindow_created (hs : Sound s) : s.mWindow s.surfaces.created = none := by
  rw [State.mWindow, hs.windows _ (Nat.le_refl _)]
  rfl

theorem nativewindow_join (s : State) (p : Ptr) (e : EglWindow) :
    (s.join p e).nativewindow = Function.update s.nativewindow p (some s.surfaces.created) :=
  nativewindow_putEglWindow ..

theorem mWindow_join (s : State) (p : Ptr) (e : EglWindow) :
    (s.join p e).mWindow = Function.update s.mWindow s.surfaces.created (some p) :=
  mWindow_putWindow ..

theorem linked_join (hs : Sound s) (he : s.eglWindows p = some e) (hfree : e.nativewindow = none) :
    Linked (s.join p e) := by
  have hp : s.nativewindow p = none := (nativewindow_eq he).trans hfree
  have hnew : ∀ q v, s.nativewindow q = some v → v ≠ s.surfaces.created := by
    rintro q v hq rfl
    have hm := (hs.linked.paired q _).mp hq
    rw [hs.mWindow_created] at hm
    cases hm
  constructor
  · rw [nativewindow_join, mWindow_join]
    exact hs.linked.paired.join hp hs.mWindow_created
  · intro q
    have hc : (s.join p e).callbacks = Function.update s.callbacks p (true, true) :=
      callbacks_putEglWindow ..
    rw [nativewindow_join, hc]
    by_cases hq : q = p
    · rw [hq, Function.update_self, Function.update_self]
      rfl
    · rw [Function.update_of_ne hq, Function.update_of_ne hq]
      exact hs.linked.callbacks q
  · intro q v hq
    have hd : (s.join p e).defaultSize =
        Function.update s.defaultSize s.surfaces.created (some e.size) :=
      defaultSize_putWindow ..
    have hz : (s.join p e).size = Function.update s.size p (some e.size) := size_putEglWindow ..
    rw [hd, hz]
    rw [nativewindow_join] at hq
    by_cases hqp : q = p
    · rw [hqp, Function.update_self] at hq
      obtain rfl := Option.some.inj hq
      rw [hqp, Function.update_self, Function.update_self]
    · rw [Function.update_of_ne hqp] at hq
      rw [Function.update_of_ne hqp, Function.update_of_ne (hnew q v hq)]
      exact hs.linked.sizes q v hq

theorem counted_join (hs : Sound s) (ha : s.surfaces.aborted = false) (e : EglWindow)
    {result : EGLSurface} (hcreate : (createOn s.surfaces result).aborted = false) :
    Counted { s.join p e with surfaces := createOn s.surfaces result } := by
  have hc := hs.counted ha
  obtain ⟨hfresh, hmap⟩ := createOn_cases hcreate
  let w := s.surfaces.created
  let t : State := { s.join p e with surfaces := createOn s.surfaces result }
  have hnone : s.windows w = none := hs.windows w (Nat.le_refl _)
  obtain ⟨hheld, hunmapped⟩ := hc.references_of_none hnone
  have hsome : ∀ {a v}, t.surfaces.surfaceWindowMap a = some v →
      (a = result ∧ v = w) ∨ s.surfaces.surfaceWindowMap a = some v := by
    intro a v hav
    replace hav : Function.update s.surfaces.surfaceWindowMap result (some w) a = some v :=
      hmap ▸ hav
    by_cases hne : a = result
    · rw [hne, Function.update_self] at hav
      exact .inl ⟨hne, (Option.some.inj hav).symm⟩
    · rw [Function.update_of_ne hne] at hav
      exact .inr hav
  have hself : t.Mapped w := by
    refine ⟨result, ?_⟩
    show (createOn s.surfaces result).surfaceWindowMap result = _
    rw [hmap, Function.update_self]
  have hother : ∀ v, v ≠ w → (t.Mapped v ↔ s.Mapped v) := by
    intro v hv
    constructor
    · rintro ⟨a, hav⟩
      rcases hsome hav with ⟨-, he⟩ | hav
      · exact absurd he hv
      · exact ⟨a, hav⟩
    · rintro ⟨a, hav⟩
      have hne : a ≠ result := by
        rintro rfl
        rw [hfresh] at hav
        cases hav
      refine ⟨a, ?_⟩
      show (createOn s.surfaces result).surfaceWindowMap a = _
      rw [hmap, Function.update_of_ne hne]
      exact hav
  have hcount : t.refcount = Function.update s.refcount w 1 := refcount_putWindow ..
  constructor
  · intro v
    change t.refcount v = t.references v
    rw [hcount]
    by_cases hv : v = w
    · rw [hv, Function.update_self, references_of_mapped hself]
      show (1 : Int) = s.held w + 1
      rw [hheld]
      rfl
    · rw [Function.update_of_ne hv]
      by_cases hm : s.Mapped v
      · rw [references_of_mapped ((hother v hv).mpr hm)]
        exact (hc.counts v).trans (references_of_mapped hm)
      · rw [references_of_not_mapped (mt (hother v hv).mp hm)]
        exact (hc.counts v).trans (references_of_not_mapped hm)
  · intro v hv
    change 0 < t.refcount v
    rw [hcount]
    by_cases hvw : v = w
    · rw [hvw, Function.update_self]
      decide
    · rw [Function.update_of_ne hvw]
      apply hc.positive v
      have hsame : t.windows v = s.windows v := Function.update_of_ne hvw ..
      exact hsame ▸ hv
  · intro a b v hav hbv
    rcases hsome hav with ⟨rfl, rfl⟩ | hav' <;> rcases hsome hbv with ⟨rfl, hvw⟩ | hbv'
    · rfl
    · exact absurd ⟨b, hbv'⟩ hunmapped
    · exact absurd ⟨a, hvw ▸ hav'⟩ hunmapped
    · exact hc.apart a b v hav' hbv'

theorem sound_join (hs : Sound s) (ha : s.surfaces.aborted = false)
    (he : s.eglWindows p = some e) (hfree : e.nativewindow = none) (result : EGLSurface) :
    Sound { s.join p e with surfaces := createOn s.surfaces result } where
  fault := hs.fault
  linked := (linked_join hs he hfree).of_eq rfl rfl rfl (linked_join hs he hfree).sizes
  counted hcreate := counted_join hs ha e hcreate
  windows v hv := by
    replace hv : (createOn s.surfaces result).created ≤ v := hv
    rw [created_createOn] at hv
    have hne : v ≠ s.surfaces.created := by omega
    exact (Function.update_of_ne hne ..).trans (hs.windows v (by omega))
  eglWindows q hq := by
    have hqp : q ≠ p := by
      rintro rfl
      rw [hs.eglWindows q hq] at he
      cases he
    exact (Function.update_of_ne hqp ..).trans (hs.eglWindows q hq)

theorem not_sound_join (hs : Sound s) (he : s.eglWindows p = some e)
    (htaken : e.nativewindow = some w) (result : EGLSurface) :
    ¬ Sound { s.join p e with surfaces := createOn s.surfaces result } := by
  intro ht
  have hp : s.nativewindow p = some w := (nativewindow_eq he).trans htaken
  apply hs.linked.paired.not_join hp hs.mWindow_created
  rw [← nativewindow_join s p e, ← mWindow_join s p e]
  exact ht.linked.paired

end FakeLibc.WlEglWindow

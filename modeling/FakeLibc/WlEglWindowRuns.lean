import FakeLibc.WlEglWindowCounts

namespace FakeLibc.WlEglWindow

open FakeLibc.Lib.Run FakeLibc.Lib.MutualLinks FakeLibc.Egl

variable {s t : State} {p : Ptr} {w : EGLNativeWindowType} {e : EglWindow} {n : NativeWindow}
  {surface : EGLSurface}

theorem Linked.putAttached (hl : Linked s) (he : s.eglWindows p = some e) (width height : Dim) :
    Linked (s.putEglWindow p
      (some { e with attachedWidth := width, attachedHeight := height })) := by
  refine hl.of_eq ?_ rfl ?_ fun q v hq => ?_
  · rw [nativewindow_putEglWindow, Function.update_eq_self_iff, nativewindow_eq he]
    rfl
  · rw [callbacks_putEglWindow, Function.update_eq_self_iff, State.callbacks, he]
    rfl
  · have hsize : (s.putEglWindow p
        (some { e with attachedWidth := width, attachedHeight := height })).size = s.size := by
      rw [size_putEglWindow, Function.update_eq_self_iff, State.size, he]
      rfl
    rw [hsize]
    exact hl.sizes q v hq

theorem sound_wlEglWindowCreate (hs : Sound s) (x : Nat) (width height : Dim) :
    Sound (wlEglWindowCreate s x width height) := by
  have hnone : s.eglWindows s.made = none := hs.eglWindows _ (Nat.le_refl _)
  let e : EglWindow := ⟨x, width, height, 0, 0, 0, 0, none, false, false⟩
  have hn : (s.putEglWindow s.made (some e)).nativewindow = s.nativewindow := by
    rw [nativewindow_putEglWindow, Function.update_eq_self_iff, State.nativewindow, hnone]
    rfl
  have hc : (s.putEglWindow s.made (some e)).callbacks = s.callbacks := by
    rw [callbacks_putEglWindow, Function.update_eq_self_iff, State.callbacks, hnone]
    rfl
  constructor
  · exact hs.fault
  · refine hs.linked.of_eq hn rfl hc fun q v hq => ?_
    have hqm : q ≠ s.made := by
      rintro rfl
      rw [State.nativewindow, hnone] at hq
      cases hq
    have hsize : (wlEglWindowCreate s x width height).size q = s.size q := by
      show (s.putEglWindow s.made (some e)).size q = _
      rw [size_putEglWindow, Function.update_of_ne hqm]
    rw [hsize]
    exact hs.linked.sizes q v hq
  · intro ha
    exact ⟨(hs.counted ha).counts, (hs.counted ha).positive, (hs.counted ha).apart⟩
  · exact hs.windows
  · intro q hq
    replace hq : s.made + 1 ≤ q := hq
    have hqm : q ≠ s.made := by omega
    exact (Function.update_of_ne hqm ..).trans (hs.eglWindows q (by omega))

theorem sound_eglSwapInterval (hs : Sound s) (ha : s.surfaces.aborted = false)
    (surface : EGLSurface) (interval : Int) :
    ∃ t, eglSwapInterval s surface interval = .ok t ∧ Sound t := by
  rw [eglSwapInterval]
  cases hmap : s.surfaces.surfaceWindowMap surface with
  | none => exact ⟨s, rfl, hs⟩
  | some w =>
    obtain ⟨n, hn, -⟩ := (hs.counted ha).window_of_mapped hmap
    let m : NativeWindow := { n with swapInterval := min (max interval 0) 1 }
    have hput : Linked (s.putWindow w (some m)) := hs.linked.putWindow hn rfl rfl
    exact ⟨_, window_bind hn _, hs.of_frame hput (.putWindow hn m rfl)⟩

theorem sound_eglSwapBuffers (hs : Sound s) (ha : s.surfaces.aborted = false)
    {buffer : Option (Dim × Dim)} (hk : Kept s (.eglSwapBuffers surface buffer)) :
    ∃ t, eglSwapBuffers s surface buffer = .ok t ∧ Sound t := by
  rw [eglSwapBuffers]
  cases hmap : s.surfaces.surfaceWindowMap surface with
  | none => exact ⟨s, rfl, hs⟩
  | some w =>
    obtain ⟨n, hn, -⟩ := (hs.counted ha).window_of_mapped hmap
    cases hbuf : buffer with
    | none =>
      refine ⟨s, ?_, hs⟩
      show (s.window w >>= fun _ => finishSwap s w none) = _
      rw [window_bind hn]
      exact window_bind hn _
    | some size =>
      obtain ⟨p, hp⟩ := Option.isSome_iff_exists.mp (hk (by rw [hbuf]; rfl) w hmap)
      obtain ⟨e, he, -⟩ := hs.linked.eglWindow_of_mWindow hp
      have hback : n.window = some p := (mWindow_eq hn).symm.trans hp
      refine ⟨_, ?_, hs.of_frame (hs.linked.putAttached he size.1 size.2)
        (.putEglWindow he (some _))⟩
      show (s.window w >>= fun _ => finishSwap s w (some size)) = _
      rw [window_bind hn, finishSwap, window_bind hn]
      show (pointee n.window >>= _) = _
      rw [pointee_bind hback]
      exact eglWindow_bind he _

theorem sound_dequeueBuffer (hs : Sound s) (ha : s.surfaces.aborted = false)
    (hheld : 0 < s.held w) {free : Bool} (hk : Kept s (.dequeueBuffer w free)) :
    ∃ t, dequeueBuffer s w free = .ok t ∧ Sound t := by
  obtain ⟨n, hn⟩ := (hs.counted ha).window_of_held hheld
  refine ⟨s, ?_, hs⟩
  rw [dequeueBuffer, window_bind hn]
  cases free with
  | false => rfl
  | true =>
    obtain ⟨p, hp⟩ := Option.isSome_iff_exists.mp (hk rfl)
    obtain ⟨e, he, -⟩ := hs.linked.eglWindow_of_mWindow hp
    have hback : n.window = some p := (mWindow_eq hn).symm.trans hp
    show (pointee n.window >>= _) = _
    rw [pointee_bind hback]
    exact eglWindow_bind he _

theorem sound_waylandwsPost (hs : Sound s) {read : Bool} (hk : Kept s (.waylandwsPost p read)) :
    ∃ t, waylandwsPost s p read = .ok t ∧ Sound t := by
  obtain ⟨e, he⟩ := Option.isSome_iff_exists.mp hk.1
  obtain ⟨w, hw⟩ := Option.isSome_iff_exists.mp hk.2
  obtain ⟨n, hn, hback⟩ := hs.linked.window_of_nativewindow hw
  have hnat : e.nativewindow = some w := (nativewindow_eq he).symm.trans hw
  refine ⟨s, ?_, hs⟩
  rw [waylandwsPost, eglWindow_bind he, pointee_bind hnat, window_bind hn]
  cases read with
  | false => rfl
  | true =>
    show (pointee n.window >>= _) = _
    rw [pointee_bind hback]
    exact eglWindow_bind he _

/-- A call that the client may make does not go wrong. -/
theorem sound_perform (hs : Sound s) (ha : s.surfaces.aborted = false) {a : Action}
    (hen : Enabled s a) (hk : Kept s a) : ∃ t, perform s a = .ok t ∧ Sound t := by
  cases a with
  | wlEglWindowCreate x width height => exact ⟨_, rfl, sound_wlEglWindowCreate hs x width height⟩
  | wlEglWindowResize p width height dx dy =>
    obtain ⟨e, he⟩ := Option.isSome_iff_exists.mp hk
    obtain ⟨t, ht, hl, hf⟩ := wlEglWindowResize_spec hs.linked he width height dx dy
    exact ⟨t, ht, hs.of_frame hl hf⟩
  | wlEglWindowDestroy p =>
    obtain ⟨e, he⟩ := Option.isSome_iff_exists.mp hk
    obtain ⟨t, ht, hl, hf⟩ := wlEglWindowDestroy_spec hs.linked he
    exact ⟨t, ht, hs.of_frame hl hf⟩
  | wlEglWindowGetAttachedSize p =>
    obtain ⟨e, he⟩ := Option.isSome_iff_exists.mp hk
    refine ⟨s, ?_, hs⟩
    rw [perform, wlEglWindowGetAttachedSize, eglWindow_bind he]
    rfl
  | eglCreateWindowSurface win display result =>
    obtain ⟨hd, p, hp, he, hfree⟩ := hk
    obtain rfl : win = some p := hp
    obtain ⟨d, rfl⟩ := Option.isSome_iff_exists.mp hd
    obtain ⟨e, he⟩ := Option.isSome_iff_exists.mp he
    have hnat : e.nativewindow = none := (nativewindow_eq he).symm.trans hfree
    exact ⟨_, eglCreateWindowSurface_eq he d result, sound_join hs ha he hnat result⟩
  | eglDestroySurface surface result => exact sound_eglDestroySurface hs ha surface result
  | eglSwapInterval surface interval => exact sound_eglSwapInterval hs ha surface interval
  | eglSwapBuffers surface buffer => exact sound_eglSwapBuffers hs ha hk
  | waylandwsPost p read => exact sound_waylandwsPost hs hk
  | incRef w =>
    obtain ⟨n, hn⟩ := Option.isSome_iff_exists.mp hen
    exact sound_incRef hs ha hn
  | decRef w => exact sound_decRef hs ha hen
  | dequeueBuffer w free => exact sound_dequeueBuffer hs ha hen hk

theorem eglWindow_error {α : Type} (he : s.eglWindows p = none)
    (f : EglWindow → Except Fault α) : (s.eglWindow p >>= f) = .error .freedEglWindow := by
  rw [State.eglWindow, he]
  rfl

theorem pointee_error {α β : Type} {o : Option α} (ho : o = none) (f : α → Except Fault β) :
    (pointee o >>= f) = .error .nullPointer := by
  rw [ho]
  rfl

/-- Any other call does, or parts two windows that belong together. -/
theorem not_sound_perform (hs : Sound s) (ha : s.surfaces.aborted = false) {a : Action}
    (hen : Enabled s a) (hk : ¬ Kept s a) :
    (∃ f, perform s a = .error f) ∨ ∃ t, perform s a = .ok t ∧ ¬ Sound t := by
  cases a with
  | wlEglWindowCreate x width height => exact absurd trivial hk
  | wlEglWindowResize p width height dx dy =>
    exact .inl ⟨_, eglWindow_error (Option.not_isSome_iff_eq_none.mp hk) _⟩
  | wlEglWindowDestroy p =>
    exact .inl ⟨_, eglWindow_error (Option.not_isSome_iff_eq_none.mp hk) _⟩
  | wlEglWindowGetAttachedSize p =>
    refine .inl ⟨.freedEglWindow, ?_⟩
    rw [perform, wlEglWindowGetAttachedSize,
      eglWindow_error (Option.not_isSome_iff_eq_none.mp hk)]
    rfl
  | eglCreateWindowSurface win display result =>
    match win, display with
    | none, _ => exact .inl ⟨.abort, rfl⟩
    | some _, none => exact .inl ⟨.abort, rfl⟩
    | some p, some d =>
      cases he : s.eglWindows p with
      | none =>
        refine .inl ⟨.freedEglWindow, ?_⟩
        show (construct s s.surfaces.created p >>= _) >>= _ = _
        rw [construct, eglWindow_error he]
        rfl
      | some e =>
        cases hnat : e.nativewindow with
        | none =>
          refine absurd ?_ hk
          exact ⟨rfl, p, rfl, by rw [he]; rfl, (nativewindow_eq he).trans hnat⟩
        | some w =>
          exact .inr ⟨_, eglCreateWindowSurface_eq he d result,
            not_sound_join hs he hnat result⟩
  | eglDestroySurface surface result => exact absurd trivial hk
  | eglSwapInterval surface interval => exact absurd trivial hk
  | eglSwapBuffers surface buffer =>
    obtain ⟨hbuf, hno⟩ := Classical.not_imp.mp hk
    obtain ⟨size, rfl⟩ := Option.isSome_iff_exists.mp hbuf
    push Not at hno
    obtain ⟨w, hmap, hnone⟩ := hno
    obtain ⟨n, hn, -⟩ := (hs.counted ha).window_of_mapped hmap
    have hback : n.window = none :=
      (mWindow_eq hn).symm.trans (Option.not_isSome_iff_eq_none.mp hnone)
    refine .inl ⟨.nullPointer, ?_⟩
    rw [perform, eglSwapBuffers, hmap]
    show (s.window w >>= fun _ => finishSwap s w (some size)) = _
    rw [window_bind hn, finishSwap, window_bind hn]
    exact pointee_error hback _
  | waylandwsPost p read =>
    cases he : s.eglWindows p with
    | none => exact .inl ⟨_, eglWindow_error he _⟩
    | some e =>
      cases hnat : e.nativewindow with
      | none =>
        refine .inl ⟨.nullPointer, ?_⟩
        rw [perform, waylandwsPost, eglWindow_bind he]
        exact pointee_error hnat _
      | some w =>
        refine absurd ⟨?_, ?_⟩ hk
        · rw [he]
          rfl
        · rw [nativewindow_eq he, hnat]
          rfl
  | incRef w => exact absurd trivial hk
  | decRef w => exact absurd trivial hk
  | dequeueBuffer w free =>
    obtain ⟨rfl, hnone⟩ := Classical.not_imp.mp hk
    obtain ⟨n, hn⟩ := (hs.counted ha).window_of_held hen
    have hback : n.window = none :=
      (mWindow_eq hn).symm.trans (Option.not_isSome_iff_eq_none.mp hnone)
    refine .inl ⟨.nullPointer, ?_⟩
    rw [perform, dequeueBuffer, window_bind hn]
    exact pointee_error hback _

theorem step_cases {a : Action} (h : step s a = some t) :
    s.surfaces.aborted = false ∧ Enabled s a ∧ t = settle s (perform s a) := by
  unfold step at h
  split at h
  · rename_i hc
    exact ⟨hc.2.1, hc.2.2, (Option.some.inj h).symm⟩
  · cases h

theorem sound_step_iff {a : Action} (hs : Sound s) (h : step s a = some t) :
    Sound t ↔ Kept s a := by
  obtain ⟨ha, hen, rfl⟩ := step_cases h
  by_cases hk : Kept s a
  · obtain ⟨t, ht, hst⟩ := sound_perform hs ha hen hk
    rw [ht]
    exact iff_of_true hst hk
  · refine iff_of_false ?_ hk
    rcases not_sound_perform hs ha hen hk with ⟨f, hf⟩ | ⟨t, ht, hnot⟩
    · rw [hf]
      intro hbad
      cases hbad.fault
    · rw [ht]
      exact hnot

theorem sound_start : Sound start where
  fault := rfl
  linked := ⟨paired_none, fun _ => rfl, fun _ _ h => by cases h⟩
  counted _ := by
    refine ⟨fun w => ?_, fun w h => (Bool.false_ne_true h).elim, fun _ _ _ h => ?_⟩
    · rw [references_of_not_mapped]
      · rfl
      · rintro ⟨a, h⟩
        cases h
    · cases h
  windows _ _ := rfl
  eglWindows _ _ := rfl

/-- In whatever order windows are made, resized, drawn on and destroyed, with
their surfaces and with the references of the wrapped library: no window is used
once it is gone, and each native window lives as long as there are references,
exactly if the client keeps its own windows while it uses them and gives each
of them one surface at a time. -/
theorem sound_iff_kept (calls : List Action) (hrun : (exec step start calls).isSome) :
    Always step Sound start calls ↔ Guarded step Kept start calls :=
  always_iff_guarded_of_iff (fun _ _ _ hs h => sound_step_iff hs h) sound_start hrun

/-- A window is resized and drawn on, and goes before its surface. -/
theorem sound_iff_kept_window_first :
    Always step Sound start
      [.wlEglWindowCreate 1 640 480, .eglCreateWindowSurface (some 0) (some 5) 7, .incRef 0,
        .eglSwapBuffers 7 (some (640, 480)), .wlEglWindowResize 0 800 600 0 0,
        .wlEglWindowDestroy 0, .eglDestroySurface 7 true, .decRef 0] :=
  (sound_iff_kept _ (by decide)).mpr (by decide)

end FakeLibc.WlEglWindow

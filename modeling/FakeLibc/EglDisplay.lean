import FakeLibc.Egl

namespace FakeLibc.EglDisplay

open FakeLibc.Lib.Run FakeLibc.Egl

/-- No lookup finds a display that is gone, every display that went to the
window system was one of its own and not yet terminated, and none went to
`ws_Terminate` twice. -/
structure NoDangling (d : Displays) : Prop where
  found : ∀ display p, hybrisEglDisplayGetMapping d display = some p → d.Live p
  passed : ∀ e ∈ d.passed, ∃ p, e = (some p, true)
  once : d.terminated.Nodup

/-- Nothing is terminated, and a window is only created on a mapped display. -/
def Kept (s : State) : Call → Prop
  | .eglTerminate _ => False
  | .eglCreateWindowSurface dpy _ => (hybrisEglDisplayGetMapping s.displays dpy).isSome
  | _ => True

instance (s : State) : (c : Call) → Decidable (Kept s c)
  | .eglTerminate _ => .isFalse id
  | .eglCreateWindowSurface dpy _ =>
    inferInstanceAs (Decidable ((hybrisEglDisplayGetMapping s.displays dpy).isSome = true))
  | .eglGetDisplay _ _ _ => .isTrue trivial
  | .eglDestroySurface _ _ => .isTrue trivial
  | .scribble _ _ => .isTrue trivial

structure Inv (d : Displays) : Prop where
  slots : ∀ p, some p ∈ d.mappings.slots → d.Live p
  passed : ∀ e ∈ d.passed, ∃ p, e = (some p, true)
  terminated : d.terminated = []

theorem noDangling_of_inv {d : Displays} (hi : Inv d) : NoDangling d := by
  refine ⟨fun display p h => hi.slots p (mem_of_getMapping h).1, hi.passed, ?_⟩
  rw [hi.terminated]
  exact List.nodup_nil

theorem live_make (d : Displays) (p : Ptr) (hterm : d.terminated = []) : (d.make p).Live p :=
  ⟨d.made, by simp [Displays.make], by simp [Displays.make, hterm]⟩

theorem live_make_of_live {d : Displays} {q : Ptr} (p : Ptr) (hterm : d.terminated = [])
    (hq : d.Live q) : (d.make p).Live q := by
  by_cases hqp : q = p
  · rw [hqp]
    exact live_make d p hterm
  · obtain ⟨k, hk, hlive⟩ := hq
    exact ⟨k, by simpa [Displays.make, hqp] using hk, hlive⟩

theorem inv_eglGetDisplay {d : Displays} (hi : Inv d)
    (wsGetDisplay : EGLNativeDisplayType → Option Ptr) (displayId : EGLNativeDisplayType)
    (real : EGLDisplay) : Inv (eglGetDisplay d wsGetDisplay displayId real).1 := by
  unfold eglGetDisplay
  split
  · exact hi
  · cases hf : hybrisEglDisplayGetMapping d real with
    | some q => exact hi
    | none =>
      cases hw : wsGetDisplay displayId with
      | none => exact hi
      | some p =>
        refine ⟨fun q hq => ?_, hi.passed, hi.terminated⟩
        obtain rfl | hq := mem_addFirst hq
        · exact live_make d q hi.terminated
        · exact live_make_of_live p hi.terminated (hi.slots q hq)

theorem inv_pass {d : Displays} {p : Ptr} (hi : Inv d) (hp : d.Live p) : Inv (d.pass (some p)) := by
  refine ⟨hi.slots, fun e he => ?_, hi.terminated⟩
  obtain rfl | he := List.mem_cons.mp he
  · exact ⟨p, by simp [hp]⟩
  · exact hi.passed e he

theorem inv_step {s t : State} {c : Call} (hi : Inv s.displays) (hc : Kept s c)
    (h : step s c = some t) : Inv t.displays := by
  obtain ⟨_, _, rfl⟩ := step_cases h
  cases c with
  | eglGetDisplay wsGetDisplay displayId real =>
    exact inv_eglGetDisplay hi wsGetDisplay displayId real
  | eglTerminate dpy => exact hc.elim
  | eglCreateWindowSurface dpy result =>
    obtain ⟨p, hp⟩ := Option.isSome_iff_exists.mp hc
    have hlive : s.displays.Live p := hi.slots p (mem_of_getMapping hp).1
    simpa only [perform, eglCreateWindowSurface, hp] using inv_pass hi hlive
  | eglDestroySurface surface result => exact hi
  | scribble p dpy => exact ⟨hi.slots, hi.passed, hi.terminated⟩

theorem not_noDangling_pass_none {d : Displays} (h : (none, false) ∈ d.passed) :
    ¬ NoDangling d := by
  intro hd
  obtain ⟨p, hp⟩ := hd.passed _ h
  cases hp

/-- Nothing clears the slot of a display that is terminated. -/
theorem not_noDangling_eglTerminate (d : Displays) (dpy : EGLDisplay) :
    ¬ NoDangling (eglTerminate d dpy) := by
  unfold eglTerminate
  cases hf : hybrisEglDisplayGetMapping d dpy with
  | none => exact not_noDangling_pass_none List.mem_cons_self
  | some p =>
    intro hd
    obtain ⟨k, hk, hlive⟩ := hd.found dpy p hf
    have htenant : d.tenant p = some k := hk
    exact hlive (by simp [wsTerminate, htenant])

theorem not_noDangling_of_not_kept {s t : State} {c : Call} (hc : ¬ Kept s c)
    (h : step s c = some t) : ¬ NoDangling t.displays := by
  obtain ⟨_, _, rfl⟩ := step_cases h
  cases c with
  | eglTerminate dpy => exact not_noDangling_eglTerminate s.displays dpy
  | eglCreateWindowSurface dpy result =>
    have hnone : hybrisEglDisplayGetMapping s.displays dpy = none := by simpa [Kept] using hc
    apply not_noDangling_pass_none
    simp [perform, eglCreateWindowSurface, hnone, Displays.pass]
  | eglGetDisplay wsGetDisplay displayId real => exact absurd trivial hc
  | eglDestroySurface surface result => exact absurd trivial hc
  | scribble p dpy => exact absurd trivial hc

theorem inv_start : Inv start.displays :=
  ⟨by simp [start], by simp [start], rfl⟩

/-- The mappings never dangle precisely in the runs that terminate nothing. -/
theorem noDangling_iff_kept {calls : List Call} (hrun : (exec step start calls).isSome) :
    Always step (fun s => NoDangling s.displays) start calls ↔ Guarded step Kept start calls := by
  have hsafe : ∀ s : State, Inv s.displays → NoDangling s.displays := fun _ => noDangling_of_inv
  exact always_iff_guarded hsafe (fun _ _ _ => inv_step)
    (fun _ _ _ _ => not_noDangling_of_not_kept) inv_start hrun

/-- A display, a window on it, and the same display again. -/
theorem noDangling_iff_kept_again :
    Always step (fun s => NoDangling s.displays) start
        [.eglGetDisplay (fun _ => some 64) 0 1, .eglCreateWindowSurface 1 7,
          .eglGetDisplay (fun _ => some 80) 0 1] ↔
      Guarded step Kept start
        [.eglGetDisplay (fun _ => some 64) 0 1, .eglCreateWindowSurface 1 7,
          .eglGetDisplay (fun _ => some 80) 0 1] :=
  noDangling_iff_kept (by decide)

example : Guarded step Kept start
    [.eglGetDisplay (fun _ => some 64) 0 1, .eglCreateWindowSurface 1 7,
      .eglDestroySurface 7 true, .eglGetDisplay (fun _ => some 80) 0 1] := by decide

/-- The second termination passes on the display that the first one ended. -/
theorem not_noDangling_terminate_twice :
    ¬ ∀ calls, (exec step start calls).isSome →
      Always step (fun s => NoDangling s.displays) start calls := by
  intro h
  have hd := h [.eglGetDisplay (fun _ => some 64) 0 1, .eglTerminate 1, .eglTerminate 1] (by decide)
    _ _ List.prefix_rfl rfl
  exact absurd hd.once (by decide)

end FakeLibc.EglDisplay

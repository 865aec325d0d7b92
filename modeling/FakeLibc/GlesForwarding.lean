import FakeLibc.GlesTables
import FakeLibc.ImageWrapping
import Mathlib.Data.List.Infix

namespace FakeLibc.GlesForwarding

open FakeLibc.Lib.Run FakeLibc.GlesTables FakeLibc.ImageWrapping

structure Driver where
  handle : Nat
  dlsym : Gl → Nat
  loaded : handle ≠ 0
  found : ∀ sym, dlsym sym ≠ 0

/-- Where a reference to a function leads: into the driver, or to the function of
`glesv2.c`. -/
inductive Target
  | driver (address : Nat)
  | own
deriving DecidableEq

structure Call where
  sym : Gl
  args : List Nat
  mem : Ptr → EglImage
  target : Target
  callee : Nat
  passed : List Nat

/-- The pointers are null at first. `got` has where each module that uses the
library had a symbol resolved to. -/
structure State where
  libglesv2 : Nat
  pointers : Gl → Nat
  got : Nat → Gl → Option Target
  calls : List Call

def start : State := ⟨0, fun _ => 0, fun _ _ => none, []⟩

def loadPointer (d : Driver) (pointers : Gl → Nat) (sym : Gl) : Gl → Nat :=
  Function.update pointers sym (d.dlsym sym)

def initAndroidglesv2 (d : Driver) (s : State) : State :=
  { s with libglesv2 := d.handle, pointers := gles2Load.foldl (loadPointer d) s.pointers }

/-- What the resolver of an indirect function returns. -/
def dispatch (d : Driver) (s : State) (sym : Gl) : Target :=
  if s.libglesv2 ≠ 0 then .driver (d.dlsym sym) else .own

def resolve (d : Driver) (s : State) (sym : Gl) : Target :=
  if sym ∈ gles2Idload then dispatch d s sym else .own

def argValue (mem : Ptr → EglImage) (params : List (String × Nat)) : Arg → Nat
  | .param name => (params.lookup name).getD 0
  | .eglImage name =>
    let img := (params.lookup name).getD 0
    if img = 0 then 0 else (mem img).eglImage

def call (s : State) (sym : Gl) (args : List Nat) (mem : Ptr → EglImage) : Target → Call
  | .driver address => ⟨sym, args, mem, .driver address, address, args⟩
  | .own =>
    ⟨sym, args, mem, .own, s.pointers (function sym).callee,
      (function sym).args.map (argValue mem ((function sym).params.zip args))⟩

inductive Action
  | resolve (caller : Nat) (sym : Gl)
  | construct
  | call (caller : Nat) (sym : Gl) (args : List Nat) (mem : Ptr → EglImage)

/-- The constructor runs once. A symbol is resolved before it is called, and
called after the constructor. A call of null ends the process. -/
def step (d : Driver) (s : State) : Action → Option State
  | .resolve caller sym =>
    let slots := Function.update (s.got caller) sym (some (resolve d s sym))
    some { s with got := Function.update s.got caller slots }
  | .construct => if s.libglesv2 = 0 then some (initAndroidglesv2 d s) else none
  | .call caller sym args mem =>
    if s.libglesv2 ≠ 0 ∧ args.length = (function sym).params.length ∧
        ∀ c ∈ s.calls, c.callee ≠ 0 then
      (s.got caller sym).map (fun target =>
        { s with calls := call s sym args mem target :: s.calls })
    else none

def unwrapped (mem : Ptr → EglImage) : Gl → List Nat → List Nat
  | .glEGLImageTargetTexture2DOES, [target, image] =>
    [target, if image = 0 then 0 else (mem image).eglImage]
  | _, args => args

/-- The call reaches the driver's function of the same name. -/
structure Reaches (d : Driver) (c : Call) : Prop where
  callee : c.callee = d.dlsym c.sym
  nonNull : c.callee ≠ 0
  passed : c.passed = unwrapped c.mem c.sym c.args

/-- `glReadPixels` was resolved before the constructor ran. -/
def Call.Early (c : Call) : Prop := c.sym = .glReadPixels ∧ c.target = .own

section Values

variable {mem : Ptr → EglImage}

theorem values_params {params : List String} (hnodup : params.Nodup) {args : List Nat}
    (hlength : args.length = params.length) :
    params.map (fun name => argValue mem (params.zip args) (.param name)) = args := by
  induction params generalizing args with
  | nil => exact (List.length_eq_zero_iff.mp hlength).symm
  | cons p params ih =>
    obtain ⟨hp, hnodup⟩ := List.nodup_cons.mp hnodup
    cases args with
    | nil => simp at hlength
    | cons a args =>
      have hrest : params.map (fun name =>
          argValue mem ((p :: params).zip (a :: args)) (.param name)) =
            params.map (fun name => argValue mem (params.zip args) (.param name)) := by
        apply List.map_congr_left
        intro name hname
        have hne : (name == p) = false := by
          rw [beq_eq_false_iff_ne]
          rintro rfl
          exact hp hname
        simp [argValue, List.lookup_cons, hne]
      rw [List.map_cons, hrest, ih hnodup (Nat.succ.inj hlength)]
      simp [argValue]

theorem unwrapped_of_ne {sym : Gl} (h : sym ≠ .glEGLImageTargetTexture2DOES) (args : List Nat) :
    unwrapped mem sym args = args := by
  unfold unwrapped
  split
  · exact absurd rfl h
  · rfl

theorem values_function (sym : Gl) {args : List Nat}
    (hlength : args.length = (function sym).params.length) :
    (function sym).args.map (argValue mem ((function sym).params.zip args)) =
      unwrapped mem sym args := by
  by_cases hsym : sym = .glEGLImageTargetTexture2DOES
  · subst sym
    obtain ⟨target, image, rfl⟩ := List.length_eq_two.mp hlength
    rfl
  · rw [args_function hsym, List.map_map, unwrapped_of_ne hsym]
    exact values_params (nodup_params sym) hlength

end Values

section Pointers

variable {d : Driver}

theorem foldl_loadPointer (syms : List Gl) (pointers : Gl → Nat) (sym : Gl) :
    syms.foldl (loadPointer d) pointers sym =
      if sym ∈ syms then d.dlsym sym else pointers sym := by
  induction syms generalizing pointers with
  | nil => rfl
  | cons x syms ih =>
    rw [List.foldl_cons, ih]
    by_cases hx : sym = x
    · subst x
      simp [loadPointer]
    · simp [loadPointer, hx]

end Pointers

structure Inv (d : Driver) (s : State) : Prop where
  loaded : s.libglesv2 ≠ 0 → ∀ sym ≠ .glReadPixels, s.pointers sym = d.dlsym sym
  missed : s.pointers .glReadPixels = 0
  got : ∀ caller sym address, s.got caller sym = some (.driver address) →
    address = d.dlsym sym ∧ sym ∈ gles2Idload

theorem inv_start (d : Driver) : Inv d start :=
  ⟨fun h => absurd rfl h, rfl, fun _ _ _ h => absurd h.symm (Option.some_ne_none _)⟩

theorem inv_construct {d : Driver} {s : State} (hs : Inv d s) : Inv d (initAndroidglesv2 d s) := by
  refine ⟨fun _ sym hsym => ?_, ?_, hs.got⟩
  · simp only [initAndroidglesv2]
    rw [foldl_loadPointer]
    exact if_pos (mem_gles2Load hsym)
  · simp only [initAndroidglesv2]
    rw [foldl_loadPointer, if_neg glReadPixels_not_mem_gles2Load]
    exact hs.missed

theorem inv_resolve {d : Driver} {s t : State} (hs : Inv d s) {caller : Nat} {sym : Gl}
    (h : step d s (.resolve caller sym) = some t) : Inv d t := by
  obtain rfl := Option.some.inj h
  refine ⟨hs.loaded, hs.missed, fun m x address hgot => ?_⟩
  by_cases hm : m = caller
  · subst m
    simp only [Function.update_self] at hgot
    by_cases hx : x = sym
    · subst x
      rw [Function.update_self, Option.some.injEq, resolve, dispatch] at hgot
      split at hgot
      next hmem =>
        split at hgot
        · exact ⟨(Target.driver.inj hgot).symm, hmem⟩
        · cases hgot
      next => cases hgot
    · rw [Function.update_of_ne hx] at hgot
      exact hs.got caller x address hgot
  · simp only [Function.update_of_ne hm] at hgot
    exact hs.got m x address hgot

section Calls

variable {d : Driver} {s t : State} {caller : Nat} {sym : Gl} {args : List Nat}
  {mem : Ptr → EglImage}

theorem step_call (h : step d s (.call caller sym args mem) = some t) :
    s.libglesv2 ≠ 0 ∧ args.length = (function sym).params.length ∧
      ∃ target, s.got caller sym = some target ∧
        t = { s with calls := call s sym args mem target :: s.calls } := by
  obtain ⟨⟨hloaded, hlength, _⟩, h⟩ := Option.ite_none_right_eq_some.mp h
  obtain ⟨target, hgot, rfl⟩ := Option.map_eq_some_iff.mp h
  exact ⟨hloaded, hlength, target, hgot, rfl⟩

theorem reaches_driver (hs : Inv d s) {address : Nat}
    (hgot : s.got caller sym = some (.driver address)) :
    Reaches d (call s sym args mem (.driver address)) := by
  obtain ⟨rfl, hmem⟩ := hs.got caller sym address hgot
  refine ⟨rfl, d.found sym, (unwrapped_of_ne ?_ args).symm⟩
  rintro rfl
  exact glEGLImageTargetTexture2DOES_not_mem_gles2Idload hmem

theorem reaches_own (hs : Inv d s) (hloaded : s.libglesv2 ≠ 0)
    (hlength : args.length = (function sym).params.length) (hsym : sym ≠ .glReadPixels) :
    Reaches d (call s sym args mem .own) := by
  have hcallee : s.pointers (function sym).callee = d.dlsym sym := by
    rw [callee_function]
    exact hs.loaded hloaded sym hsym
  refine ⟨hcallee, ?_, values_function sym hlength⟩
  rw [call, hcallee]
  exact d.found sym

/-- The pointer of `glReadPixels` stays null. -/
theorem callee_readPixels (hs : Inv d s) :
    (call s .glReadPixels args mem .own).callee = 0 := by
  rw [call, callee_function]
  exact hs.missed

theorem reaches_iff (hs : Inv d s) (h : step d s (.call caller sym args mem) = some t) :
    ∃ target, t = { s with calls := call s sym args mem target :: s.calls } ∧
      (Reaches d (call s sym args mem target) ↔ ¬ (call s sym args mem target).Early) := by
  obtain ⟨hloaded, hlength, target, hgot, rfl⟩ := step_call h
  refine ⟨target, rfl, ?_⟩
  cases target with
  | driver address =>
    refine ⟨fun _ hearly => ?_, fun _ => reaches_driver hs hgot⟩
    cases hearly.2
  | own =>
    constructor
    · rintro hreaches ⟨rfl, _⟩
      exact hreaches.nonNull (callee_readPixels hs)
    · intro hearly
      exact reaches_own hs hloaded hlength (fun hsym => hearly ⟨hsym, rfl⟩)

end Calls

theorem inv_step {d : Driver} {s t : State} {a : Action} (hs : Inv d s)
    (h : step d s a = some t) : Inv d t := by
  cases a with
  | resolve caller sym => exact inv_resolve hs h
  | construct =>
    obtain ⟨_, h⟩ := Option.ite_none_right_eq_some.mp h
    exact Option.some.inj h ▸ inv_construct hs
  | call caller sym args mem =>
    obtain ⟨_, _, target, _, rfl⟩ := step_call h
    exact ⟨hs.loaded, hs.missed, hs.got⟩

structure Sound (d : Driver) (s : State) : Prop where
  inv : Inv d s
  calls : ∀ c ∈ s.calls, Reaches d c ↔ ¬ c.Early

theorem sound_step {d : Driver} {s t : State} {a : Action} (hs : Sound d s)
    (h : step d s a = some t) : Sound d t := by
  refine ⟨inv_step hs.inv h, ?_⟩
  cases a with
  | resolve caller sym => exact Option.some.inj h ▸ hs.calls
  | construct =>
    obtain ⟨_, h⟩ := Option.ite_none_right_eq_some.mp h
    exact Option.some.inj h ▸ hs.calls
  | call caller sym args mem =>
    obtain ⟨target, rfl, hiff⟩ := reaches_iff hs.inv h
    exact List.forall_mem_cons.mpr ⟨hiff, hs.calls⟩

theorem always_sound (d : Driver) (actions : List Action) :
    Always (step d) (Sound d) start actions :=
  always_of_step (fun _ _ _ hs h => sound_step hs h) ⟨inv_start d, fun _ hc => by cases hc⟩ actions

/-- Whenever the symbols are resolved, a call reaches the driver's function with
its arguments, and with the driver's handle for an image. -/
theorem always_reaches (d : Driver) (actions : List Action) :
    Always (step d) (fun s => ∀ c ∈ s.calls, ¬ c.Early → Reaches d c) start actions :=
  (always_sound d actions).mono (fun _ hs c hc hearly => (hs.calls c hc).mpr hearly)

/-- An image is not passed on unchanged. -/
theorem not_unchanged_image :
    ¬ ∀ (d : Driver) (actions : List Action),
      Always (step d)
        (fun s => ∀ c ∈ s.calls, c.callee = d.dlsym c.sym ∧ c.callee ≠ 0 ∧ c.passed = c.args)
        start actions := by
  intro h
  have hlast := h ⟨1, fun _ => 5, by decide, fun _ => by decide⟩
    [.construct, .resolve 0 .glEGLImageTargetTexture2DOES,
      .call 0 .glEGLImageTargetTexture2DOES [3553, 64] (fun _ => ⟨7, 0, 0⟩)]
    _ _ List.prefix_rfl rfl _ List.mem_cons_self
  exact absurd hlast.2.2 (by decide)

end FakeLibc.GlesForwarding

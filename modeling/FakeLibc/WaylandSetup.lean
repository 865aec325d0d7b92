import FakeLibc.Lib.Run

namespace FakeLibc.WaylandSetup

open FakeLibc.Lib.Run

structure Global where
  name : Nat
  interface : String
  version : Nat
deriving DecidableEq

inductive Event
  | global (g : Global)
  | done
deriving DecidableEq

inductive Dispatch
  | failed
  | batch (events : List Event)

def Dispatch.events : Dispatch → List Event
  | .failed => []
  | .batch events => events

/-- How the announcements, and after them the answer to the sync request, arrive. -/
structure Delivery where
  announcements : List Global
  dispatches : List Dispatch
  complete : dispatches.flatMap Dispatch.events = announcements.map .global ++ [.done]
  nonempty : ∀ events, .batch events ∈ dispatches → events ≠ []

structure Wlegl where
  name : Nat
  version : Nat
deriving DecidableEq

def registryHandleGlobal (wlegl : Option Wlegl) (g : Global) : Option Wlegl :=
  if g.interface = "android_wlegl" then some ⟨g.name, min 2 g.version⟩ else wlegl

/-- The process ends if nothing was bound. -/
def callbackDone (wlegl : Option Wlegl) : Option (Option Wlegl) :=
  if wlegl = none then none else some wlegl

def handle (wlegl : Option Wlegl) : Event → Option (Option Wlegl)
  | .global g => some (registryHandleGlobal wlegl g)
  | .done => callbackDone wlegl

/-- The result of the call and the `wlegl` of the display after it. -/
def wlDisplayDispatchQueue (wlegl : Option Wlegl) : Dispatch → Option (Int × Option Wlegl)
  | .failed => some (-1, wlegl)
  | .batch events => (events.foldlM handle wlegl).map (fun wlegl => (events.length, wlegl))

/-- How the loop is left. It is blocked when nothing arrives any more. -/
inductive Waited
  | aborted
  | blocked
  | left (ret : Int) (wlegl : Option Wlegl) (incoming : List Dispatch)

/-- The loop of `waylandws_CreateWindow` and of `waylandws_Terminate`. -/
def wait (ret : Int) (wlegl : Option Wlegl) : List Dispatch → Waited
  | [] => if ret = 0 ∧ wlegl = none then .blocked else .left ret wlegl []
  | d :: incoming =>
    if ret = 0 ∧ wlegl = none then
      match wlDisplayDispatchQueue wlegl d with
      | none => .aborted
      | some (ret, wlegl) => wait ret wlegl incoming
    else .left ret wlegl (d :: incoming)

inductive Process
  | running
  | aborted
  | blocked
deriving DecidableEq

structure WaylandDisplay where
  wlegl : Option Wlegl
  incoming : List Dispatch

/-- `windows` has what each window was constructed with and `destroyed` what
`android_wlegl_destroy` got. -/
structure State where
  display : Option WaylandDisplay
  windows : List (Option Wlegl)
  destroyed : List (Option Wlegl)
  called : Bool
  process : Process

def waylandwsGetDisplay (d : Delivery) : State :=
  ⟨some ⟨none, d.dispatches⟩, [], [], false, .running⟩

def afterWait (s : State) (dpy : WaylandDisplay) (next : WaylandDisplay → State) : State :=
  match wait 0 dpy.wlegl dpy.incoming with
  | .aborted => { s with called := true, process := .aborted }
  | .blocked => { s with called := true, process := .blocked }
  | .left ret wlegl incoming =>
    if ret ≥ 0 then next ⟨wlegl, incoming⟩ else { s with called := true, process := .aborted }

def waylandwsCreateWindow (s : State) (dpy : WaylandDisplay) (win display : Nat) : State :=
  if win = 0 ∨ display = 0 then { s with called := true, process := .aborted }
  else afterWait s dpy (fun dpy =>
    { s with display := some dpy, windows := dpy.wlegl :: s.windows, called := true })

def waylandwsTerminate (s : State) (dpy : WaylandDisplay) : State :=
  afterWait s dpy (fun dpy =>
    { s with display := none, destroyed := dpy.wlegl :: s.destroyed, called := true })

inductive Call
  | createWindow (win display : Nat)
  | terminate

def perform (s : State) (dpy : WaylandDisplay) : Call → State
  | .createWindow win display => waylandwsCreateWindow s dpy win display
  | .terminate => waylandwsTerminate s dpy

/-- The display is not used after it was terminated. -/
def step (s : State) (c : Call) : Option State :=
  if s.process = .running then s.display.map (fun dpy => perform s dpy c) else none

/-- The `android_wlegl` of an announcement. -/
def Bound (d : Delivery) (wlegl : Option Wlegl) : Prop :=
  ∃ g ∈ d.announcements, g.interface = "android_wlegl" ∧ wlegl = some ⟨g.name, min 2 g.version⟩

/-- Windows are built on a bound `android_wlegl`, which alone is destroyed, and
without one the process ends. -/
structure Waits (d : Delivery) (s : State) : Prop where
  windows : ∀ wlegl ∈ s.windows, Bound d wlegl
  destroyed : ∀ wlegl ∈ s.destroyed, Bound d wlegl
  never : (∀ g ∈ d.announcements, g.interface ≠ "android_wlegl") → s.called = true →
    s.process = .aborted

def decides : Event → Bool
  | .global g => g.interface = "android_wlegl"
  | .done => true

def Dispatch.decides : Dispatch → Bool
  | .failed => true
  | .batch events => events.any WaylandSetup.decides

/-- If the display has to wait, its first dispatch fails, or it brings the
`android_wlegl` or the answer to the sync request. -/
def FirstDecides (s : State) : Prop :=
  ∀ dpy ∈ s.display, dpy.wlegl = none → ∀ first ∈ dpy.incoming.head?, first.decides = true

instance (s : State) : Decidable (FirstDecides s) := by
  unfold FirstDecides
  infer_instance

def Lucky (s : State) : Call → Prop
  | .createWindow win display => win = 0 ∨ display = 0 ∨ FirstDecides s
  | .terminate => FirstDecides s

instance (s : State) (c : Call) : Decidable (Lucky s c) := by
  cases c <;> simp only [Lucky] <;> infer_instance

structure Inv (d : Delivery) (s : State) : Prop where
  windows : ∀ wlegl ∈ s.windows, Bound d wlegl
  destroyed : ∀ wlegl ∈ s.destroyed, Bound d wlegl
  called : s.called = true → s.process = .aborted ∨ ∃ wlegl, Bound d wlegl
  display : ∀ dpy ∈ s.display,
    (dpy.wlegl = none ∧ dpy.incoming = d.dispatches) ∨ Bound d dpy.wlegl

theorem Inv.waits {d : Delivery} {s : State} (h : Inv d s) : Waits d s := by
  refine ⟨h.windows, h.destroyed, fun hnever hcalled => ?_⟩
  obtain haborted | ⟨wlegl, g, hg, hname, _⟩ := h.called hcalled
  · exact haborted
  · exact absurd hname (hnever g hg)

theorem inv_getDisplay (d : Delivery) : Inv d (waylandwsGetDisplay d) := by
  refine ⟨by simp [waylandwsGetDisplay], by simp [waylandwsGetDisplay],
    by simp [waylandwsGetDisplay], fun dpy hdpy => ?_⟩
  obtain rfl := Option.some.inj hdpy
  exact .inl ⟨rfl, rfl⟩

section Batch

variable {d : Delivery} {events : List Event} {wlegl wlegl' : Option Wlegl}

theorem bound_of_batch (hevents : ∀ g, .global g ∈ events → g ∈ d.announcements)
    (hwlegl : wlegl = none ∨ Bound d wlegl) (h : events.foldlM handle wlegl = some wlegl') :
    wlegl' = none ∨ Bound d wlegl' := by
  induction events generalizing wlegl with
  | nil =>
    obtain rfl := Option.some.inj h
    exact hwlegl
  | cons e events ih =>
    obtain ⟨w, hw, h⟩ := Option.bind_eq_some_iff.mp h
    refine ih (fun g hg => hevents g (List.mem_cons_of_mem e hg)) ?_ h
    cases e with
    | global g =>
      obtain rfl := Option.some.inj hw
      by_cases hname : g.interface = "android_wlegl"
      · exact .inr ⟨g, hevents g List.mem_cons_self, hname, if_pos hname⟩
      · rwa [registryHandleGlobal, if_neg hname]
    | done =>
      obtain ⟨_, hw⟩ := Option.ite_none_left_eq_some.mp hw
      exact Option.some.inj hw ▸ hwlegl

theorem isSome_of_batch (hwlegl : wlegl ≠ none) (h : events.foldlM handle wlegl = some wlegl') :
    wlegl' ≠ none := by
  induction events generalizing wlegl with
  | nil => exact Option.some.inj h ▸ hwlegl
  | cons e events ih =>
    obtain ⟨w, hw, h⟩ := Option.bind_eq_some_iff.mp h
    refine ih ?_ h
    cases e with
    | global g =>
      obtain rfl := Option.some.inj hw
      unfold registryHandleGlobal
      split
      · exact Option.some_ne_none _
      · exact hwlegl
    | done =>
      obtain ⟨hne, hw⟩ := Option.ite_none_left_eq_some.mp hw
      exact Option.some.inj hw ▸ hne

theorem isSome_of_decides (hany : events.any decides)
    (h : events.foldlM handle wlegl = some wlegl') : wlegl' ≠ none := by
  induction events generalizing wlegl with
  | nil => simp at hany
  | cons e events ih =>
    obtain ⟨w, hw, h⟩ := Option.bind_eq_some_iff.mp h
    by_cases he : decides e
    · refine isSome_of_batch ?_ h
      cases e with
      | global g =>
        obtain rfl := Option.some.inj hw
        simp [registryHandleGlobal, of_decide_eq_true he]
      | done =>
        obtain ⟨hne, hw⟩ := Option.ite_none_left_eq_some.mp hw
        exact Option.some.inj hw ▸ hne
    · exact ih (by simpa [he] using hany) h

theorem unbound_of_batch (hany : ¬ events.any decides) :
    events.foldlM handle none = some none := by
  induction events with
  | nil => rfl
  | cons e events ih =>
    rw [List.any_cons, Bool.or_eq_true, not_or] at hany
    cases e with
    | global g =>
      have hname : ¬ g.interface = "android_wlegl" := fun h => hany.1 (decide_eq_true h)
      simp only [List.foldlM_cons, handle, registryHandleGlobal, if_neg hname]
      exact ih hany.2
    | done => exact absurd rfl hany.1

end Batch

section Wait

variable {d : Delivery} {s : State} {dpy : WaylandDisplay} {next : WaylandDisplay → State}

theorem wait_left {ret : Int} {wlegl : Option Wlegl} (h : ¬ (ret = 0 ∧ wlegl = none))
    (incoming : List Dispatch) : wait ret wlegl incoming = .left ret wlegl incoming := by
  cases incoming with
  | nil => exact if_neg h
  | cons first incoming => exact if_neg h

/-- The loop ends after one dispatch. -/
theorem wait_batch {events : List Event} (h : events ≠ []) (incoming : List Dispatch) :
    wait 0 none (.batch events :: incoming) =
      match events.foldlM handle none with
      | none => .aborted
      | some wlegl => .left events.length wlegl incoming := by
  have hlength : (events.length : Int) ≠ 0 := by
    have := List.length_pos_iff.mpr h
    omega
  rw [wait, if_pos ⟨rfl, rfl⟩, wlDisplayDispatchQueue]
  cases hfold : events.foldlM handle none with
  | none => rfl
  | some wlegl => exact wait_left (fun h => hlength h.1) incoming

theorem wait_failed (incoming : List Dispatch) :
    wait 0 none (.failed :: incoming) = .left (-1) none incoming := by
  rw [wait, if_pos ⟨rfl, rfl⟩, wlDisplayDispatchQueue]
  exact wait_left (by simp) incoming

theorem first_dispatch (d : Delivery) : ∃ first rest, d.dispatches = first :: rest ∧
    ∀ g, .global g ∈ first.events → g ∈ d.announcements := by
  have hcomplete := d.complete
  cases hd : d.dispatches with
  | nil => simp [hd] at hcomplete
  | cons first rest =>
    refine ⟨first, rest, rfl, fun g hg => ?_⟩
    rw [hd, List.flatMap_cons] at hcomplete
    have hmem : Event.global g ∈ d.announcements.map .global ++ [.done] :=
      hcomplete ▸ List.mem_append_left _ hg
    simpa using hmem

theorem afterWait_lucky (hs : Inv d s) (hdpy : s.display = some dpy) (hlucky : FirstDecides s) :
    afterWait s dpy next = { s with called := true, process := .aborted } ∨
      ∃ wlegl incoming, Bound d wlegl ∧ afterWait s dpy next = next ⟨wlegl, incoming⟩ := by
  unfold afterWait
  obtain ⟨hnone, hincoming⟩ | hbound := hs.display dpy hdpy
  · obtain ⟨first, rest, hfirst, hglobals⟩ := first_dispatch d
    have hhead : first ∈ dpy.incoming.head? := by
      rw [hincoming, hfirst]
      rfl
    rw [hnone, hincoming, hfirst]
    cases first with
    | failed =>
      rw [wait_failed]
      exact .inl rfl
    | batch events =>
      have hne := d.nonempty events (hfirst ▸ List.mem_cons_self)
      have hany := hlucky dpy hdpy hnone _ hhead
      rw [wait_batch hne]
      cases hfold : events.foldlM handle none with
      | none => exact .inl rfl
      | some wlegl =>
        have hsome := isSome_of_decides hany hfold
        have hbound := (bound_of_batch hglobals (.inl rfl) hfold).resolve_left hsome
        exact .inr ⟨wlegl, rest, hbound, if_pos (Int.natCast_nonneg _)⟩
  · have hne : dpy.wlegl ≠ none := by
      obtain ⟨g, _, _, hg⟩ := hbound
      exact hg ▸ Option.some_ne_none _
    rw [wait_left (fun h => hne h.2)]
    exact .inr ⟨dpy.wlegl, dpy.incoming, hbound, if_pos (Int.le_refl 0)⟩

theorem afterWait_unlucky (hs : Inv d s) (hdpy : s.display = some dpy)
    (hlucky : ¬ FirstDecides s) :
    ∃ incoming, afterWait s dpy next = next ⟨none, incoming⟩ := by
  simp only [FirstDecides, not_forall] at hlucky
  obtain ⟨dpy', hdpy', hnone, first, hfirst, hany⟩ := hlucky
  obtain rfl : dpy = dpy' := Option.some.inj (hdpy.symm.trans hdpy')
  obtain ⟨events, rfl⟩ : ∃ events, first = .batch events := by
    cases first with
    | failed => exact absurd rfl hany
    | batch events => exact ⟨events, rfl⟩
  obtain ⟨_, hincoming⟩ | ⟨g, _, _, hg⟩ := hs.display dpy hdpy
  · obtain ⟨rest, hrest⟩ : ∃ rest, dpy.incoming = .batch events :: rest := by
      cases hcons : dpy.incoming with
      | nil => simp [hcons] at hfirst
      | cons e rest =>
        rw [hcons, List.head?_cons, Option.mem_some_iff] at hfirst
        exact ⟨rest, by rw [hfirst]⟩
    have hne : events ≠ [] := by
      apply d.nonempty
      rw [← hincoming, hrest]
      exact List.mem_cons_self
    refine ⟨rest, ?_⟩
    rw [afterWait, hnone, hrest, wait_batch hne, unbound_of_batch hany]
    exact if_pos (Int.natCast_nonneg _)
  · rw [hnone] at hg
    exact absurd hg.symm (Option.some_ne_none _)

end Wait

theorem inv_abort {d : Delivery} {s : State} (hs : Inv d s) :
    Inv d { s with called := true, process := .aborted } :=
  ⟨hs.windows, hs.destroyed, fun _ => .inl rfl, hs.display⟩

theorem step_cases {s t : State} {c : Call} (h : step s c = some t) :
    ∃ dpy, s.display = some dpy ∧ t = perform s dpy c := by
  obtain ⟨_, h⟩ := Option.ite_none_right_eq_some.mp h
  obtain ⟨dpy, hdpy, rfl⟩ := Option.map_eq_some_iff.mp h
  exact ⟨dpy, hdpy, rfl⟩

theorem inv_step {d : Delivery} {s t : State} {c : Call} (hs : Inv d s) (hc : Lucky s c)
    (h : step s c = some t) : Inv d t := by
  obtain ⟨dpy, hdpy, rfl⟩ := step_cases h
  cases c with
  | createWindow win display =>
    simp only [perform, waylandwsCreateWindow]
    by_cases hnull : win = 0 ∨ display = 0
    · rw [if_pos hnull]
      exact inv_abort hs
    · rw [if_neg hnull]
      have hfirst : FirstDecides s := by
        obtain hwin | hdisplay | hfirst := hc
        · exact absurd (.inl hwin) hnull
        · exact absurd (.inr hdisplay) hnull
        · exact hfirst
      obtain habort | ⟨wlegl, incoming, hbound, hnext⟩ := afterWait_lucky hs hdpy hfirst
      · rw [habort]
        exact inv_abort hs
      · rw [hnext]
        refine ⟨List.forall_mem_cons.mpr ⟨hbound, hs.windows⟩, hs.destroyed,
          fun _ => .inr ⟨wlegl, hbound⟩, ?_⟩
        intro dpy hdpy
        obtain rfl := Option.some.inj hdpy
        exact .inr hbound
  | terminate =>
    simp only [perform, waylandwsTerminate]
    obtain habort | ⟨wlegl, incoming, hbound, hnext⟩ := afterWait_lucky hs hdpy hc
    · rw [habort]
      exact inv_abort hs
    · rw [hnext]
      refine ⟨hs.windows, List.forall_mem_cons.mpr ⟨hbound, hs.destroyed⟩,
        fun _ => .inr ⟨wlegl, hbound⟩, ?_⟩
      intro dpy hdpy
      exact absurd hdpy.symm (Option.some_ne_none dpy)

theorem not_bound_none (d : Delivery) : ¬ Bound d none := by
  rintro ⟨g, _, _, hg⟩
  exact Option.some_ne_none _ hg.symm

theorem not_waits_step {d : Delivery} {s t : State} {c : Call} (hs : Inv d s) (hc : ¬ Lucky s c)
    (h : step s c = some t) : ¬ Waits d t := by
  obtain ⟨dpy, hdpy, rfl⟩ := step_cases h
  intro ht
  cases c with
  | createWindow win display =>
    simp only [Lucky, not_or] at hc
    obtain ⟨hwin, hdisplay, hfirst⟩ := hc
    simp only [perform, waylandwsCreateWindow, hwin, hdisplay, or_self, ↓reduceIte] at ht
    obtain ⟨incoming, hnext⟩ := afterWait_unlucky hs hdpy hfirst
    rw [hnext] at ht
    exact not_bound_none d (ht.windows none List.mem_cons_self)
  | terminate =>
    obtain ⟨incoming, hnext⟩ := afterWait_unlucky hs hdpy hc
    simp only [perform, waylandwsTerminate] at ht
    rw [hnext] at ht
    exact not_bound_none d (ht.destroyed none List.mem_cons_self)

/-- The calls wait for `android_wlegl` as long as the first dispatch of each
call that has to wait decides the matter. -/
theorem waits_iff_lucky (d : Delivery) (calls : List Call)
    (hrun : (exec step (waylandwsGetDisplay d) calls).isSome) :
    Always step (Waits d) (waylandwsGetDisplay d) calls ↔
      Guarded step Lucky (waylandwsGetDisplay d) calls :=
  always_iff_guarded (fun _ hs => hs.waits) (fun _ _ _ hs hc h => inv_step hs hc h)
    (fun _ _ _ hs hc h => not_waits_step hs hc h) (inv_getDisplay d) hrun

def oneByOne : Delivery where
  announcements := [⟨1, "wl_compositor", 3⟩, ⟨2, "android_wlegl", 2⟩]
  dispatches := [.batch [.global ⟨1, "wl_compositor", 3⟩],
    .batch [.global ⟨2, "android_wlegl", 2⟩, .done]]
  complete := rfl
  nonempty := by simp

def together : Delivery where
  announcements := [⟨1, "wl_compositor", 3⟩, ⟨2, "android_wlegl", 2⟩]
  dispatches := [.batch [.global ⟨1, "wl_compositor", 3⟩, .global ⟨2, "android_wlegl", 2⟩, .done]]
  complete := rfl
  nonempty := by simp

theorem waits_iff_lucky_together :
    Always step (Waits together) (waylandwsGetDisplay together)
      [.createWindow 5 9, .terminate] :=
  (waits_iff_lucky together _ (by decide)).mpr (by decide)

theorem not_waits_oneByOne :
    (exec step (waylandwsGetDisplay oneByOne) [.createWindow 5 9]).map State.windows =
        some [none] ∧
      ¬ Always step (Waits oneByOne) (waylandwsGetDisplay oneByOne) [.createWindow 5 9] := by
  refine ⟨by decide, fun h => ?_⟩
  have hlast := h _ _ List.prefix_rfl rfl
  exact not_bound_none oneByOne (hlast.windows none (by decide))

end FakeLibc.WaylandSetup

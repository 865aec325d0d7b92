import FakeLibc.ThreadHandshake

namespace FakeLibc.ThreadResult

open FakeLibc.Lib.Run FakeLibc.ThreadStart

/-- `results` has what the start routine of each call returned, if it did. -/
structure Run where
  s : State
  results : Nat → Option Nat

def start (mem : Nat → Container) : Run := ⟨init mem, fun _ => none⟩

def recorded (results : Nat → Option Nat) : Action → Nat → Option Nat
  | .routineReturn c result => Function.update results c (some result)
  | _ => results

def step (r : Run) (a : Action) : Option Run :=
  (ThreadStart.step r.s a).map (fun s => ⟨s, recorded r.results a⟩)

/-- What joining the thread of a call delivers, once the thread has ended. The
exported `pthread_join` is the library's own. -/
def pthreadJoin (s : State) (c : Nat) : Option Nat := do
  let call ← s.calls c
  let ch ← call.child
  match ch.pc with
  | .ended result => some result
  | _ => none

/-- Whoever joins a thread whose start routine returned gets its result. -/
def Delivered (r : Run) : Prop :=
  ∀ c v w, r.results c = some v → pthreadJoin r.s c = some w → w = v

/-- The same action, with what the register of the result holds when
`my_start_routine` leaves it unset. -/
def leftover (junk : Nat → Nat) : Action → Action
  | .leave c _ => .leave c (junk c)
  | a => a

/-- No thread ends because its start routine returned: only `pthread_exit` ends one. -/
def Exits : Action → Prop
  | .leave .. => False
  | _ => True

instance : (a : Action) → Decidable (Exits a)
  | .leave .. => .isFalse not_false
  | .enter .. | .parent _ | .create .. | .child _ | .routineReturn .. | .pthreadExit ..
  | .reuse .. => .isTrue trivial

theorem leftover_of_exits {a : Action} (h : Exits a) (junk : Nat → Nat) : leftover junk a = a := by
  cases a with
  | leave c result => exact h.elim
  | _ => rfl

def after : ChildPc → Bool
  | .remtid _ | .leave => true
  | _ => false

def Recorded (r : Run) : Prop :=
  ∀ c, (r.results c).isSome ↔
    ∃ call ch, r.s.calls c = some call ∧ call.child = some ch ∧ after ch.pc = true

theorem Recorded.delivered {r : Run} (h : Recorded r) : Delivered r := by
  intro c v w hv hw
  obtain ⟨call, ch, hc, hch, hafter⟩ := (h c).mp (by rw [hv]; rfl)
  simp only [pthreadJoin, hc, hch, Option.bind_eq_bind, Option.bind_some] at hw
  cases hpc : ch.pc with
  | ended result =>
    rw [hpc] at hafter
    cases hafter
  | _ => simp [hpc] at hw

section Step

variable {r : Run} {s' : State} {c : Nat} {call : Call} {ch : Child}

theorem recorded_update (h : Recorded r) {call' : Call} {results' : Nat → Option Nat}
    (hcalls : s'.calls = Function.update r.s.calls c (some call'))
    (hresults : ∀ d ≠ c, results' d = r.results d)
    (hc : (results' c).isSome ↔ ∃ ch', call'.child = some ch' ∧ after ch'.pc = true) :
    Recorded ⟨s', results'⟩ := by
  intro d
  by_cases hdc : d = c
  · subst d
    simp only [hcalls, Function.update_self, Option.some.injEq, exists_and_left, exists_eq_left']
    exact hc
  · simp only [hcalls, Function.update_of_ne hdc]
    rw [hresults d hdc]
    exact h d

theorem Recorded.iff (h : Recorded r) (hc : r.s.calls c = some call) :
    (r.results c).isSome ↔ ∃ ch, call.child = some ch ∧ after ch.pc = true := by
  rw [h c]
  simp [hc]

theorem recorded_setChild (h : Recorded r) {ch' : Child} (hc : r.s.calls c = some call)
    (hch : call.child = some ch)
    (hcalls : s'.calls = Function.update r.s.calls c (some { call with child := some ch' }))
    (hafter : after ch'.pc = after ch.pc) : Recorded ⟨s', r.results⟩ := by
  refine recorded_update h hcalls (fun _ _ => rfl) ?_
  rw [h.iff hc]
  simp [hch, hafter]

theorem recorded_childStep (h : Recorded r) (hs : childStep r.s c = some s') :
    Recorded ⟨s', r.results⟩ := by
  obtain ⟨call, hc, hs⟩ := Option.bind_eq_some_iff.mp hs
  obtain ⟨ch, hch, hs⟩ := Option.bind_eq_some_iff.mp hs
  cases hpc : ch.pc with
  | load0 | load1 | self | settid | clear | start | remtid =>
    simp only [hpc, Option.some.injEq] at hs
    subst s'
    refine recorded_setChild h hc hch rfl ?_
    rw [hpc]
    rfl
  | running | leave | ended => simp [hpc] at hs

theorem recorded_enter (h : Recorded r) {con routine arg : Nat} {attr : Option Nat}
    (hs : enter r.s c con routine arg attr = some s') : Recorded ⟨s', r.results⟩ := by
  rw [enter, Option.ite_none_right_eq_some, Option.some.injEq] at hs
  obtain ⟨⟨hnone, _⟩, rfl⟩ := hs
  refine recorded_update h rfl (fun _ _ => rfl) ?_
  rw [h c]
  simp [hnone]

theorem recorded_parentStep (h : Recorded r) (hs : parentStep r.s c = some s') :
    Recorded ⟨s', r.results⟩ := by
  obtain ⟨call, hc, ⟨rfl, _⟩ | ⟨p, _, _, hcalls, _⟩⟩ := parentStep_inv hs
  · exact h
  · have hsame := h.iff hc
    exact recorded_update h hcalls (fun _ _ => rfl) hsame

theorem recorded_createStep (h : Recorded r) (hok : ThreadHandshake.Inv r.s) {outcome : Outcome}
    (hs : createStep r.s c outcome = some s') : Recorded ⟨s', r.results⟩ := by
  obtain ⟨call, hc, hp, hs⟩ := createStep_inv hs
  have hcall := hok.callOk c call hc
  simp only [ThreadHandshake.CallOk, hp] at hcall
  have hnone : ¬ (r.results c).isSome := by
    rw [h.iff hc]
    simp [hcall.1]
  obtain ⟨_, _, _, _, _, rfl⟩ | ⟨_, _, _, rfl⟩ := hs
  · exact recorded_update h rfl (fun _ _ => rfl) (iff_of_false hnone (by simp [after]))
  · exact recorded_update h rfl (fun _ _ => rfl) (iff_of_false hnone (by simp [hcall.1]))

theorem recorded_routineReturn (h : Recorded r) {result : Nat}
    (hs : routineReturn r.s c = some s') :
    Recorded ⟨s', Function.update r.results c (some result)⟩ := by
  obtain ⟨call, ch, thread, hc, hch, hpc, rfl⟩ := routineReturn_inv hs
  refine recorded_update h rfl (fun d hd => Function.update_of_ne hd _ r.results) ?_
  simp [after]

theorem recorded_pthreadExit (h : Recorded r) {result : Nat}
    (hs : pthreadExit r.s c result = some s') : Recorded ⟨s', r.results⟩ := by
  obtain ⟨call, ch, thread, hc, hch, hpc, rfl⟩ := pthreadExit_inv hs
  refine recorded_setChild h hc hch rfl ?_
  rw [hpc]
  rfl

/-- A thread that gets to the end can leave any value behind. -/
theorem not_delivered_leave (h : Recorded r) {junk : Nat} (hs : leave r.s c junk = some s') :
    ∃ v u, r.results c = some v ∧ leave r.s c (v + 1) = some u ∧ ¬ Delivered ⟨u, r.results⟩ := by
  obtain ⟨call, ch, hc, hch, hpc, _⟩ := leave_inv hs
  have hsome : (r.results c).isSome := (h.iff hc).mpr ⟨ch, hch, by rw [hpc]; rfl⟩
  obtain ⟨v, hv⟩ := Option.isSome_iff_exists.mp hsome
  refine ⟨v, r.s.endThread c call ch (v + 1), hv, ?_, fun hd => ?_⟩
  · simp [leave, hc, hch, hpc]
  · have hjoin : pthreadJoin (r.s.endThread c call ch (v + 1)) c = some (v + 1) := by
      simp [pthreadJoin, State.endThread, State.setChild, State.setCall]
    exact absurd (hd c v (v + 1) hv hjoin) (Nat.succ_ne_self v)

end Step

structure Sound (r : Run) : Prop where
  inv : ThreadHandshake.Inv r.s
  recorded : Recorded r

theorem sound_start (mem : Nat → Container) : Sound (start mem) := by
  refine ⟨ThreadHandshake.inv_init mem, fun c => ?_⟩
  simp [start, init]

theorem sound_step {r t : Run} {a : Action} (hr : Sound r) (ha : Exits a)
    (h : step r a = some t) : Sound t := by
  obtain ⟨s, hs, rfl⟩ := Option.map_eq_some_iff.mp h
  refine ⟨ThreadHandshake.inv_step r.s a s hr.inv hs, ?_⟩
  cases a with
  | enter c con startRoutine arg attr => exact recorded_enter hr.recorded hs
  | parent c => exact recorded_parentStep hr.recorded hs
  | create c outcome => exact recorded_createStep hr.recorded hr.inv hs
  | child c => exact recorded_childStep hr.recorded hs
  | routineReturn c result => exact recorded_routineReturn hr.recorded hs
  | pthreadExit c result => exact recorded_pthreadExit hr.recorded hs
  | leave c junk => exact ha.elim
  | reuse con k =>
    obtain ⟨_, hs⟩ := Option.ite_none_right_eq_some.mp hs
    obtain rfl := Option.some.inj hs
    exact hr.recorded

theorem exits_of_delivered {r : Run} {as : List Action} (hr : Sound r)
    (hrun : (exec step r as).isSome)
    (h : ∀ junk, Always step Delivered r (as.map (leftover junk))) : ∀ a ∈ as, Exits a := by
  induction as generalizing r with
  | nil => exact fun a ha => absurd ha List.not_mem_nil
  | cons a as ih =>
    obtain ⟨t, ht⟩ := Option.isSome_iff_exists.mp (isSome_of_isPrefix
      (List.cons_prefix_cons.mpr ⟨rfl, List.nil_prefix⟩ : [a] <+: a :: as) hrun)
    replace ht : step r a = some t := by simpa using ht
    have ha : Exits a := by
      by_contra hexits
      cases a with
      | leave c junk =>
        obtain ⟨s, hs, _⟩ := Option.map_eq_some_iff.mp ht
        obtain ⟨v, u, hv, hu, hbad⟩ := not_delivered_leave hr.recorded hs
        have hstep : step r (.leave c (v + 1)) = some ⟨u, r.results⟩ :=
          Option.map_eq_some_iff.mpr ⟨u, hu, rfl⟩
        have hnext := ((always_cons _ _ _ _).mp (h fun _ => v + 1)).2 _ hstep
        exact hbad (hnext [] _ List.nil_prefix rfl)
      | _ => exact hexits trivial
    have hall : ∀ junk, Always step Delivered t (as.map (leftover junk)) := by
      intro junk
      have hcons := h junk
      rw [List.map_cons, leftover_of_exits ha] at hcons
      exact ((always_cons _ _ _ _).mp hcons).2 t ht
    have hrest : (exec step t as).isSome := by simpa [ht] using hrun
    intro b hb
    obtain rfl | hb := List.mem_cons.mp hb
    · exact ha
    · exact ih (sound_step hr ha ht) hrest hall b hb

/-- Whatever the register holds, the result of a start routine reaches whoever
joins the thread precisely when no thread ends by returning from it. -/
theorem delivered_iff_exits (mem : Nat → Container) (as : List Action)
    (hrun : (exec step (start mem) as).isSome) :
    (∀ junk, Always step Delivered (start mem) (as.map (leftover junk))) ↔ ∀ a ∈ as, Exits a := by
  refine ⟨exits_of_delivered (sound_start mem) hrun, fun h junk => ?_⟩
  have hsame : as.map (leftover junk) = as := by
    conv_rhs => rw [← List.map_id as]
    exact List.map_congr_left (fun a ha => leftover_of_exits (h a ha) junk)
  have hg : Guarded step (fun _ => Exits) (start mem) as := by
    intro pre a t hpre _
    exact h a (hpre.subset (List.mem_append_right _ (List.mem_singleton_self a)))
  rw [hsame]
  exact (always_of_guarded (fun _ _ _ hr ha h => sound_step hr ha h) (sound_start mem) hg).mono
    (fun _ hr => hr.recorded.delivered)

def created : List Action :=
  [.enter 0 100 7 8 none, .parent 0, .parent 0, .parent 0, .create 0 (.started 70 71), .child 0,
    .child 0, .child 0, .child 0, .child 0, .parent 0, .child 0]

theorem delivered_iff_exits_pthreadExit :
    (∀ junk, Always step Delivered (start fun _ => ⟨0, 0, 0⟩)
        ((created ++ [Action.pthreadExit 0 42]).map (leftover junk))) ↔
      ∀ a ∈ created ++ [Action.pthreadExit 0 42], Exits a :=
  delivered_iff_exits _ _ (by decide)

def returns42 (junk : Nat) : List Action :=
  created ++ [.routineReturn 0 42, .child 0, .leave 0 junk]

theorem not_delivered_returns42 :
    (exec step (start fun _ => ⟨0, 0, 0⟩) (returns42 0)).isSome ∧
      ¬ Always step Delivered (start fun _ => ⟨0, 0, 0⟩) (returns42 0) := by
  refine ⟨by decide, fun h => ?_⟩
  exact absurd (h _ _ List.prefix_rfl rfl 0 42 0 rfl rfl) (by decide)

end FakeLibc.ThreadResult

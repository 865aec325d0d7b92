import FakeLibc.ThreadStart

namespace FakeLibc.ThreadHandshake

open FakeLibc.Lib.Run FakeLibc.ThreadTable FakeLibc.ThreadStart

def Pending : ChildPc → Prop
  | .load0 | .load1 _ | .self _ _ | .settid _ _ _ _ | .clear _ _ _ => True
  | _ => False

def Unregistered : ChildPc → Prop
  | .load0 | .load1 _ | .self _ _ | .settid _ _ _ _ => True
  | _ => False

def Accesses : ChildPc → Prop
  | .load0 | .load1 _ | .clear _ _ _ => True
  | _ => False

def Started : ChildPc → Prop
  | .running _ | .remtid _ | .leave | .ended _ => True
  | _ => False

def Returned : ParentPc → Prop
  | .returned _ => True
  | _ => False

instance (pc : ChildPc) : Decidable (Pending pc) := by
  cases pc <;> simp only [Pending] <;> infer_instance

instance (pc : ChildPc) : Decidable (Started pc) := by
  cases pc <;> simp only [Started] <;> infer_instance

/-- The child's locals are those of the call that passed it `con`, and the
record of what it has done fits its place in the code. -/
structure ChildOk (con routine arg : Nat) (ch : Child) : Prop where
  con_eq : ch.con = con
  locals : match ch.pc with
    | .load1 r => r = routine
    | .self r a => r = routine ∧ a = arg
    | .settid r a t pid => r = routine ∧ a = arg ∧ t = ch.thread ∧ pid = ch.tid
    | .clear r a t | .start r a t => r = routine ∧ a = arg ∧ t = ch.thread
    | .running t | .remtid t => t = ch.thread
    | .load0 | .leave | .ended _ => True
  registered : Unregistered ch.pc ∨ ch.registered = true
  invoked : ch.invoked = if Started ch.pc then [(routine, arg)] else []

/-- What a call knows of its container and its child at each place. -/
def CallOk (k : Container) (call : Call) : Prop :=
  match call.parent with
  | .store0 => call.child = none
  | .store1 => call.child = none ∧ k.routine = call.startRoutine
  | .store2 => call.child = none ∧ k.routine = call.startRoutine ∧ k.arg = call.arg
  | .create =>
    call.child = none ∧ k.routine = call.startRoutine ∧ k.arg = call.arg ∧ k.flag = 1
  | .wait ret =>
    k.routine = call.startRoutine ∧ k.arg = call.arg ∧
      match call.child with
      | none => k.flag = 1 ∧ ret ≠ 0
      | some ch =>
        ChildOk call.con call.startRoutine call.arg ch ∧ ret = 0 ∧ (k.flag = 1 ↔ Pending ch.pc)
  | .returned _ =>
    ∃ ch, call.child = some ch ∧ ChildOk call.con call.startRoutine call.arg ch ∧ ¬ Pending ch.pc

structure Inv (s : State) : Prop where
  owner_iff : ∀ a c, s.owner a = some c ↔
    ∃ call, s.calls c = some call ∧ call.con = a ∧ ¬ Returned call.parent
  callOk : ∀ c call, s.calls c = some call → CallOk (s.mem call.con) call

theorem callOk_returned {k k' : Container} {call : Call} (hr : Returned call.parent)
    (h : CallOk k call) : CallOk k' call := by
  unfold CallOk at *
  cases hp : call.parent <;> simp_all [Returned]

/-- A step of one call keeps the invariant if it writes no memory but the
call's own and leaves the call itself in order. -/
theorem inv_of_frame {s s' : State} {c : Nat} {call' : Call} (hs : Inv s)
    (hcalls : s'.calls = Function.update s.calls c (some call'))
    (hmem : ∀ a, s.owner a ≠ some c → s'.mem a = s.mem a)
    (howner : ∀ a d, s'.owner a = some d ↔
      ∃ call, s'.calls d = some call ∧ call.con = a ∧ ¬ Returned call.parent)
    (hok : CallOk (s'.mem call'.con) call') : Inv s' := by
  refine ⟨howner, fun d call hd => ?_⟩
  by_cases hdc : d = c
  · subst d
    rw [hcalls, Function.update_self, Option.some.injEq] at hd
    exact hd ▸ hok
  · rw [hcalls, Function.update_of_ne hdc] at hd
    have hcall := hs.callOk d call hd
    by_cases hr : Returned call.parent
    · exact callOk_returned hr hcall
    · have hown := (hs.owner_iff call.con d).mpr ⟨call, hd, rfl, hr⟩
      have hne : s.owner call.con ≠ some c := by
        rw [hown]
        exact fun h => hdc (Option.some.inj h)
      rwa [hmem call.con hne]

/-- The same for a step that also leaves its frame in place. -/
theorem inv_of_update {s s' : State} {c : Nat} {call call' : Call} (hs : Inv s)
    (hc : s.calls c = some call)
    (hcalls : s'.calls = Function.update s.calls c (some call'))
    (hmem : ∀ a, s.owner a ≠ some c → s'.mem a = s.mem a) (howner : s'.owner = s.owner)
    (hcon : call'.con = call.con) (hret : Returned call'.parent ↔ Returned call.parent)
    (hok : CallOk (s'.mem call'.con) call') : Inv s' := by
  refine inv_of_frame hs hcalls hmem (fun a d => ?_) hok
  rw [howner, hs.owner_iff, hcalls]
  by_cases hd : d = c
  · subst d
    simp [hc, hcon, hret]
  · rw [Function.update_of_ne hd]

theorem setMem_frame {s : State} {c : Nat} {call : Call} (hs : Inv s)
    (hc : s.calls c = some call) (hr : ¬ Returned call.parent) (k : Container) (a : Nat)
    (ha : s.owner a ≠ some c) : Function.update s.mem call.con k a = s.mem a := by
  apply Function.update_of_ne
  intro h
  apply ha
  rw [h]
  exact (hs.owner_iff call.con c).mpr ⟨call, hc, rfl, hr⟩

theorem inv_enter {s s' : State} {c con r a : Nat} {attr : Option Nat} (hs : Inv s)
    (h : enter s c con r a attr = some s') : Inv s' := by
  rw [enter, Option.ite_none_right_eq_some, Option.some.injEq] at h
  obtain ⟨⟨hc, hcon⟩, rfl⟩ := h
  refine inv_of_frame hs rfl (fun _ _ => rfl) (fun b d => ?_) rfl
  simp only [State.setCall]
  by_cases hd : d = c <;> by_cases hb : b = con
  · subst d b
    simp [Returned]
  · subst d
    have hno : s.owner b ≠ some c := by
      intro hown
      obtain ⟨call, hcall, _⟩ := (hs.owner_iff b c).mp hown
      simp [hc] at hcall
    simp [hb, Ne.symm hb, hno]
  · subst b
    have hno := mt (hs.owner_iff con d).mpr (by rw [hcon]; exact Option.some_ne_none d ∘ Eq.symm)
    simp only [Function.update_self, Function.update_of_ne hd, Option.some.injEq, hno, iff_false]
    exact Ne.symm hd
  · rw [Function.update_of_ne hb, Function.update_of_ne hd]
    exact hs.owner_iff b d

theorem owner_return {s : State} {c : Nat} {call call' : Call} (hs : Inv s)
    (hc : s.calls c = some call) (hr : ¬ Returned call.parent) (hr' : Returned call'.parent)
    (a d : Nat) : Function.update s.owner call.con none a = some d ↔
      ∃ e, Function.update s.calls c (some call') d = some e ∧ e.con = a ∧ ¬ Returned e.parent := by
  have hown := (hs.owner_iff call.con c).mpr ⟨call, hc, rfl, hr⟩
  by_cases hd : d = c
  · subst d
    simp only [Function.update_self, Option.some.injEq, exists_eq_left', hr', not_true_eq_false,
      and_false, iff_false]
    by_cases ha : a = call.con
    · simp [ha]
    · rw [Function.update_of_ne ha]
      intro h
      obtain ⟨e, he, hcon, _⟩ := (hs.owner_iff a c).mp h
      rw [hc, Option.some.injEq] at he
      exact ha (he ▸ hcon.symm)
  · rw [Function.update_of_ne hd, ← hs.owner_iff]
    by_cases ha : a = call.con
    · subst a
      rw [Function.update_self, hown]
      simp [Ne.symm hd]
    · rw [Function.update_of_ne ha]

theorem inv_parentStep {s s' : State} {c : Nat} (hs : Inv s)
    (h : parentStep s c = some s') : Inv s' := by
  obtain ⟨call, hc, h⟩ := Option.bind_eq_some_iff.mp h
  have hok := hs.callOk c call hc
  unfold CallOk at hok
  cases hp : call.parent with
  | store0 | store1 | store2 =>
    simp only [hp, Option.some.injEq] at h hok
    subst s'
    have hr : ¬ Returned call.parent := by simp [hp, Returned]
    refine inv_of_update hs hc rfl (setMem_frame hs hc hr _) rfl rfl (by simp [hp, Returned]) ?_
    simp_all [CallOk, State.setMem, State.setCall]
  | create | returned ret => simp [hp] at h
  | wait ret =>
    simp only [hp] at h hok
    by_cases hf : (s.mem call.con).flag = 1
    · rw [if_pos hf, Option.some.injEq] at h
      exact h ▸ hs
    · rw [if_neg hf, Option.some.injEq] at h
      subst s'
      have hr : ¬ Returned call.parent := by simp [hp, Returned]
      cases hch : call.child with
      | none => simp [hch, hf] at hok
      | some ch =>
        simp only [hch, hf, false_iff] at hok
        exact inv_of_frame hs rfl (fun _ _ => rfl) (owner_return hs hc hr trivial)
          ⟨ch, rfl, hok.2.2.1, hok.2.2.2.2⟩

theorem inv_createStep {s s' : State} {c : Nat} {outcome : Outcome} (hs : Inv s)
    (h : createStep s c outcome = some s') : Inv s' := by
  obtain ⟨call, hc, hp, hmade⟩ := createStep_inv h
  have hok := hs.callOk c call hc
  simp only [CallOk, hp] at hok
  obtain ⟨thread, tid, _, _, _, rfl⟩ | ⟨code, _, hcode, rfl⟩ := hmade
  · refine inv_of_update hs hc rfl (fun _ _ => rfl) rfl rfl (by simp [hp, Returned]) ?_
    refine ⟨hok.2.1, hok.2.2.1, ⟨rfl, trivial, .inl trivial, rfl⟩, rfl, ?_⟩
    exact iff_of_true hok.2.2.2 trivial
  · refine inv_of_update hs hc rfl (fun _ _ => rfl) rfl rfl (by simp [hp, Returned]) ?_
    refine ⟨hok.2.1, hok.2.2.1, ?_⟩
    simp only [State.setCall, hok.1]
    exact ⟨hok.2.2.2, hcode⟩

theorem callOk_child {k : Container} {call : Call} {ch : Child} (h : CallOk k call)
    (hch : call.child = some ch) :
    ChildOk call.con call.startRoutine call.arg ch ∧
      ((call.parent = .wait 0 ∧ k.routine = call.startRoutine ∧ k.arg = call.arg ∧
        (k.flag = 1 ↔ Pending ch.pc)) ∨ (Returned call.parent ∧ ¬ Pending ch.pc)) := by
  unfold CallOk at h
  cases hp : call.parent with
  | store0 | store1 | store2 | create => simp [hp, hch] at h
  | wait ret =>
    simp only [hp, hch] at h
    obtain ⟨hr, ha, hok, rfl, hflag⟩ := h
    exact ⟨hok, .inl ⟨rfl, hr, ha, hflag⟩⟩
  | returned ret =>
    simp only [hp, hch] at h
    obtain ⟨ch', he, hok, hpend⟩ := h
    obtain rfl := Option.some.inj he
    exact ⟨hok, .inr ⟨trivial, hpend⟩⟩

theorem callOk_setChild {k : Container} {call : Call} {ch ch' : Child} (h : CallOk k call)
    (hch : call.child = some ch) (hok : ChildOk call.con call.startRoutine call.arg ch')
    (hpend : Pending ch'.pc ↔ Pending ch.pc) : CallOk k { call with child := some ch' } := by
  obtain ⟨_, ⟨hp, hr, ha, hflag⟩ | ⟨hp, hno⟩⟩ := callOk_child h hch
  · simp only [CallOk, hp]
    exact ⟨hr, ha, hok, trivial, hflag.trans hpend.symm⟩
  · unfold CallOk
    cases hpc : call.parent with
    | store0 | store1 | store2 | create | wait => simp [hpc, Returned] at hp
    | returned ret => exact ⟨ch', rfl, hok, mt hpend.mp hno⟩

theorem inv_setChild {s s' : State} {c : Nat} {call : Call} {ch ch' : Child} (hs : Inv s)
    (hc : s.calls c = some call) (hch : call.child = some ch)
    (hcalls : s'.calls = Function.update s.calls c (some { call with child := some ch' }))
    (hmem : s'.mem = s.mem) (howner : s'.owner = s.owner)
    (hok : ChildOk call.con call.startRoutine call.arg ch')
    (hpend : Pending ch'.pc ↔ Pending ch.pc) : Inv s' := by
  apply inv_of_update hs hc hcalls (fun a _ => congrFun hmem a) howner rfl Iff.rfl
  rw [hmem]
  exact callOk_setChild (hs.callOk c call hc) hch hok hpend

theorem inv_childStep {s s' : State} {c : Nat} (hs : Inv s)
    (h : childStep s c = some s') : Inv s' := by
  obtain ⟨call, hc, h⟩ := Option.bind_eq_some_iff.mp h
  obtain ⟨ch, hch, h⟩ := Option.bind_eq_some_iff.mp h
  have hok := hs.callOk c call hc
  obtain ⟨hchild, hplace⟩ := callOk_child hok hch
  have ⟨hcon, hlocals, hreg, hinv⟩ := hchild
  cases hpc : ch.pc with
  | load0 =>
    simp only [hpc, Option.some.injEq] at h hlocals hreg hinv hplace
    subst s'
    obtain ⟨_, hr, _, _⟩ | ⟨_, hno⟩ := hplace
    · refine inv_setChild hs hc hch rfl rfl rfl ⟨hcon, ?_, .inl trivial, hinv⟩
        (by simp [hpc, Pending])
      exact hcon ▸ hr
    · exact absurd trivial hno
  | load1 r =>
    simp only [hpc, Option.some.injEq] at h hlocals hreg hinv hplace
    subst s'
    obtain ⟨_, _, ha, _⟩ | ⟨_, hno⟩ := hplace
    · refine inv_setChild hs hc hch rfl rfl rfl ⟨hcon, ⟨hlocals, ?_⟩, .inl trivial, hinv⟩
        (by simp [hpc, Pending])
      exact hcon ▸ ha
    · exact absurd trivial hno
  | self r a =>
    simp only [hpc, Option.some.injEq] at h hlocals hreg hinv
    subst s'
    exact inv_setChild hs hc hch rfl rfl rfl
      ⟨hcon, ⟨hlocals.1, hlocals.2, rfl, rfl⟩, .inl trivial, hinv⟩ (by simp [hpc, Pending])
  | settid r a t pid =>
    simp only [hpc, Option.some.injEq] at h hlocals hreg hinv
    subst s'
    exact inv_setChild hs hc hch rfl rfl rfl
      ⟨hcon, ⟨hlocals.1, hlocals.2.1, hlocals.2.2.1⟩, .inr rfl, hinv⟩ (by simp [hpc, Pending])
  | clear r a t =>
    simp only [hpc, Option.some.injEq] at h hlocals hreg hinv hplace
    subst s'
    have hreg := hreg.resolve_left id
    obtain ⟨hp, hr, ha, _⟩ | ⟨_, hno⟩ := hplace
    · have hwait : ¬ Returned call.parent := by simp [hp, Returned]
      have hframe := setMem_frame hs hc hwait { s.mem ch.con with flag := 0 }
      rw [hcon] at hframe ⊢
      refine inv_of_update hs hc rfl hframe rfl rfl Iff.rfl ?_
      simp only [CallOk, hp, State.setChild, State.setCall, State.setMem, Function.update_self]
      exact ⟨hr, ha, ⟨rfl, hlocals, .inr hreg, hinv⟩, trivial, by simp [Pending]⟩
    · exact absurd trivial hno
  | start r a t =>
    simp only [hpc, Option.some.injEq] at h hlocals hreg hinv
    subst s'
    refine inv_setChild hs hc hch rfl rfl rfl
      ⟨hcon, hlocals.2.2, .inr (hreg.resolve_left id), ?_⟩ (by simp [hpc, Pending])
    simp [hinv, hlocals.1, hlocals.2.1, Started]
  | remtid t =>
    simp only [hpc, Option.some.injEq] at h hlocals hreg hinv
    subst s'
    exact inv_setChild hs hc hch rfl rfl rfl ⟨hcon, trivial, hreg, hinv⟩ (by simp [hpc, Pending])
  | running | leave | ended => simp [hpc] at h

theorem inv_routineReturn {s s' : State} {c : Nat} (hs : Inv s)
    (h : routineReturn s c = some s') : Inv s' := by
  obtain ⟨call, ch, thread, hc, hch, hpc, rfl⟩ := routineReturn_inv h
  obtain ⟨⟨hcon, hlocals, hreg, hinv⟩, _⟩ := callOk_child (hs.callOk c call hc) hch
  rw [hpc] at hlocals hreg hinv
  exact inv_setChild hs hc hch rfl rfl rfl ⟨hcon, hlocals, hreg, hinv⟩ (by simp [hpc, Pending])

theorem inv_endThread {s : State} {c result : Nat} {call : Call} {ch : Child} (hs : Inv s)
    (hc : s.calls c = some call) (hch : call.child = some ch) (hst : Started ch.pc) :
    Inv (s.endThread c call ch result) := by
  obtain ⟨⟨hcon, _, hreg, hinv⟩, _⟩ := callOk_child (hs.callOk c call hc) hch
  have hno : ¬ Pending ch.pc ∧ ¬ Unregistered ch.pc := by
    cases hpc : ch.pc <;> simp_all [Pending, Unregistered, Started]
  rw [if_pos hst] at hinv
  exact inv_setChild hs hc hch rfl rfl rfl
    ⟨hcon, trivial, .inr (hreg.resolve_left hno.2), hinv⟩ (iff_of_false id hno.1)

theorem inv_pthreadExit {s s' : State} {c result : Nat} (hs : Inv s)
    (h : pthreadExit s c result = some s') : Inv s' := by
  obtain ⟨call, ch, thread, hc, hch, hpc, rfl⟩ := pthreadExit_inv h
  exact inv_endThread hs hc hch (by simp [hpc, Started])

theorem inv_leave {s s' : State} {c junk : Nat} (hs : Inv s)
    (h : leave s c junk = some s') : Inv s' := by
  obtain ⟨call, ch, hc, hch, hpc, rfl⟩ := leave_inv h
  exact inv_endThread hs hc hch (by simp [hpc, Started])

theorem inv_reuse {s : State} {con : Nat} (k : Container) (hs : Inv s)
    (hfree : s.owner con = none) : Inv (s.setMem con k) := by
  refine ⟨hs.owner_iff, fun c call hc => ?_⟩
  have hok := hs.callOk c call hc
  by_cases hr : Returned call.parent
  · exact callOk_returned hr hok
  · have hown := (hs.owner_iff call.con c).mpr ⟨call, hc, rfl, hr⟩
    have hne : call.con ≠ con := by
      rintro rfl
      rw [hfree] at hown
      exact Option.some_ne_none c hown.symm
    simpa only [State.setMem, Function.update_of_ne hne] using hok

theorem inv_step (s : State) (a : Action) (s' : State) (hs : Inv s)
    (h : step s a = some s') : Inv s' := by
  cases a with
  | enter c con startRoutine arg attr => exact inv_enter hs h
  | parent c => exact inv_parentStep hs h
  | create c outcome => exact inv_createStep hs h
  | child c => exact inv_childStep hs h
  | routineReturn c result => exact inv_routineReturn hs h
  | pthreadExit c result => exact inv_pthreadExit hs h
  | leave c junk => exact inv_leave hs h
  | reuse con k =>
    obtain ⟨hfree, h⟩ := Option.ite_none_right_eq_some.mp h
    exact Option.some.inj h ▸ inv_reuse k hs hfree

theorem inv_init (mem : Nat → Container) : Inv (init mem) := by
  refine ⟨fun a c => ?_, fun c call hc => ?_⟩
  · simp [init]
  · exact (Option.some_ne_none call hc.symm).elim

def stepsToStart : ChildPc → Nat
  | .load0 => 6
  | .load1 _ => 5
  | .self _ _ => 4
  | .settid _ _ _ _ => 3
  | .clear _ _ _ => 2
  | .start _ _ _ => 1
  | .running _ | .remtid _ | .leave | .ended _ => 0

theorem child_advances {s : State} {c : Nat} {call : Call} {ch : Child}
    (hc : s.calls c = some call) (hch : call.child = some ch) (hst : ¬ Started ch.pc) :
    ∃ t ch', step s (.child c) = some t ∧ t.calls c = some { call with child := some ch' } ∧
      stepsToStart ch'.pc < stepsToStart ch.pc := by
  simp only [step, childStep, hc, hch, Option.bind_eq_bind, Option.bind_some]
  cases hpc : ch.pc with
  | load0 | load1 | self | settid | clear | start =>
    refine ⟨_, _, rfl, Function.update_self c _ s.calls, ?_⟩
    simp [stepsToStart]
  | running | remtid | leave | ended => simp [hpc, Started] at hst

theorem child_starts {s : State} {c : Nat} {call : Call} {ch : Child}
    (hc : s.calls c = some call) (hch : call.child = some ch) :
    ∃ as t ch', exec step s as = some t ∧ t.calls c = some { call with child := some ch' } ∧
      Started ch'.pc := by
  induction hn : stepsToStart ch.pc using Nat.strong_induction_on generalizing s call ch with
  | _ n ih =>
    by_cases hst : Started ch.pc
    · refine ⟨[], s, ch, rfl, ?_, hst⟩
      rw [hc, ← hch]
    · obtain ⟨t, ch', ht, hc', hlt⟩ := child_advances hc hch hst
      obtain ⟨as, u, ch'', hu, hc'', hst'⟩ := ih _ (hn ▸ hlt) hc' rfl rfl
      refine ⟨.child c :: as, u, ch'', ?_, hc'', hst'⟩
      rw [exec_cons, ht, Option.bind_some, hu]

theorem inv_exec {s t : State} {as : List Action} (hs : Inv s) (h : exec step s as = some t) :
    Inv t :=
  always_of_step inv_step hs as as t List.prefix_rfl h

/-- A child about to use its container finds it in the frame of its own call,
which has not returned. -/
def AccessesOwned (s : State) : Prop :=
  ∀ c call ch, s.calls c = some call → call.child = some ch → Accesses ch.pc →
    ch.con = call.con ∧ s.owner ch.con = some c ∧ ¬ Returned call.parent

/-- Each child has made the one call it was created for once it has started,
no call before, and it can always get there. -/
def StartsOnce (s : State) : Prop :=
  ∀ c call ch, s.calls c = some call → call.child = some ch →
    (ch.invoked = if Started ch.pc then [(call.startRoutine, call.arg)] else []) ∧
    ∃ as t ch', exec step s as = some t ∧ t.calls c = some { call with child := some ch' } ∧
      ch'.invoked = [(call.startRoutine, call.arg)]

/-- A thread is registered before its creation returns and before it calls its
start routine. -/
def RegisteredFirst (s : State) : Prop :=
  ∀ c call, s.calls c = some call →
    (Returned call.parent → ∃ ch, call.child = some ch ∧ ch.registered = true) ∧
    ∀ ch, call.child = some ch → ch.invoked ≠ [] → ch.registered = true

theorem Pending.of_accesses {pc : ChildPc} (h : Accesses pc) : Pending pc := by
  cases pc <;> first | exact trivial | exact h.elim

theorem Pending.of_unregistered {pc : ChildPc} (h : Unregistered pc) : Pending pc := by
  cases pc <;> first | exact trivial | exact h.elim

theorem Started.not_pending {pc : ChildPc} (h : Started pc) : ¬ Pending pc := by
  cases pc <;> first | exact id | exact h.elim

theorem Inv.accessesOwned {s : State} (hs : Inv s) : AccessesOwned s := by
  intro c call ch hc hch hacc
  obtain ⟨hok, ⟨hwait, _⟩ | ⟨_, hno⟩⟩ := callOk_child (hs.callOk c call hc) hch
  · have hr : ¬ Returned call.parent := by simp [hwait, Returned]
    refine ⟨hok.con_eq, ?_, hr⟩
    exact (hs.owner_iff ch.con c).mpr ⟨call, hc, hok.con_eq.symm, hr⟩
  · exact absurd (.of_accesses hacc) hno

theorem Inv.startsOnce {s : State} (hs : Inv s) : StartsOnce s := by
  intro c call ch hc hch
  refine ⟨(callOk_child (hs.callOk c call hc) hch).1.invoked, ?_⟩
  obtain ⟨as, t, ch', ht, hc', hst⟩ := child_starts hc hch
  have hok := callOk_child ((inv_exec hs ht).callOk c _ hc') rfl
  refine ⟨as, t, ch', ht, hc', ?_⟩
  rw [hok.1.invoked, if_pos hst]

theorem Inv.registeredFirst {s : State} (hs : Inv s) : RegisteredFirst s := by
  intro c call hc
  have hok := hs.callOk c call hc
  refine ⟨fun hr => ?_, fun ch hch hinv => ?_⟩
  · unfold CallOk at hok
    cases hp : call.parent with
    | returned ret =>
      simp only [hp] at hok
      obtain ⟨ch, hch, hch', hno⟩ := hok
      exact ⟨ch, hch, hch'.registered.resolve_left (mt .of_unregistered hno)⟩
    | store0 | store1 | store2 | create | wait => simp [hp, Returned] at hr
  · obtain ⟨hch', _⟩ := callOk_child hok hch
    by_cases hst : Started ch.pc
    · exact hch'.registered.resolve_left (mt .of_unregistered hst.not_pending)
    · rw [hch'.invoked, if_neg hst] at hinv
      exact absurd rfl hinv

/-- The handshake, for any number of concurrent calls and any interleaving. -/
theorem always_handshake (mem : Nat → Container) (as : List Action) :
    Always step (fun s => AccessesOwned s ∧ StartsOnce s ∧ RegisteredFirst s) (init mem) as :=
  (always_of_step inv_step (inv_init mem) as).mono
    (fun _ hs => ⟨hs.accessesOwned, hs.startsOnce, hs.registeredFirst⟩)

end FakeLibc.ThreadHandshake

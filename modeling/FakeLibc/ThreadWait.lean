import FakeLibc.ThreadHandshake

namespace FakeLibc.ThreadWait

open FakeLibc.Lib.Run FakeLibc.ThreadStart FakeLibc.ThreadHandshake

variable {s t : State} {c : Nat}

def ChildMoved (s t : State) (c : Nat) : Prop :=
  ∃ call ch ch', s.calls c = some call ∧ call.child = some ch ∧
    t.calls = Function.update s.calls c (some { call with child := some ch' })

theorem childStep_moved (h : childStep s c = some t) : ChildMoved s t c := by
  obtain ⟨call, hc, h⟩ := Option.bind_eq_some_iff.mp h
  obtain ⟨ch, hch, h⟩ := Option.bind_eq_some_iff.mp h
  refine ⟨call, ch, ?_⟩
  cases hpc : ch.pc with
  | running | leave | ended => simp [hpc] at h
  | load0 | load1 | self | settid | clear | start | remtid =>
    simp only [hpc, Option.some.injEq] at h
    subst t
    exact ⟨_, hc, hch, rfl⟩

theorem routineReturn_moved (h : routineReturn s c = some t) : ChildMoved s t c := by
  obtain ⟨call, ch, thread, hc, hch, _, rfl⟩ := routineReturn_inv h
  exact ⟨call, ch, _, hc, hch, rfl⟩

theorem pthreadExit_moved {result : Nat} (h : pthreadExit s c result = some t) :
    ChildMoved s t c := by
  obtain ⟨call, ch, thread, hc, hch, _, rfl⟩ := pthreadExit_inv h
  exact ⟨call, ch, _, hc, hch, rfl⟩

theorem leave_moved {junk : Nat} (h : leave s c junk = some t) : ChildMoved s t c := by
  obtain ⟨call, ch, hc, hch, _, rfl⟩ := leave_inv h
  exact ⟨call, ch, _, hc, hch, rfl⟩

/-- Whenever a parent is in its loop with the flag set, a child is on its way
to clear it. -/
def NeverWaitsInVain (s : State) : Prop :=
  ∀ c call ret, s.calls c = some call → call.parent = .wait ret → (s.mem call.con).flag = 1 →
    ∃ ch, call.child = some ch ∧ Pending ch.pc

/-- Whatever the underlying create returned, the wrapper can return it. -/
def ReturnsCode (s : State) : Prop :=
  ∀ c call ret, s.calls c = some call → call.parent = .wait ret →
    ∃ as t call', exec step s as = some t ∧ t.calls c = some call' ∧ call'.parent = .returned ret

/-- The underlying create, if this action is one, succeeds. -/
def Succeeds : Action → Prop
  | .create _ (.failed _) => False
  | _ => True

def NoneFailed (s : State) : Prop :=
  ∀ c call ret, s.calls c = some call → call.parent = .wait ret → ret = 0

theorem noneFailed_update {call' : Call} (hs : NoneFailed s)
    (hcalls : t.calls = Function.update s.calls c (some call'))
    (hp : ∀ ret, call'.parent = .wait ret → ret = 0) : NoneFailed t := by
  intro d call ret hd hwait
  rw [hcalls] at hd
  by_cases hdc : d = c
  · subst d
    rw [Function.update_self, Option.some.injEq] at hd
    exact hp ret (hd ▸ hwait)
  · rw [Function.update_of_ne hdc] at hd
    exact hs d call ret hd hwait

theorem noneFailed_moved (hs : NoneFailed s) (h : ChildMoved s t c) : NoneFailed t := by
  obtain ⟨call, ch, ch', hc, _, hcalls⟩ := h
  exact noneFailed_update hs hcalls (fun ret hp => hs c call ret hc hp)

theorem noneFailed_step {a : Action} (hs : NoneFailed s) (ha : Succeeds a)
    (h : step s a = some t) : NoneFailed t := by
  cases a with
  | enter c con startRoutine arg attr =>
    obtain ⟨_, h⟩ := Option.ite_none_right_eq_some.mp h
    exact noneFailed_update hs (by rw [← Option.some.inj h]; rfl) (by simp)
  | parent c =>
    obtain ⟨call, hc, ⟨rfl, _⟩ | ⟨p, hp, _, hcalls, _⟩⟩ := parentStep_inv h
    · exact hs
    · exact noneFailed_update hs hcalls (fun ret hret => absurd hret (hp ret))
  | create c outcome =>
    obtain ⟨call, hc, _, ⟨thread, tid, rfl, _, _, rfl⟩ | ⟨code, rfl, _⟩⟩ := createStep_inv h
    · exact noneFailed_update hs rfl (by simp)
    · exact ha.elim
  | child c => exact noneFailed_moved hs (childStep_moved h)
  | routineReturn c result => exact noneFailed_moved hs (routineReturn_moved h)
  | pthreadExit c result => exact noneFailed_moved hs (pthreadExit_moved h)
  | leave c junk => exact noneFailed_moved hs (leave_moved h)
  | reuse con k =>
    obtain ⟨_, h⟩ := Option.ite_none_right_eq_some.mp h
    exact Option.some.inj h ▸ hs

theorem Inv.child_of_wait (hs : Inv s) {call : Call} {ret : Int} (hc : s.calls c = some call)
    (hp : call.parent = .wait ret) : (∃ ch, call.child = some ch ∧ ret = 0 ∧
      ((s.mem call.con).flag = 1 ↔ Pending ch.pc)) ∨
    (call.child = none ∧ ret ≠ 0 ∧ (s.mem call.con).flag = 1) := by
  have hok := hs.callOk c call hc
  simp only [CallOk, hp] at hok
  cases hch : call.child with
  | none =>
    simp only [hch] at hok
    exact .inr ⟨rfl, hok.2.2.2, hok.2.2.1⟩
  | some ch =>
    simp only [hch] at hok
    exact .inl ⟨ch, rfl, hok.2.2.2⟩

theorem neverWaitsInVain_of_noneFailed (hs : Inv s) (hf : NoneFailed s) : NeverWaitsInVain s := by
  intro c call ret hc hp hflag
  obtain ⟨ch, hch, _, hiff⟩ | ⟨_, hret, _⟩ := Inv.child_of_wait hs hc hp
  · exact ⟨ch, hch, hiff.mp hflag⟩
  · exact absurd (hf c call ret hc hp) hret

theorem parent_returns {call : Call} {ret : Int} (hc : s.calls c = some call)
    (hp : call.parent = .wait ret) (hflag : (s.mem call.con).flag ≠ 1) :
    ∃ t, step s (.parent c) = some t ∧
      t.calls c = some { call with parent := .returned ret } := by
  simp only [step, parentStep, hc, hp, Option.bind_eq_bind, Option.bind_some, if_neg hflag]
  exact ⟨_, rfl, Function.update_self c _ s.calls⟩

theorem returnsCode_of_noneFailed (hs : Inv s) (hf : NoneFailed s) : ReturnsCode s := by
  intro c call ret hc hp
  obtain ⟨ch, hch, _, _⟩ | ⟨_, hret, _⟩ := Inv.child_of_wait hs hc hp
  · obtain ⟨as, t, ch', ht, hc', hst⟩ := child_starts hc hch
    have hflag : (t.mem call.con).flag ≠ 1 := by
      obtain ⟨ch'', hch'', _, hiff⟩ | ⟨hnone, _⟩ := Inv.child_of_wait (inv_exec hs ht) hc' hp
      · obtain rfl := Option.some.inj hch''
        exact mt hiff.mp hst.not_pending
      · exact absurd hnone (Option.some_ne_none ch')
    obtain ⟨u, hu, hcu⟩ := parent_returns hc' hp hflag
    refine ⟨as ++ [.parent c], u, _, ?_, hcu, rfl⟩
    rw [exec_append, ht, Option.bind_some, exec_cons, hu, Option.bind_some, exec_nil]
  · exact absurd (hf c call ret hc hp) hret

theorem not_neverWaitsInVain_of_failed {code : Int} (hs : Inv s)
    (h : createStep s c (.failed code) = some t) : ¬ NeverWaitsInVain t := by
  have ht := inv_createStep hs h
  obtain ⟨call, _, _, ⟨_, _, hfailed, _⟩ | ⟨code, hfailed, hcode, rfl⟩⟩ := createStep_inv h
  · cases hfailed
  obtain rfl := Outcome.failed.inj hfailed
  have hc : (s.setCall c { call with parent := .wait code }).calls c =
      some { call with parent := .wait code } := Function.update_self c _ s.calls
  obtain ⟨_, _, hret, _⟩ | ⟨hnone, _, hflag⟩ := Inv.child_of_wait ht hc rfl
  · exact absurd hret hcode
  · intro hw
    obtain ⟨ch, hch, _⟩ := hw c _ code hc rfl hflag
    rw [hnone] at hch
    exact Option.some_ne_none ch hch.symm

/-- No step of any thread lets a parent go on that was told an error. -/
theorem wait_step {a : Action} {call : Call} {code : Int} (hs : Inv s)
    (hc : s.calls c = some call) (hp : call.parent = .wait code) (hcode : code ≠ 0)
    (h : step s a = some t) : t.calls c = some call := by
  obtain ⟨_, _, hret, _⟩ | ⟨hnone, _, hflag⟩ := Inv.child_of_wait hs hc hp
  · exact absurd hret hcode
  have hmoved : ∀ d, ChildMoved s t d → t.calls c = some call := by
    rintro d ⟨call', ch, ch', hd, hch, hcalls⟩
    have hne : c ≠ d := by
      rintro rfl
      simp_all
    rw [hcalls, Function.update_of_ne hne, hc]
  cases a with
  | enter d con startRoutine arg attr =>
    obtain ⟨⟨hd, _⟩, h⟩ := Option.ite_none_right_eq_some.mp h
    have hne : c ≠ d := by
      rintro rfl
      simp_all
    rw [← Option.some.inj h, ← hc]
    exact Function.update_of_ne hne _ s.calls
  | parent d =>
    obtain ⟨call', hd, ⟨rfl, _⟩ | ⟨p, _, hgo, hcalls, _⟩⟩ := parentStep_inv h
    · exact hc
    · have hne : c ≠ d := by
        rintro rfl
        obtain rfl := Option.some.inj (hc.symm.trans hd)
        exact hgo code hp hflag
      rw [hcalls, Function.update_of_ne hne, hc]
  | create d outcome =>
    obtain ⟨call', hd, hcr, hmade⟩ := createStep_inv h
    have hne : c ≠ d := by
      rintro rfl
      obtain rfl := Option.some.inj (hc.symm.trans hd)
      simp [hp] at hcr
    rw [← hc]
    obtain ⟨_, _, _, _, _, rfl⟩ | ⟨_, _, _, rfl⟩ := hmade
    · exact Function.update_of_ne hne _ s.calls
    · exact Function.update_of_ne hne _ s.calls
  | child d => exact hmoved d (childStep_moved h)
  | routineReturn d result => exact hmoved d (routineReturn_moved h)
  | pthreadExit d result => exact hmoved d (pthreadExit_moved h)
  | leave d junk => exact hmoved d (leave_moved h)
  | reuse con k =>
    obtain ⟨_, h⟩ := Option.ite_none_right_eq_some.mp h
    rw [← Option.some.inj h]
    exact hc

/-- A wrapper whose underlying create fails never returns. -/
theorem waits_forever {call : Call} {code : Int} (hs : Inv s) (hc : s.calls c = some call)
    (hp : call.parent = .wait code) (hcode : code ≠ 0) (as : List Action) :
    Always step (fun u => u.calls c = some call) s as := by
  have h : Always step (fun u => Inv u ∧ u.calls c = some call) s as :=
    always_of_step (fun u a v hu huv =>
      ⟨inv_step u a v hu.1 huv, wait_step hu.1 hu.2 hp hcode huv⟩) ⟨hs, hc⟩ as
  exact h.mono (fun _ hu => hu.2)

/-- The wait is never in vain and the code always comes through precisely in
the runs in which every underlying create succeeds. -/
theorem neverWaitsInVain_iff_succeeds (mem : Nat → Container) (as : List Action)
    (hrun : (exec step (init mem) as).isSome) :
    Always step (fun s => NeverWaitsInVain s ∧ ReturnsCode s) (init mem) as ↔
      Guarded step (fun _ a => Succeeds a) (init mem) as := by
  have hsafe : ∀ s, Inv s ∧ NoneFailed s → NeverWaitsInVain s ∧ ReturnsCode s :=
    fun s ⟨hs, hf⟩ => ⟨neverWaitsInVain_of_noneFailed hs hf, returnsCode_of_noneFailed hs hf⟩
  refine always_iff_guarded hsafe ?_ ?_ ?_ hrun
  · rintro s a t ⟨hs, hf⟩ ha h
    exact ⟨inv_step s a t hs h, noneFailed_step hf ha h⟩
  · rintro s a t ⟨hs, _⟩ ha h ⟨hw, _⟩
    match a with
    | .create c (.failed code) => exact not_neverWaitsInVain_of_failed hs h hw
    | .create _ (.started _ _) | .enter _ _ _ _ _ | .parent _ | .child _ | .routineReturn _ _
    | .pthreadExit _ _ | .leave _ _ | .reuse _ _ => exact ha trivial
  · exact ⟨inv_init mem, fun _ call _ hc _ => absurd hc.symm (Option.some_ne_none call)⟩

def firstCall (outcome : Outcome) : List Action :=
  [.enter 0 0 1 2 none, .parent 0, .parent 0, .parent 0, .create 0 outcome]

theorem neverWaitsInVain_iff_succeeds_started :
    Always step (fun s => NeverWaitsInVain s ∧ ReturnsCode s) (init fun _ => ⟨0, 0, 0⟩)
      (firstCall (.started 7 70)) := by
  apply (neverWaitsInVain_iff_succeeds _ _ rfl).mpr
  intro pre a t hpre _
  have ha : a ∈ firstCall (.started 7 70) := hpre.subset (by simp)
  simp only [firstCall, List.mem_cons, List.not_mem_nil, or_false] at ha
  obtain rfl | rfl | rfl | rfl | rfl := ha <;> trivial

theorem not_neverWaitsInVain_eagain :
    ¬ Always step NeverWaitsInVain (init fun _ => ⟨0, 0, 0⟩) (firstCall (.failed 11)) ∧
      ¬ Always step ReturnsCode (init fun _ => ⟨0, 0, 0⟩) (firstCall (.failed 11)) := by
  obtain ⟨s, hs, hc, hflag⟩ : ∃ s, exec step (init fun _ => ⟨0, 0, 0⟩) (firstCall (.failed 11)) =
      some s ∧ s.calls 0 = some ⟨1, 2, 0, 0, .wait 11, none⟩ ∧ (s.mem 0).flag = 1 :=
    ⟨_, rfl, rfl, rfl⟩
  refine ⟨fun h => ?_, fun h => ?_⟩
  · obtain ⟨ch, hch, _⟩ := h _ s List.prefix_rfl hs 0 _ 11 hc rfl hflag
    exact Option.some_ne_none ch hch.symm
  · obtain ⟨as, t, call', ht, hc', hp'⟩ := h _ s List.prefix_rfl hs 0 _ 11 hc rfl
    have hwait := waits_forever (inv_exec (inv_init _) hs) hc rfl (by decide) as as t
      List.prefix_rfl ht
    rw [hwait, Option.some.injEq] at hc'
    subst hc'
    exact ParentPc.noConfusion hp'

end FakeLibc.ThreadWait

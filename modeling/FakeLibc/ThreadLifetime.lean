import FakeLibc.ThreadHandshake

namespace FakeLibc.ThreadLifetime

open FakeLibc.Lib.Run FakeLibc.ThreadTable FakeLibc.ThreadStart FakeLibc.ThreadHandshake

variable {s u : State}

def Ended : ChildPc → Prop
  | .ended _ => True
  | _ => False

def Registered : ChildPc → Prop
  | .clear _ _ _ | .start _ _ _ | .running _ | .remtid _ => True
  | _ => False

def childOf (s : State) (c : Nat) : Option Child := (s.calls c).bind Call.child

theorem childOf_update {c : Nat} {call : Call}
    (h : u.calls = Function.update s.calls c (some call)) :
    childOf u = Function.update (childOf s) c call.child := by
  funext d
  by_cases hd : d = c
  · subst d
    simp [childOf, h]
  · simp [childOf, h, hd]

theorem childOf_setCall (s : State) (c : Nat) (call : Call) :
    childOf (s.setCall c call) = Function.update (childOf s) c call.child := childOf_update rfl

theorem childOf_setChild {c : Nat} (call : Call) {ch : Child}
    (h : u.calls = Function.update s.calls c (some { call with child := some ch })) :
    childOf u = Function.update (childOf s) c (some ch) := childOf_update h

inductive Moves (s u : State) : Action → Prop
  | idle {a : Action} (children : childOf u = childOf s) (live : u.live = s.live)
      (table : u.table = s.table) : Moves s u a
  | begins {a : Action} {c : Nat} {ch : Child} (fresh : childOf s c = none)
      (children : childOf u = Function.update (childOf s) c (some ch))
      (nonzero : ch.thread ≠ 0) (unused : s.live ch.thread = none) (pc : ch.pc = .load0)
      (live : u.live = Function.update s.live ch.thread (some c)) (table : u.table = s.table) :
      Moves s u a
  | advances {a : Action} {c : Nat} {ch ch' : Child} (child : childOf s c = some ch)
      (children : childOf u = Function.update (childOf s) c (some ch'))
      (thread : ch'.thread = ch.thread) (tid : ch'.tid = ch.tid) (going : ¬ Ended ch.pc)
      (goes : ¬ Ended ch'.pc) (live : u.live = s.live)
      (table : (u.table = s.table ∧ (Registered ch.pc → Registered ch'.pc)) ∨
        (u.table = mySettidToThread s.table ch.thread ch.tid ∧ Registered ch'.pc) ∨
        u.table = myRemtid s.table ch.thread) : Moves s u a
  | ends {a : Action} {c : Nat} {ch ch' : Child} (child : childOf s c = some ch)
      (children : childOf u = Function.update (childOf s) c (some ch'))
      (thread : ch'.thread = ch.thread) (going : ¬ Ended ch.pc) (gone : Ended ch'.pc)
      (exits : Registered ch.pc → ∃ result, a = .pthreadExit c result)
      (live : u.live = Function.update s.live ch.thread none) (table : u.table = s.table) :
      Moves s u a

theorem moves_of_parent {a : Action} {c : Nat} {call call' : Call} (hc : s.calls c = some call)
    (hcalls : u.calls = Function.update s.calls c (some call')) (hch : call'.child = call.child)
    (hlive : u.live = s.live) (htable : u.table = s.table) : Moves s u a := by
  refine .idle ?_ hlive htable
  rw [childOf_update hcalls, hch, Function.update_eq_self_iff, childOf, hc, Option.bind_some]

theorem moves_enter {a : Action} {c con r x : Nat} {attr : Option Nat}
    (h : enter s c con r x attr = some u) : Moves s u a := by
  obtain ⟨⟨hc, _⟩, h⟩ := Option.ite_none_right_eq_some.mp h
  obtain rfl := Option.some.inj h
  have hnone : childOf s c = none := by rw [childOf, hc, Option.bind_none]
  refine .idle ((childOf_setCall s c ⟨r, x, attr.getD 0, con, .store0, none⟩).trans ?_) rfl rfl
  rw [Function.update_eq_self_iff, hnone]

theorem moves_parentStep {a : Action} {c : Nat} (h : parentStep s c = some u) : Moves s u a := by
  obtain ⟨call, hc, ⟨rfl, _⟩ | ⟨p, _, _, hcalls, hlive, htable⟩⟩ := parentStep_inv h
  · exact .idle rfl rfl rfl
  · exact moves_of_parent hc hcalls rfl hlive htable

theorem moves_createStep {a : Action} {c : Nat} {outcome : Outcome} (hs : Inv s)
    (h : createStep s c outcome = some u) : Moves s u a := by
  obtain ⟨call, hc, hp, hmade⟩ := createStep_inv h
  have hok := hs.callOk c call hc
  simp only [CallOk, hp] at hok
  obtain ⟨thread, tid, _, hthread, hunused, rfl⟩ | ⟨code, _, _, rfl⟩ := hmade
  · refine .begins ?_ (childOf_setChild { call with parent := .wait 0 } rfl) hthread hunused rfl
      rfl rfl
    rw [childOf, hc, Option.bind_some, hok.1]
  · exact moves_of_parent hc rfl rfl rfl rfl

theorem childOf_eq {c : Nat} {call : Call} {ch : Child} (hc : s.calls c = some call)
    (hch : call.child = some ch) : childOf s c = some ch := by
  rw [childOf, hc, Option.bind_some, hch]

theorem moves_childStep {a : Action} {c : Nat} (hs : Inv s) (h : childStep s c = some u) :
    Moves s u a := by
  obtain ⟨call, hc, h⟩ := Option.bind_eq_some_iff.mp h
  obtain ⟨ch, hch, h⟩ := Option.bind_eq_some_iff.mp h
  have hlocals := (callOk_child (hs.callOk c call hc) hch).1.locals
  have hof := childOf_eq hc hch
  cases hpc : ch.pc with
  | running | leave | ended => simp [hpc] at h
  | load0 | load1 | self | clear | start =>
    simp only [hpc, Option.some.injEq] at h
    subst u
    exact .advances hof (childOf_setChild call rfl) rfl rfl (by simp [hpc, Ended]) id rfl
      (.inl ⟨rfl, by simp [hpc, Registered]⟩)
  | settid r x t pid =>
    simp only [hpc, Option.some.injEq] at h hlocals
    obtain ⟨_, _, rfl, rfl⟩ := hlocals
    subst u
    exact .advances hof (childOf_setChild call rfl) rfl rfl (by simp [hpc, Ended]) id rfl
      (.inr (.inl ⟨rfl, trivial⟩))
  | remtid t =>
    simp only [hpc, Option.some.injEq] at h hlocals
    subst t u
    exact .advances hof (childOf_setChild call rfl) rfl rfl (by simp [hpc, Ended]) id rfl
      (.inr (.inr rfl))

theorem moves_routineReturn {a : Action} {c : Nat} (h : routineReturn s c = some u) :
    Moves s u a := by
  obtain ⟨call, ch, thread, hc, hch, hpc, rfl⟩ := routineReturn_inv h
  exact .advances (childOf_eq hc hch) (childOf_setChild call rfl) rfl rfl
    (by simp [hpc, Ended]) id rfl (.inl ⟨rfl, fun _ => trivial⟩)

theorem moves_pthreadExit {c result : Nat} (h : pthreadExit s c result = some u) :
    Moves s u (.pthreadExit c result) := by
  obtain ⟨call, ch, thread, hc, hch, hpc, rfl⟩ := pthreadExit_inv h
  exact .ends (childOf_eq hc hch) (childOf_setChild call rfl) rfl (by simp [hpc, Ended]) trivial
    (fun _ => ⟨result, rfl⟩) rfl rfl

theorem moves_leave {a : Action} {c junk : Nat} (h : leave s c junk = some u) : Moves s u a := by
  obtain ⟨call, ch, hc, hch, hpc, rfl⟩ := leave_inv h
  exact .ends (childOf_eq hc hch) (childOf_setChild call rfl) rfl (by simp [hpc, Ended]) trivial
    (by simp [hpc, Registered]) rfl rfl

theorem moves_of_step {a : Action} (hs : Inv s) (h : step s a = some u) : Moves s u a := by
  cases a with
  | enter c con startRoutine arg attr => exact moves_enter h
  | parent c => exact moves_parentStep h
  | create c outcome => exact moves_createStep hs h
  | child c => exact moves_childStep hs h
  | routineReturn c result => exact moves_routineReturn h
  | pthreadExit c result => exact moves_pthreadExit h
  | leave c junk => exact moves_leave h
  | reuse con k =>
    obtain ⟨_, h⟩ := Option.ite_none_right_eq_some.mp h
    exact Option.some.inj h ▸ .idle rfl rfl rfl

/-- A handle is in use by the one thread that has it and has not ended, and a
slot that is not free belongs to a thread that is registered. -/
structure Tracked (s : State) : Prop where
  live_iff : ∀ t c, s.live t = some c ↔
    ∃ ch, childOf s c = some ch ∧ ch.thread = t ∧ ¬ Ended ch.pc
  nonzero : ∀ c ch, childOf s c = some ch → ch.thread ≠ 0
  slots : ∀ e ∈ s.table.slots, e = free ∨
    ∃ c ch, childOf s c = some ch ∧ Registered ch.pc ∧ e = ⟨ch.tid, ch.thread⟩

/-- The thread, if this is its `pthread_exit`, has no slot. -/
def ExitsUnregistered (s : State) : Action → Prop
  | .pthreadExit c _ => ∀ ch, childOf s c = some ch → ∀ e ∈ s.table.slots, e.t ≠ ch.thread
  | _ => True

theorem Registered.not_ended {pc : ChildPc} (h : Registered pc) : ¬ Ended pc := by
  cases pc <;> first | exact id | exact h.elim

theorem live_iff_advances {c : Nat} {ch ch' : Child}
    (hs : ∀ t d, s.live t = some d ↔ ∃ ch, childOf s d = some ch ∧ ch.thread = t ∧ ¬ Ended ch.pc)
    (hch : childOf s c = some ch) (hthread : ch'.thread = ch.thread) (hgoing : ¬ Ended ch.pc)
    (hgoes : ¬ Ended ch'.pc) (t d : Nat) : s.live t = some d ↔
      ∃ e, Function.update (childOf s) c (some ch') d = some e ∧ e.thread = t ∧ ¬ Ended e.pc := by
  rw [hs]
  by_cases hd : d = c
  · subst d
    simp [hch, hthread, hgoing, hgoes]
  · rw [Function.update_of_ne hd]

theorem live_iff_begins {c : Nat} {ch : Child} (hs : Tracked s) (hfresh : childOf s c = none)
    (hunused : s.live ch.thread = none) (hpc : ch.pc = .load0) (t d : Nat) :
    Function.update s.live ch.thread (some c) t = some d ↔
      ∃ e, Function.update (childOf s) c (some ch) d = some e ∧ e.thread = t ∧ ¬ Ended e.pc := by
  by_cases hd : d = c
  · subst d
    have hno : s.live t ≠ some c := by
      rw [Ne, hs.live_iff]
      simp [hfresh]
    by_cases ht : t = ch.thread
    · simp [ht, hpc, Ended]
    · simp [ht, Ne.symm ht, hno]
  · rw [Function.update_of_ne hd, ← hs.live_iff]
    by_cases ht : t = ch.thread
    · simp [ht, hunused, Ne.symm hd]
    · rw [Function.update_of_ne ht]

theorem live_iff_ends {c : Nat} {ch ch' : Child} (hs : Tracked s) (hch : childOf s c = some ch)
    (hgoing : ¬ Ended ch.pc) (hgone : Ended ch'.pc) (t d : Nat) :
    Function.update s.live ch.thread none t = some d ↔
      ∃ e, Function.update (childOf s) c (some ch') d = some e ∧ e.thread = t ∧ ¬ Ended e.pc := by
  have hlive : s.live ch.thread = some c := (hs.live_iff _ c).mpr ⟨ch, hch, rfl, hgoing⟩
  by_cases hd : d = c
  · subst d
    have hno : t ≠ ch.thread → s.live t ≠ some c := by
      rintro ht hl
      obtain ⟨e, he, rfl, _⟩ := (hs.live_iff t c).mp hl
      rw [hch, Option.some.injEq] at he
      exact ht (he ▸ rfl)
    by_cases ht : t = ch.thread
    · simp [ht, hgone]
    · simp [ht, hno ht, hgone]
  · rw [Function.update_of_ne hd, ← hs.live_iff]
    by_cases ht : t = ch.thread
    · simp [ht, hlive, Ne.symm hd]
    · rw [Function.update_of_ne ht]

theorem nonzero_update {c : Nat} {ch : Child} (hs : Tracked s) (hch : ch.thread ≠ 0) (d : Nat)
    (e : Child) (he : Function.update (childOf s) c (some ch) d = some e) : e.thread ≠ 0 := by
  by_cases hd : d = c
  · subst d
    rw [Function.update_self, Option.some.injEq] at he
    exact he ▸ hch
  · rw [Function.update_of_ne hd] at he
    exact hs.nonzero d e he

theorem owned_of_ne {c : Nat} {ch ch' : Child} {e : ThreadToTid} (hch : childOf s c = some ch)
    (he : e = free ∨ ∃ d ch, childOf s d = some ch ∧ Registered ch.pc ∧ e = ⟨ch.tid, ch.thread⟩)
    (hne : Registered ch.pc → e.t ≠ ch.thread ∨
      (Registered ch'.pc ∧ ch'.thread = ch.thread ∧ ch'.tid = ch.tid)) :
    e = free ∨ ∃ d f, Function.update (childOf s) c (some ch') d = some f ∧ Registered f.pc ∧
      e = ⟨f.tid, f.thread⟩ := by
  obtain rfl | ⟨d, f, hf, hreg, rfl⟩ := he
  · exact .inl rfl
  · apply Or.inr
    by_cases hd : d = c
    · subst d
      obtain rfl := Option.some.inj (hch.symm.trans hf)
      obtain hne | ⟨hreg', hthread, htid⟩ := hne hreg
      · exact absurd rfl hne
      · exact ⟨c, ch', Function.update_self .., hreg', by rw [hthread, htid]⟩
    · exact ⟨d, f, by rw [Function.update_of_ne hd, hf], hreg, rfl⟩

theorem tracked_step {a : Action} (hs : Tracked s) (hm : Moves s u a)
    (ha : ExitsUnregistered s a) : Tracked u := by
  cases hm with
  | idle hchildren hlive htable =>
    exact ⟨by rw [hlive, hchildren]; exact hs.live_iff, by rw [hchildren]; exact hs.nonzero,
      by rw [htable, hchildren]; exact hs.slots⟩
  | @begins c ch hfresh hchildren hnonzero hunused hpc hlive htable =>
    refine ⟨?_, ?_, ?_⟩
    · rw [hlive, hchildren]
      exact live_iff_begins hs hfresh hunused hpc
    · rw [hchildren]
      exact nonzero_update hs hnonzero
    · rw [htable, hchildren]
      refine fun e he => (hs.slots e he).imp_right ?_
      rintro ⟨d, f, hf, hreg, rfl⟩
      have hd : d ≠ c := by
        rintro rfl
        exact Option.some_ne_none f (hf.symm.trans hfresh)
      exact ⟨d, f, by rw [Function.update_of_ne hd, hf], hreg, rfl⟩
  | @advances c ch ch' hch hchildren hthread htid hgoing hgoes hlive htable =>
    refine ⟨?_, ?_, ?_⟩
    · rw [hlive, hchildren]
      exact live_iff_advances hs.live_iff hch hthread hgoing hgoes
    · rw [hchildren]
      exact nonzero_update hs (hthread ▸ hs.nonzero c ch hch)
    · rw [hchildren]
      obtain ⟨htable, hreg⟩ | ⟨htable, hreg⟩ | htable := htable <;> rw [htable]
      · exact fun e he => owned_of_ne hch (hs.slots e he)
          (fun h => .inr ⟨hreg h, hthread, htid⟩)
      · intro e he
        obtain he | rfl := mem_mySettidToThread he
        · exact owned_of_ne hch (hs.slots e he) (fun _ => .inr ⟨hreg, hthread, htid⟩)
        · exact .inr ⟨c, ch', Function.update_self .., hreg, by rw [hthread, htid]⟩
      · intro e he
        obtain ⟨he, hne⟩ | rfl := mem_myRemtid he
        · exact owned_of_ne hch (hs.slots e he) (fun _ => .inl hne)
        · exact .inl rfl
  | @ends c ch ch' hch hchildren hthread hgoing hgone hexits hlive htable =>
    refine ⟨?_, ?_, ?_⟩
    · rw [hlive, hchildren]
      exact live_iff_ends hs hch hgoing hgone
    · rw [hchildren]
      exact nonzero_update hs (hthread ▸ hs.nonzero c ch hch)
    · rw [htable, hchildren]
      refine fun e he => owned_of_ne hch (hs.slots e he) (fun hreg => .inl ?_)
      obtain ⟨result, rfl⟩ := hexits hreg
      exact ha ch hch e he

/-- Every slot that is taken is a running thread's, no lookup answers with
another thread's tid, and unused handles have no slot. -/
structure NoStale (s : State) : Prop where
  slots : ∀ e ∈ s.table.slots, e = free ∨
    ∃ c ch, childOf s c = some ch ∧ ¬ Ended ch.pc ∧ e = ⟨ch.tid, ch.thread⟩
  lookup : ∀ t, pthreadGettidNp s.table t = 0 ∨
    ∃ c ch, childOf s c = some ch ∧ ¬ Ended ch.pc ∧ ch.thread = t ∧
      pthreadGettidNp s.table t = ch.tid
  unused : ∀ t, s.live t = none → ∀ e ∈ s.table.slots, e.t = t → e = free

theorem Tracked.noStale (hs : Tracked s) : NoStale s := by
  have hslots : ∀ e ∈ s.table.slots, e = free ∨
      ∃ c ch, childOf s c = some ch ∧ ¬ Ended ch.pc ∧ e = ⟨ch.tid, ch.thread⟩ :=
    fun e he => (hs.slots e he).imp_right
      (fun ⟨c, ch, hch, hreg, heq⟩ => ⟨c, ch, hch, hreg.not_ended, heq⟩)
  refine ⟨hslots, fun t => ?_, fun t ht e he het => ?_⟩
  · obtain h | h := myGettidFromThread_cases s.table t
    · exact .inl h
    · obtain hfree | ⟨c, ch, hch, hgoing, heq⟩ := hslots _ h
      · exact .inl ((eq_free_iff _).mp hfree).1
      · obtain ⟨htid, hthread⟩ := ThreadToTid.mk.inj heq
        exact .inr ⟨c, ch, hch, hgoing, hthread.symm, htid⟩
  · obtain hfree | ⟨c, ch, hch, hgoing, rfl⟩ := hslots e he
    · exact hfree
    · have hlive := (hs.live_iff t c).mpr ⟨ch, hch, het, hgoing⟩
      rw [ht] at hlive
      exact absurd hlive.symm (Option.some_ne_none c)

theorem tracked_init (mem : Nat → Container) : Tracked (init mem) := by
  refine ⟨fun t c => ?_, fun c ch hch => ?_, fun e he => .inl ?_⟩
  · simp [init, childOf]
  · simp [init, childOf] at hch
  · exact List.eq_of_mem_replicate he

/-- A slot that outlives its thread is stale at once. -/
theorem not_noStale_of_exit {a : Action} (hs : Tracked s) (ha : ¬ ExitsUnregistered s a)
    (h : step s a = some u) : ¬ NoStale u := by
  intro hu
  apply ha
  cases a with
  | pthreadExit c result =>
    obtain ⟨call, ch, thread, hc, hchild, _, rfl⟩ := pthreadExit_inv h
    have hch := childOf_eq hc hchild
    intro ch' hch' e he het
    obtain rfl := Option.some.inj (hch.symm.trans hch')
    have hfree : e = free := hu.unused ch.thread (Function.update_self ..) e he het
    rw [hfree] at het
    exact hs.nonzero c ch hch het.symm
  | enter | parent | create | child | routineReturn | leave | reuse => trivial

theorem noStale_iff_exitsUnregistered (mem : Nat → Container) (as : List Action)
    (hrun : (exec step (init mem) as).isSome) :
    Always step NoStale (init mem) as ↔ Guarded step ExitsUnregistered (init mem) as := by
  refine always_iff_guarded (fun s (hs : Inv s ∧ Tracked s) => hs.2.noStale) ?_ ?_
    ⟨inv_init mem, tracked_init mem⟩ hrun
  · rintro s a u ⟨hi, hs⟩ ha h
    exact ⟨inv_step s a u hi h, tracked_step hs (moves_of_step hi h) ha⟩
  · rintro s a u ⟨_, hs⟩ ha h
    exact not_noStale_of_exit hs ha h

def createAndStart (c : Nat) (tid : PidT) : List Action :=
  [.enter c c 1 2 none, .parent c, .parent c, .parent c, .create c (.started 7 tid), .child c,
    .child c, .child c, .child c, .child c, .child c]

def returnAndReuse : List Action :=
  createAndStart 0 70 ++ [.routineReturn 0 0, .child 0, .leave 0 0] ++ createAndStart 1 71

def exitAndReuse : List Action :=
  createAndStart 0 70 ++ [.pthreadExit 0 0] ++ createAndStart 1 71

theorem noStale_iff_exitsUnregistered_return :
    Always step NoStale (init fun _ => ⟨0, 0, 0⟩) returnAndReuse := by
  apply (noStale_iff_exitsUnregistered _ _ rfl).mpr
  intro pre a t hpre _
  have ha : a ∈ returnAndReuse := hpre.subset (by simp)
  have hno : ∀ c result, .pthreadExit c result ∉ returnAndReuse := by
    simp [returnAndReuse, createAndStart]
  cases a with
  | pthreadExit c result => exact absurd ha (hno c result)
  | enter | parent | create | child | routineReturn | leave | reuse => trivial

/-- The lookup of the handle answers for the second thread with the tid of the
first, and the second thread gets no slot. -/
theorem not_noStale_exit :
    ¬ Always step NoStale (init fun _ => ⟨0, 0, 0⟩) exitAndReuse ∧
      ∃ s, exec step (init fun _ => ⟨0, 0, 0⟩) exitAndReuse = some s ∧
        (childOf s 1).map (fun ch => (ch.thread, ch.tid, ch.pc)) = some (7, 71, .running 7) ∧
        pthreadGettidNp s.table 7 = 70 := by
  have hfull : mySettidToThread threadToTid 7 70 = fill ⟨70, 7⟩ := mySettidToThread_fill_free 7 70
  refine ⟨fun h => ?_, _, rfl, rfl, ?_⟩
  · obtain ⟨s, hs, hlive, htable⟩ : ∃ s, exec step (init fun _ => ⟨0, 0, 0⟩)
        (createAndStart 0 70 ++ [.pthreadExit 0 0]) = some s ∧ s.live 7 = none ∧
        s.table = mySettidToThread threadToTid 7 70 := ⟨_, rfl, rfl, rfl⟩
    have hstale := (h _ s (List.prefix_append _ _) hs).unused 7 hlive ⟨70, 7⟩
    rw [htable, hfull] at hstale
    exact absurd (hstale (List.mem_replicate.mpr ⟨by decide, rfl⟩) rfl) (by decide)
  · change pthreadGettidNp (mySettidToThread (mySettidToThread threadToTid 7 70) 7 71) 7 = 70
    rw [hfull, mySettidToThread_fill (by decide), pthreadGettidNp, myGettidFromThread_fill,
      if_pos rfl]

end FakeLibc.ThreadLifetime

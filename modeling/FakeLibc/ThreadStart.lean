import FakeLibc.Lib.Run
import FakeLibc.ThreadTable
import Mathlib.Logic.Function.Basic

namespace FakeLibc.ThreadStart

open FakeLibc.ThreadTable

/-- The three words on the parent's stack: routine, argument and flag. -/
structure Container where
  routine : Nat
  arg : Nat
  flag : Nat
deriving DecidableEq

/-- Where a `pthread_create` call stands. From `wait` on it holds the code
that the underlying create returned. -/
inductive ParentPc
  | store0 | store1 | store2 | create
  | wait (ret : Int)
  | returned (ret : Int)
deriving DecidableEq

inductive ChildPc
  | load0
  | load1 (routine : Nat)
  | self (routine arg : Nat)
  | settid (routine arg : Nat) (thread : PthreadT) (pid : PidT)
  | clear (routine arg : Nat) (thread : PthreadT)
  | start (routine arg : Nat) (thread : PthreadT)
  | running (thread : PthreadT)
  | remtid (thread : PthreadT)
  | leave
  | ended (result : Nat)
deriving DecidableEq

/-- A started thread. `registered` and `invoked` record what it has done:
whether `my_settid_to_thread` has completed and which calls it made. -/
structure Child where
  con : Nat
  thread : PthreadT
  tid : PidT
  pc : ChildPc
  registered : Bool
  invoked : List (Nat × Nat)
deriving DecidableEq

structure Call where
  startRoutine : Nat
  arg : Nat
  realattr : Nat
  con : Nat
  parent : ParentPc
  child : Option Child
deriving DecidableEq

/-- `owner` says which call's frame an address lies in, and `live` which
call's thread has a handle. -/
structure State where
  calls : Nat → Option Call
  mem : Nat → Container
  owner : Nat → Option Nat
  live : PthreadT → Option Nat
  table : Table

inductive Outcome
  | started (thread : PthreadT) (tid : PidT)
  | failed (code : Int)
deriving DecidableEq

/-- The environment chooses who moves, where frames lie, how the underlying
create ends and how the start routine ends. -/
inductive Action
  | enter (c con startRoutine arg : Nat) (attr : Option Nat)
  | parent (c : Nat)
  | create (c : Nat) (outcome : Outcome)
  | child (c : Nat)
  | routineReturn (c result : Nat)
  | pthreadExit (c result : Nat)
  | leave (c junk : Nat)
  | reuse (con : Nat) (k : Container)
deriving DecidableEq

def init (mem : Nat → Container) : State :=
  ⟨fun _ => none, mem, fun _ => none, fun _ => none, threadToTid⟩

def State.setCall (s : State) (c : Nat) (call : Call) : State :=
  { s with calls := Function.update s.calls c (some call) }

def State.setMem (s : State) (con : Nat) (k : Container) : State :=
  { s with mem := Function.update s.mem con k }

/-- `realattr` is null for a null attribute, else the word it points to. -/
def enter (s : State) (c con startRoutine arg : Nat) (attr : Option Nat) : Option State :=
  if s.calls c = none ∧ s.owner con = none then
    some { s.setCall c ⟨startRoutine, arg, attr.getD 0, con, .store0, none⟩ with
      owner := Function.update s.owner con (some c) }
  else none

/-- The statements of `pthread_create` other than the underlying create. -/
def parentStep (s : State) (c : Nat) : Option State := do
  let call ← s.calls c
  let k := s.mem call.con
  match call.parent with
  | .store0 => some ((s.setMem call.con { k with routine := call.startRoutine }).setCall c
      { call with parent := .store1 })
  | .store1 => some ((s.setMem call.con { k with arg := call.arg }).setCall c
      { call with parent := .store2 })
  | .store2 => some ((s.setMem call.con { k with flag := 1 }).setCall c
      { call with parent := .create })
  | .create => none
  | .wait ret =>
    if k.flag = 1 then some s
    else some { s.setCall c { call with parent := .returned ret } with
      owner := Function.update s.owner call.con none }
  | .returned _ => none

/-- The underlying create. A handle is free again once its thread has ended. -/
def createStep (s : State) (c : Nat) (outcome : Outcome) : Option State := do
  let call ← s.calls c
  match call.parent, outcome with
  | .create, .started thread tid =>
    if thread ≠ 0 ∧ tid ≠ 0 ∧ s.live thread = none then
      some { s.setCall c { call with
          parent := .wait 0, child := some ⟨call.con, thread, tid, .load0, false, []⟩ } with
        live := Function.update s.live thread (some c) }
    else none
  | .create, .failed code =>
    if code ≠ 0 then some (s.setCall c { call with parent := .wait code }) else none
  | _, _ => none

def State.setChild (s : State) (c : Nat) (call : Call) (ch : Child) : State :=
  s.setCall c { call with child := some ch }

/-- The statements of `my_start_routine` around the start routine. -/
def childStep (s : State) (c : Nat) : Option State := do
  let call ← s.calls c
  let ch ← call.child
  let k := s.mem ch.con
  match ch.pc with
  | .load0 => some (s.setChild c call { ch with pc := .load1 k.routine })
  | .load1 r => some (s.setChild c call { ch with pc := .self r k.arg })
  | .self r a => some (s.setChild c call { ch with pc := .settid r a ch.thread ch.tid })
  | .settid r a t pid =>
    some { s.setChild c call { ch with pc := .clear r a t, registered := true } with
      table := mySettidToThread s.table t pid }
  | .clear r a t =>
    some ((s.setMem ch.con { k with flag := 0 }).setChild c call { ch with pc := .start r a t })
  | .start r a t =>
    some (s.setChild c call { ch with pc := .running t, invoked := ch.invoked ++ [(r, a)] })
  | .remtid t =>
    some { s.setChild c call { ch with pc := .leave } with table := myRemtid s.table t }
  | .running _ | .leave | .ended _ => none

/-- `start_routine(arg)` returns; its result is dropped. -/
def routineReturn (s : State) (c : Nat) : Option State := do
  let call ← s.calls c
  let ch ← call.child
  match ch.pc with
  | .running t => some (s.setChild c call { ch with pc := .remtid t })
  | _ => none

def State.endThread (s : State) (c : Nat) (call : Call) (ch : Child) (result : Nat) : State :=
  { s.setChild c call { ch with pc := .ended result } with
    live := Function.update s.live ch.thread none }

/-- The exported `pthread_exit` is glibc's and ends the thread at once. -/
def pthreadExit (s : State) (c result : Nat) : Option State := do
  let call ← s.calls c
  let ch ← call.child
  match ch.pc with
  | .running _ => some (s.endThread c call ch result)
  | _ => none

/-- `my_start_routine` has no return statement, so its result is `junk`. -/
def leave (s : State) (c junk : Nat) : Option State := do
  let call ← s.calls c
  let ch ← call.child
  match ch.pc with
  | .leave => some (s.endThread c call ch junk)
  | _ => none

def step (s : State) : Action → Option State
  | .enter c con startRoutine arg attr => enter s c con startRoutine arg attr
  | .parent c => parentStep s c
  | .create c outcome => createStep s c outcome
  | .child c => childStep s c
  | .routineReturn c _ => routineReturn s c
  | .pthreadExit c result => pthreadExit s c result
  | .leave c junk => leave s c junk
  | .reuse con k => if s.owner con = none then some (s.setMem con k) else none

section Inversion

variable {s t : State} {c : Nat}

theorem parentStep_inv (h : parentStep s c = some t) : ∃ call, s.calls c = some call ∧
    ((t = s ∧ ∃ ret, call.parent = .wait ret ∧ (s.mem call.con).flag = 1) ∨
      ∃ p, (∀ ret, p ≠ .wait ret) ∧ (∀ ret, call.parent = .wait ret → (s.mem call.con).flag ≠ 1) ∧
        t.calls = Function.update s.calls c (some { call with parent := p }) ∧
        t.live = s.live ∧ t.table = s.table) := by
  obtain ⟨call, hc, h⟩ := Option.bind_eq_some_iff.mp h
  refine ⟨call, hc, ?_⟩
  cases hp : call.parent with
  | store0 | store1 | store2 =>
    simp only [hp, Option.some.injEq] at h
    subst t
    exact .inr ⟨_, by simp, by simp, rfl, rfl, rfl⟩
  | create | returned => simp [hp] at h
  | wait ret =>
    simp only [hp] at h
    by_cases hf : (s.mem call.con).flag = 1
    · rw [if_pos hf, Option.some.injEq] at h
      exact .inl ⟨h.symm, ret, rfl, hf⟩
    · rw [if_neg hf, Option.some.injEq] at h
      subst t
      exact .inr ⟨_, by simp, fun _ _ => hf, rfl, rfl, rfl⟩

theorem createStep_inv {outcome : Outcome} (h : createStep s c outcome = some t) :
    ∃ call, s.calls c = some call ∧ call.parent = .create ∧
      ((∃ thread tid, outcome = .started thread tid ∧ thread ≠ 0 ∧ s.live thread = none ∧
        t = { s.setCall c { call with
            parent := .wait 0, child := some ⟨call.con, thread, tid, .load0, false, []⟩ } with
          live := Function.update s.live thread (some c) }) ∨
        ∃ code, outcome = .failed code ∧ code ≠ 0 ∧
          t = s.setCall c { call with parent := .wait code }) := by
  obtain ⟨call, hc, h⟩ := Option.bind_eq_some_iff.mp h
  refine ⟨call, hc, ?_⟩
  cases hp : call.parent with
  | store0 | store1 | store2 | wait | returned => simp [hp] at h
  | create =>
    cases outcome with
    | started thread tid =>
      simp only [hp, Option.ite_none_right_eq_some, Option.some.injEq] at h
      obtain ⟨⟨hthread, _, hunused⟩, rfl⟩ := h
      exact ⟨rfl, .inl ⟨thread, tid, rfl, hthread, hunused, rfl⟩⟩
    | failed code =>
      simp only [hp, Option.ite_none_right_eq_some, Option.some.injEq] at h
      obtain ⟨hcode, rfl⟩ := h
      exact ⟨rfl, .inr ⟨code, rfl, hcode, rfl⟩⟩

theorem routineReturn_inv (h : routineReturn s c = some t) :
    ∃ call ch thread, s.calls c = some call ∧ call.child = some ch ∧ ch.pc = .running thread ∧
      t = s.setChild c call { ch with pc := .remtid thread } := by
  obtain ⟨call, hc, h⟩ := Option.bind_eq_some_iff.mp h
  obtain ⟨ch, hch, h⟩ := Option.bind_eq_some_iff.mp h
  split at h
  · rename_i thread hpc
    exact ⟨call, ch, thread, hc, hch, hpc, (Option.some.inj h).symm⟩
  · cases h

theorem pthreadExit_inv {result : Nat} (h : pthreadExit s c result = some t) :
    ∃ call ch thread, s.calls c = some call ∧ call.child = some ch ∧ ch.pc = .running thread ∧
      t = s.endThread c call ch result := by
  obtain ⟨call, hc, h⟩ := Option.bind_eq_some_iff.mp h
  obtain ⟨ch, hch, h⟩ := Option.bind_eq_some_iff.mp h
  split at h
  · rename_i thread hpc
    exact ⟨call, ch, thread, hc, hch, hpc, (Option.some.inj h).symm⟩
  · cases h

theorem leave_inv {junk : Nat} (h : leave s c junk = some t) :
    ∃ call ch, s.calls c = some call ∧ call.child = some ch ∧ ch.pc = .leave ∧
      t = s.endThread c call ch junk := by
  obtain ⟨call, hc, h⟩ := Option.bind_eq_some_iff.mp h
  obtain ⟨ch, hch, h⟩ := Option.bind_eq_some_iff.mp h
  split at h
  · rename_i hpc
    exact ⟨call, ch, hc, hch, hpc, (Option.some.inj h).symm⟩
  · cases h

end Inversion

end FakeLibc.ThreadStart

import FakeLibc.Lib.Run
import FakeLibc.LazyInit

namespace FakeLibc.LazyInitAlone

open FakeLibc.Lib.Run FakeLibc.PthreadWords FakeLibc.LazyInit

variable {role : Nat → ObjKind} {s s' : State} {t : Nat} {m' : Machine}

/-- Thread `t` can go on by itself until words, objects and log are as in `m'`. -/
def Reaches (role : Nat → ObjKind) (s : State) (t : Nat) (m' : Machine) : Prop :=
  ∃ (qs : List Nat) (s' : State),
    exec (step role) s (qs.map (fun q => .step t q)) = some s' ∧ s'.m = m'

theorem reaches_self (role : Nat → ObjKind) (s : State) (t : Nat) : Reaches role s t s.m :=
  ⟨[], s, rfl, rfl⟩

theorem reaches_of_advance (q : Nat) (h : advance s t q = some s') (hr : Reaches role s' t m') :
    Reaches role s t m' := by
  obtain ⟨qs, u, hu, hm⟩ := hr
  refine ⟨q :: qs, u, ?_, hm⟩
  rw [List.map_cons, exec_cons, step, h, Option.bind_some, hu]

@[simp] theorem goto_pc (s : State) (t : Nat) (pc : Pc) : (s.goto t pc).pc t = pc :=
  Function.update_self ..

theorem reaches_lockCall {w p : Nat} (hpc : s.pc t = .lockCall w p) :
    Reaches role s t (s.m.call .mutexLock [⟨⟨.mutex, w⟩, p⟩]) := by
  apply reaches_of_advance 0
  · simp only [advance, hpc]
    rfl
  · exact reaches_self role _ t

theorem reaches_lockReload {w : Nat} (hpc : s.pc t = .lockReload w) :
    Reaches role s t (s.m.call .mutexLock [⟨⟨.mutex, w⟩, s.m.word w⟩]) := by
  apply reaches_of_advance 0
  · simp only [advance, hpc]
    rfl
  · exact reaches_lockCall (goto_pc s t _)

theorem reaches_lockStore {w p : Nat} (hpc : s.pc t = .lockStore w p) :
    Reaches role s t ((s.m.store w p).call .mutexLock [⟨⟨.mutex, w⟩, (s.m.store w p).word w⟩]) := by
  apply reaches_of_advance 0
  · simp only [advance, hpc]
    rfl
  · exact reaches_lockReload (goto_pc _ t _)

theorem reaches_lock {w q : Nat} (hpc : s.pc t = .lockLoad w) (hq : Fresh s.m (some q))
    (ret : Int) : Reaches role s t (pthreadMutexLock s.m w (some q) ret).1 := by
  by_cases hv : s.m.word w ≤ androidTopAddrValueMutex
  · simp only [pthreadMutexLock, if_pos hv]
    apply reaches_of_advance 0
    · simp only [advance, hpc, if_pos hv]
      rfl
    apply reaches_of_advance q
    · simp only [advance, goto_pc]
      exact if_pos hq
    · exact reaches_lockStore (goto_pc _ t _)
  · simp only [pthreadMutexLock, if_neg hv]
    apply reaches_of_advance 0
    · simp only [advance, hpc, if_neg hv]
      rfl
    · exact reaches_lockCall (goto_pc s t _)

theorem reaches_unlock {w : Nat} (hpc : s.pc t = .unlockLoad w) (ret : Int) :
    Reaches role s t (pthreadMutexUnlock s.m w ret).1 := by
  apply reaches_of_advance 0
  · simp only [advance, hpc]
    rfl
  apply reaches_of_advance 0
  · simp only [advance, goto_pc]
    rfl
  · exact reaches_self role _ t

theorem reaches_waitCall {fn : WaitFn} {c w p p' : Nat} (hpc : s.pc t = .waitCall fn c w p p') :
    Reaches role s t (s.m.call fn.glibc [⟨⟨.cond, c⟩, p⟩, ⟨⟨.mutex, w⟩, p'⟩]) := by
  cases hl : s.locks.giveBack t w p' with
  | none =>
    apply reaches_of_advance 0
    · simp only [advance, hpc, hl]
      rfl
    · exact reaches_self role _ t
  | some locks =>
    apply reaches_of_advance 0
    · simp only [advance, hpc, hl]
      rfl
    · exact reaches_self role _ t

theorem reaches_waitMutex {fn : WaitFn} {c w p v : Nat} {pm : Option Nat}
    (hpc : s.pc t = waitMutex fn c w p v) (hpm : Fresh s.m pm)
    (hne : v ≤ androidTopAddrValueMutex → pm ≠ none) :
    Reaches role s t ((realMutex s.m w v pm).1.call fn.glibc
      [⟨⟨.cond, c⟩, p⟩, ⟨⟨.mutex, w⟩, (realMutex s.m w v pm).2⟩]) := by
  by_cases hv : v ≤ androidTopAddrValueMutex
  · obtain ⟨q, rfl⟩ := Option.ne_none_iff_exists'.mp (hne hv)
    rw [waitMutex, if_pos hv] at hpc
    simp only [realMutex, if_pos hv]
    apply reaches_of_advance q
    · simp only [advance, hpc]
      exact if_pos hpm
    apply reaches_of_advance 0
    · simp only [advance, goto_pc]
      rfl
    · exact reaches_waitCall (goto_pc _ t _)
  · rw [waitMutex, if_neg hv] at hpc
    simp only [realMutex, if_neg hv]
    exact reaches_waitCall hpc

theorem fresh_realCond {m : Machine} {c v q r : Nat} (hr : Fresh m (some r)) (hne : q ≠ r) :
    Fresh (realCond m c v (some q)).1 (some r) := by
  by_cases hv : v ≤ androidTopAddrValueCond
  · rw [realCond, if_pos hv]
    exact ⟨hr.1, hr.2.1, (Function.update_of_ne (Ne.symm hne) _ m.obj).trans hr.2.2⟩
  · rwa [realCond, if_neg hv]

theorem reaches_wait {fn : WaitFn} {c w q r : Nat} (hpc : s.pc t = .waitLoadCond fn c w)
    (hq : Fresh s.m (some q)) (hr : Fresh s.m (some r)) (hne : q ≠ r) (ret : Int) :
    Reaches role s t (condWaitWith fn.glibc s.m c w (some q) (some r) ret).1 := by
  by_cases hv : s.m.word c ≤ androidTopAddrValueCond
  · have hr' := fresh_realCond (c := c) (v := s.m.word c) hr hne
    rw [realCond, if_pos hv] at hr'
    simp only [condWaitWith, realCond, if_pos hv]
    apply reaches_of_advance 0
    · simp only [advance, hpc]
      rfl
    apply reaches_of_advance 0
    · simp only [advance, goto_pc]
      rfl
    rw [if_pos hv]
    apply reaches_of_advance q
    · simp only [advance, goto_pc]
      exact if_pos hq
    apply reaches_of_advance 0
    · simp only [advance, goto_pc]
      rfl
    · exact reaches_waitMutex (goto_pc _ t _) hr' (fun _ => Option.some_ne_none r)
  · simp only [condWaitWith, realCond, if_neg hv]
    apply reaches_of_advance 0
    · simp only [advance, hpc]
      rfl
    apply reaches_of_advance 0
    · simp only [advance, goto_pc]
      rfl
    rw [if_neg hv]
    exact reaches_waitMutex (goto_pc _ t _) hr (fun _ => Option.some_ne_none r)

theorem reaches_wakeCall {fn : WakeFn} {c p : Nat} (hpc : s.pc t = .wakeCall fn c p) :
    Reaches role s t (s.m.call fn.glibc [⟨⟨.cond, c⟩, p⟩]) := by
  apply reaches_of_advance 0
  · simp only [advance, hpc]
    rfl
  · exact reaches_self role _ t

theorem reaches_wake {fn : WakeFn} {c q : Nat} (hpc : s.pc t = .wakeLoad fn c)
    (hq : Fresh s.m (some q)) (ret : Int) :
    Reaches role s t (condWakeWith fn.glibc s.m c (some q) ret).1 := by
  unfold condWakeWith
  by_cases hv : s.m.word c ≤ androidTopAddrValueCond
  · rw [realCond, if_pos hv]
    apply reaches_of_advance 0
    · simp only [advance, hpc, if_pos hv]
      rfl
    apply reaches_of_advance q
    · simp only [advance, goto_pc]
      exact if_pos hq
    apply reaches_of_advance 0
    · simp only [advance, goto_pc]
      rfl
    · exact reaches_wakeCall (goto_pc _ t _)
  · rw [realCond, if_neg hv]
    apply reaches_of_advance 0
    · simp only [advance, hpc, if_neg hv]
      rfl
    · exact reaches_wakeCall (goto_pc _ t _)

def Job.op (q r : Nat) (ret : Int) : Job → Op
  | .pthreadMutexLock mutex => .mutexLock mutex (some r) ret
  | .pthreadMutexUnlock mutex => .mutexUnlock mutex ret
  | .pthreadCondWait cond mutex => .condWait cond mutex (some q) (some r) ret
  | .pthreadCondTimedwait cond mutex abstime =>
    .condTimedwait cond mutex abstime (some q) (some r) ret
  | .pthreadCondTimedwaitRelativeNp cond mutex now reltime =>
    .condTimedwaitRelativeNp cond mutex now reltime (some q) (some r) ret
  | .pthreadCondBroadcast cond => .condBroadcast cond (some q) ret
  | .pthreadCondSignal cond => .condSignal cond (some q) ret

/-- The atomic steps of a call add up to the call as `PthreadWords` has it
when no other thread comes between them. -/
theorem reaches_run {job : Job} {pc : Pc} {q r : Nat} (hentry : entry role s t job = some pc)
    (hq : Fresh s.m (some q)) (hr : Fresh s.m (some r)) (hne : q ≠ r) (ret : Int) :
    Reaches role (s.goto t pc) t (run s.m (Job.op q r ret job)).1 := by
  cases job with
  | pthreadMutexLock mutex =>
    obtain ⟨_, h⟩ := Option.ite_none_right_eq_some.mp hentry
    obtain rfl := Option.some.inj h
    exact reaches_lock (goto_pc s t _) hr ret
  | pthreadMutexUnlock mutex =>
    obtain ⟨_, h⟩ := Option.ite_none_right_eq_some.mp hentry
    obtain rfl := Option.some.inj h
    exact reaches_unlock (goto_pc s t _) ret
  | pthreadCondWait | pthreadCondTimedwait | pthreadCondTimedwaitRelativeNp =>
    obtain ⟨_, h⟩ := Option.ite_none_right_eq_some.mp hentry
    obtain rfl := Option.some.inj h
    exact reaches_wait (goto_pc s t _) hq hr hne ret
  | pthreadCondBroadcast | pthreadCondSignal =>
    obtain ⟨_, h⟩ := Option.ite_none_right_eq_some.mp hentry
    obtain rfl := Option.some.inj h
    exact reaches_wake (goto_pc s t _) hq ret

end FakeLibc.LazyInitAlone

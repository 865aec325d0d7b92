import FakeLibc.Lib.Ownership
import FakeLibc.PthreadWords

namespace FakeLibc.LazyInit

open FakeLibc.Lib.Ownership FakeLibc.PthreadWords

inductive WaitFn
  | condWait
  | condTimedwait (abstime : Timespec)
deriving DecidableEq

inductive WakeFn
  | condBroadcast | condSignal
deriving DecidableEq

def WaitFn.glibc : WaitFn → GlibcFn
  | .condWait => .condWait
  | .condTimedwait abstime => .condTimedwait abstime

def WakeFn.glibc : WakeFn → GlibcFn
  | .condBroadcast => .condBroadcast
  | .condSignal => .condSignal

inductive Job
  | pthreadMutexLock (mutex : Nat)
  | pthreadMutexUnlock (mutex : Nat)
  | pthreadCondWait (cond mutex : Nat)
  | pthreadCondTimedwait (cond mutex : Nat) (abstime : Timespec)
  | pthreadCondTimedwaitRelativeNp (cond mutex : Nat) (now reltime : Timespec)
  | pthreadCondBroadcast (cond : Nat)
  | pthreadCondSignal (cond : Nat)
deriving DecidableEq

/-- The next atomic step of a thread: reading the Android word, allocating an
object, storing its address, calling glibc, returning from glibc. -/
inductive Pc
  | idle
  | lockLoad (mutex : Nat)
  | lockAlloc (mutex value : Nat)
  | lockStore (mutex real : Nat)
  | lockReload (mutex : Nat)
  | lockCall (mutex real : Nat)
  | lockReturn (mutex real : Nat)
  | unlockLoad (mutex : Nat)
  | unlockCall (mutex real : Nat)
  | waitLoadCond (fn : WaitFn) (cond mutex : Nat)
  | waitLoadMutex (fn : WaitFn) (cond mutex cvalue : Nat)
  | waitAllocCond (fn : WaitFn) (cond mutex mvalue : Nat)
  | waitStoreCond (fn : WaitFn) (cond mutex realcond mvalue : Nat)
  | waitAllocMutex (fn : WaitFn) (cond mutex realcond mvalue : Nat)
  | waitStoreMutex (fn : WaitFn) (cond mutex realcond realmutex : Nat)
  | waitCall (fn : WaitFn) (cond mutex realcond realmutex : Nat)
  | waitReturn (fn : WaitFn) (cond mutex realcond realmutex : Nat)
  | wakeLoad (fn : WakeFn) (cond : Nat)
  | wakeAlloc (fn : WakeFn) (cond : Nat)
  | wakeStore (fn : WakeFn) (cond real : Nat)
  | wakeCall (fn : WakeFn) (cond real : Nat)
deriving DecidableEq

/-- `locks` says which thread holds which real mutex, and how often a thread
is between a returned lock of a mutex word and its unlock. -/
structure State where
  m : Machine
  pc : Nat → Pc
  locks : Locks Nat Nat Nat

def State.goto (s : State) (t : Nat) (pc : Pc) : State :=
  { s with pc := Function.update s.pc t pc }

def waitMutex (fn : WaitFn) (cond mutex realcond mvalue : Nat) : Pc :=
  if mvalue ≤ androidTopAddrValueMutex then .waitAllocMutex fn cond mutex realcond mvalue
  else .waitCall fn cond mutex realcond mvalue

/-- The next statement. glibc grants a mutex that is free, and may grant one
(that is recursive) to its holder again. A mutex that is given back by another
thread than its holder stays as it is. -/
def advance (s : State) (t q : Nat) : Option State :=
  match s.pc t with
  | .idle => none
  | .lockLoad mutex =>
    some (s.goto t (if s.m.word mutex ≤ androidTopAddrValueMutex
      then .lockAlloc mutex (s.m.word mutex) else .lockCall mutex (s.m.word mutex)))
  | .lockAlloc mutex value =>
    if Fresh s.m (some q) then
      some ({ s with m := (hybrisAllocInitMutex s.m mutex value (some q)).1 }.goto t
        (.lockStore mutex q))
    else none
  | .lockStore mutex real => some ({ s with m := s.m.store mutex real }.goto t (.lockReload mutex))
  | .lockReload mutex => some (s.goto t (.lockCall mutex (s.m.word mutex)))
  | .lockCall mutex real =>
    some ({ s with m := s.m.call .mutexLock [⟨⟨.mutex, mutex⟩, real⟩] }.goto t
      (.lockReturn mutex real))
  | .lockReturn mutex real =>
    (s.locks.grant t mutex real).map (fun locks => { s with locks := locks }.goto t .idle)
  | .unlockLoad mutex => some (s.goto t (.unlockCall mutex (s.m.word mutex)))
  | .unlockCall mutex real =>
    some ({ s with
      m := s.m.call .mutexUnlock [⟨⟨.mutex, mutex⟩, real⟩]
      locks := (s.locks.giveBack t mutex real).getD s.locks }.goto t .idle)
  | .waitLoadCond fn cond mutex => some (s.goto t (.waitLoadMutex fn cond mutex (s.m.word cond)))
  | .waitLoadMutex fn cond mutex cvalue =>
    some (s.goto t (if cvalue ≤ androidTopAddrValueCond
      then .waitAllocCond fn cond mutex (s.m.word mutex)
      else waitMutex fn cond mutex cvalue (s.m.word mutex)))
  | .waitAllocCond fn cond mutex mvalue =>
    if Fresh s.m (some q) then
      some ({ s with m := (hybrisAllocInitCond s.m cond (some q)).1 }.goto t
        (.waitStoreCond fn cond mutex q mvalue))
    else none
  | .waitStoreCond fn cond mutex realcond mvalue =>
    some ({ s with m := s.m.store cond realcond }.goto t
      (waitMutex fn cond mutex realcond mvalue))
  | .waitAllocMutex fn cond mutex realcond mvalue =>
    if Fresh s.m (some q) then
      some ({ s with m := (hybrisAllocInitMutex s.m mutex mvalue (some q)).1 }.goto t
        (.waitStoreMutex fn cond mutex realcond q))
    else none
  | .waitStoreMutex fn cond mutex realcond realmutex =>
    some ({ s with m := s.m.store mutex realmutex }.goto t
      (.waitCall fn cond mutex realcond realmutex))
  | .waitCall fn cond mutex realcond realmutex =>
    let args : List Arg := [⟨⟨.cond, cond⟩, realcond⟩, ⟨⟨.mutex, mutex⟩, realmutex⟩]
    let s' := { s with m := s.m.call fn.glibc args }
    match s.locks.giveBack t mutex realmutex with
    | none => some (s'.goto t .idle)
    | some locks =>
      some ({ s' with locks := locks }.goto t (.waitReturn fn cond mutex realcond realmutex))
  | .waitReturn _ _ mutex _ realmutex =>
    (s.locks.grant t mutex realmutex).map (fun locks => { s with locks := locks }.goto t .idle)
  | .wakeLoad fn cond =>
    some (s.goto t (if s.m.word cond ≤ androidTopAddrValueCond then .wakeAlloc fn cond
      else .wakeCall fn cond (s.m.word cond)))
  | .wakeAlloc fn cond =>
    if Fresh s.m (some q) then
      some ({ s with m := (hybrisAllocInitCond s.m cond (some q)).1 }.goto t (.wakeStore fn cond q))
    else none
  | .wakeStore fn cond real =>
    some ({ s with m := s.m.store cond real }.goto t (.wakeCall fn cond real))
  | .wakeCall fn cond real =>
    some ({ s with m := s.m.call fn.glibc [⟨⟨.cond, cond⟩, real⟩] }.goto t .idle)

def waitEntry (role : Nat → ObjKind) (fn : WaitFn) (cond mutex : Nat) : Option Pc :=
  if role cond = .cond ∧ role mutex = .mutex then some (.waitLoadCond fn cond mutex) else none

def wakeEntry (role : Nat → ObjKind) (fn : WakeFn) (cond : Nat) : Option Pc :=
  if role cond = .cond then some (.wakeLoad fn cond) else none

/-- Where a call starts. A client calls with words of the right kind, and
unlocks only what it has locked. -/
def entry (role : Nat → ObjKind) (s : State) (t : Nat) : Job → Option Pc
  | .pthreadMutexLock mutex => if role mutex = .mutex then some (.lockLoad mutex) else none
  | .pthreadMutexUnlock mutex =>
    if 0 < s.locks.inside t mutex then some (.unlockLoad mutex) else none
  | .pthreadCondWait cond mutex => waitEntry role .condWait cond mutex
  | .pthreadCondTimedwait cond mutex abstime => waitEntry role (.condTimedwait abstime) cond mutex
  | .pthreadCondTimedwaitRelativeNp cond mutex now reltime =>
    waitEntry role (.condTimedwait (deadline now reltime)) cond mutex
  | .pthreadCondBroadcast cond => wakeEntry role .condBroadcast cond
  | .pthreadCondSignal cond => wakeEntry role .condSignal cond

/-- A thread calls a function, makes its next step (with the block that
`malloc` returns if it needs one), or is told by glibc that its lock failed. -/
inductive Action
  | begin (t : Nat) (job : Job)
  | step (t q : Nat)
  | fail (t : Nat)
deriving DecidableEq

def step (role : Nat → ObjKind) (s : State) : Action → Option State
  | .begin t job => if s.pc t = .idle then (entry role s t job).map (s.goto t) else none
  | .step t q => advance s t q
  | .fail t =>
    match s.pc t with
    | .lockReturn _ _ => some (s.goto t .idle)
    | _ => none

def start (word : Nat → { v : Nat // v ≤ 0xFFFF }) : State :=
  ⟨⟨fun w => (word w).1, fun _ => none, []⟩, fun _ => .idle, .free Nat Nat Nat⟩

end FakeLibc.LazyInit

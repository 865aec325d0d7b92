import Mathlib.Logic.Function.Basic

namespace FakeLibc.PthreadWords

inductive MutexKind
  | normal | recursive | errorcheck
deriving DecidableEq

inductive ObjKind
  | mutex | cond
deriving DecidableEq

structure Obj where
  kind : ObjKind
  word : Nat
deriving DecidableEq

structure Timespec where
  sec : Int32
  nsec : Int32
deriving DecidableEq

inductive GlibcFn
  | mutexInit (attr : Option MutexKind)
  | mutexLock | mutexTrylock | mutexUnlock | mutexDestroy
  | condInit | condWait
  | condTimedwait (abstime : Timespec)
  | condSignal | condBroadcast | condDestroy
deriving DecidableEq

/-- A pointer passed to glibc, and what the wrapper passes it for. -/
structure Arg where
  obj : Obj
  ptr : Nat
deriving DecidableEq

structure GlibcCall where
  fn : GlibcFn
  args : List Arg
deriving DecidableEq

/-- The Android words, what `malloc` has handed out so far, and the calls that
glibc has seen. -/
structure Machine where
  word : Nat → Nat
  obj : Nat → Option Obj
  calls : List GlibcCall

def androidTopAddrValueMutex : Nat := 0xFFFF

def androidTopAddrValueCond : Nat := 0xFFFF

def einval : Int := 22

def Machine.store (m : Machine) (w v : Nat) : Machine :=
  { m with word := Function.update m.word w v }

def Machine.call (m : Machine) (fn : GlibcFn) (args : List Arg) : Machine :=
  { m with calls := m.calls ++ [⟨fn, args⟩] }

def Machine.alloc (m : Machine) (o : Obj) : Option Nat → Machine × Nat
  | some p => ({ m with obj := Function.update m.obj p (some o) }, p)
  | none => (m, 0)

def Fresh (m : Machine) : Option Nat → Prop
  | none => True
  | some p => 0xFFFF < p ∧ p < 0x100000000 ∧ m.obj p = none

instance (m : Machine) : (p : Option Nat) → Decidable (Fresh m p)
  | none => .isTrue trivial
  | some _ => inferInstanceAs (Decidable (_ ∧ _))

theorem alloc_obj_of_some {m : Machine} {o o' : Obj} {p q : Nat} (hp : Fresh m (some p))
    (hq : m.obj q = some o') : (m.alloc o (some p)).1.obj q = some o' := by
  have hne : q ≠ p := by
    rintro rfl
    rw [hp.2.2] at hq
    exact Option.some_ne_none o' hq.symm
  exact (Function.update_of_ne hne _ m.obj).trans hq

def allocInit (m : Machine) (init : GlibcFn) (o : Obj) (p : Option Nat) : Machine × Nat :=
  ((m.alloc o p).1.call init [⟨o, (m.alloc o p).2⟩], (m.alloc o p).2)

def hybrisSetMutexAttr (androidValue : Nat) : MutexKind :=
  if androidValue &&& 0x4000 ≠ 0 then .recursive
  else if androidValue &&& 0x8000 ≠ 0 then .errorcheck
  else .normal

def hybrisAllocInitMutex (m : Machine) (mutex androidMutex : Nat) (p : Option Nat) :
    Machine × Nat :=
  allocInit m (.mutexInit (some (hybrisSetMutexAttr androidMutex))) ⟨.mutex, mutex⟩ p

def hybrisAllocInitCond (m : Machine) (cond : Nat) (p : Option Nat) : Machine × Nat :=
  allocInit m .condInit ⟨.cond, cond⟩ p

def storeReal (w : Nat) (r : Machine × Nat) : Machine × Nat := (r.1.store w r.2, r.2)

/-- The wait functions' reading of a mutex word. -/
def realMutex (m : Machine) (mutex mvalue : Nat) (p : Option Nat) : Machine × Nat :=
  if mvalue ≤ androidTopAddrValueMutex then
    storeReal mutex (hybrisAllocInitMutex m mutex mvalue p)
  else (m, mvalue)

def realCond (m : Machine) (cond cvalue : Nat) (p : Option Nat) : Machine × Nat :=
  if cvalue ≤ androidTopAddrValueCond then storeReal cond (hybrisAllocInitCond m cond p)
  else (m, cvalue)

/-- In all of the following `ret` is what glibc's function returns. -/
def pthreadMutexInit (m : Machine) (mutex : Nat) (attr : Option MutexKind) (p : Option Nat)
    (ret : Int) : Machine × Int :=
  let m' := (storeReal mutex (m.alloc ⟨.mutex, mutex⟩ p)).1
  (m'.call (.mutexInit attr) [⟨⟨.mutex, mutex⟩, m'.word mutex⟩], ret)

/-- The word is read again after an object has been stored in it. -/
def pthreadMutexLock (m : Machine) (mutex : Nat) (p : Option Nat) (ret : Int) : Machine × Int :=
  let value := m.word mutex
  if value ≤ androidTopAddrValueMutex then
    let m' := (storeReal mutex (hybrisAllocInitMutex m mutex value p)).1
    (m'.call .mutexLock [⟨⟨.mutex, mutex⟩, m'.word mutex⟩], ret)
  else (m.call .mutexLock [⟨⟨.mutex, mutex⟩, value⟩], ret)

def pthreadMutexTrylock (m : Machine) (mutex : Nat) (ret : Int) : Machine × Int :=
  (m.call .mutexTrylock [⟨⟨.mutex, mutex⟩, m.word mutex⟩], ret)

def pthreadMutexUnlock (m : Machine) (mutex : Nat) (ret : Int) : Machine × Int :=
  (m.call .mutexUnlock [⟨⟨.mutex, mutex⟩, m.word mutex⟩], ret)

def pthreadMutexDestroy (m : Machine) (mutex : Nat) (ret : Int) : Machine × Int :=
  if m.word mutex = 0 then (m, einval)
  else (m.call .mutexDestroy [⟨⟨.mutex, mutex⟩, m.word mutex⟩], ret)

def pthreadCondInit (m : Machine) (cond : Nat) (p : Option Nat) (ret : Int) : Machine × Int :=
  let r := storeReal cond (m.alloc ⟨.cond, cond⟩ p)
  (r.1.call .condInit [⟨⟨.cond, cond⟩, r.2⟩], ret)

/-- The three wait functions, which differ in what they call. -/
def condWaitWith (fn : GlibcFn) (m : Machine) (cond mutex : Nat) (pc pm : Option Nat)
    (ret : Int) : Machine × Int :=
  let cvalue := m.word cond
  let mvalue := m.word mutex
  let rc := realCond m cond cvalue pc
  let rm := realMutex rc.1 mutex mvalue pm
  (rm.1.call fn [⟨⟨.cond, cond⟩, rc.2⟩, ⟨⟨.mutex, mutex⟩, rm.2⟩], ret)

def pthreadCondWait (m : Machine) (cond mutex : Nat) (pc pm : Option Nat) (ret : Int) :
    Machine × Int :=
  condWaitWith .condWait m cond mutex pc pm ret

def pthreadCondTimedwait (m : Machine) (cond mutex : Nat) (abstime : Timespec)
    (pc pm : Option Nat) (ret : Int) : Machine × Int :=
  condWaitWith (.condTimedwait abstime) m cond mutex pc pm ret

/-- The deadline that is `reltime` after `now`, in 32-bit arithmetic. -/
def deadline (now reltime : Timespec) : Timespec :=
  let tv : Timespec := ⟨now.sec + reltime.sec, now.nsec + reltime.nsec⟩
  if tv.nsec ≥ 1000000000 then ⟨tv.sec + 1, tv.nsec - 1000000000⟩ else tv

def pthreadCondTimedwaitRelativeNp (m : Machine) (cond mutex : Nat) (now reltime : Timespec)
    (pc pm : Option Nat) (ret : Int) : Machine × Int :=
  condWaitWith (.condTimedwait (deadline now reltime)) m cond mutex pc pm ret

/-- What glibc returns is dropped. `junk` is the local that is returned
instead and never assigned. -/
def pthreadCondDestroy (m : Machine) (cond : Nat) (_ret junk : Int) : Machine × Int :=
  if m.word cond = 0 then (m, einval)
  else ((m.call .condDestroy [⟨⟨.cond, cond⟩, m.word cond⟩]).store cond 0, junk)

def condWakeWith (fn : GlibcFn) (m : Machine) (cond : Nat) (p : Option Nat) (ret : Int) :
    Machine × Int :=
  let r := realCond m cond (m.word cond) p
  (r.1.call fn [⟨⟨.cond, cond⟩, r.2⟩], ret)

def pthreadCondBroadcast (m : Machine) (cond : Nat) (p : Option Nat) (ret : Int) :
    Machine × Int :=
  condWakeWith .condBroadcast m cond p ret

def pthreadCondSignal (m : Machine) (cond : Nat) (p : Option Nat) (ret : Int) : Machine × Int :=
  condWakeWith .condSignal m cond p ret

inductive Op
  | mutexInit (mutex : Nat) (attr : Option MutexKind) (p : Option Nat) (ret : Int)
  | mutexLock (mutex : Nat) (p : Option Nat) (ret : Int)
  | mutexTrylock (mutex : Nat) (ret : Int)
  | mutexUnlock (mutex : Nat) (ret : Int)
  | mutexDestroy (mutex : Nat) (ret : Int)
  | condInit (cond : Nat) (p : Option Nat) (ret : Int)
  | condWait (cond mutex : Nat) (pc pm : Option Nat) (ret : Int)
  | condTimedwait (cond mutex : Nat) (abstime : Timespec) (pc pm : Option Nat) (ret : Int)
  | condTimedwaitRelativeNp (cond mutex : Nat) (now reltime : Timespec) (pc pm : Option Nat)
      (ret : Int)
  | condDestroy (cond : Nat) (ret junk : Int)
  | condBroadcast (cond : Nat) (p : Option Nat) (ret : Int)
  | condSignal (cond : Nat) (p : Option Nat) (ret : Int)
deriving DecidableEq

def run (m : Machine) : Op → Machine × Int
  | .mutexInit mutex attr p ret => pthreadMutexInit m mutex attr p ret
  | .mutexLock mutex p ret => pthreadMutexLock m mutex p ret
  | .mutexTrylock mutex ret => pthreadMutexTrylock m mutex ret
  | .mutexUnlock mutex ret => pthreadMutexUnlock m mutex ret
  | .mutexDestroy mutex ret => pthreadMutexDestroy m mutex ret
  | .condInit cond p ret => pthreadCondInit m cond p ret
  | .condWait cond mutex pc pm ret => pthreadCondWait m cond mutex pc pm ret
  | .condTimedwait cond mutex abstime pc pm ret =>
    pthreadCondTimedwait m cond mutex abstime pc pm ret
  | .condTimedwaitRelativeNp cond mutex now reltime pc pm ret =>
    pthreadCondTimedwaitRelativeNp m cond mutex now reltime pc pm ret
  | .condDestroy cond ret junk => pthreadCondDestroy m cond ret junk
  | .condBroadcast cond p ret => pthreadCondBroadcast m cond p ret
  | .condSignal cond p ret => pthreadCondSignal m cond p ret

end FakeLibc.PthreadWords

import FakeLibc.Lib.Observe
import FakeLibc.PthreadPointers
import Mathlib.Data.List.Basic
import Mathlib.Data.Nat.Bitwise

namespace FakeLibc.MutexKinds

open FakeLibc.Lib.Run FakeLibc.Lib.Observe FakeLibc.PthreadWords

abbrev Thread := Nat

/-- The real mutexes and conds. A new mutex depends on its kind alone, and a
call on what its objects are. A call that does not return is `none`. -/
structure Glibc where
  Mutex : Type
  Cond : Type
  newMutex : MutexKind → Mutex
  newCond : Cond
  lock : Thread → Mutex → Option (Mutex × Int)
  trylock : Thread → Mutex → Option (Mutex × Int)
  unlock : Thread → Mutex → Option (Mutex × Int)
  wait : Thread → Option Timespec → Cond → Mutex → Option (Cond × Mutex × Int)

structure Heap (g : Glibc) where
  mutex : Nat → g.Mutex
  cond : Nat → g.Cond

def Heap.setMutex {g : Glibc} (h : Heap g) (p : Nat) (x : g.Mutex) : Heap g :=
  { h with mutex := Function.update h.mutex p x }

def Heap.setCond {g : Glibc} (h : Heap g) (p : Nat) (x : g.Cond) : Heap g :=
  { h with cond := Function.update h.cond p x }

section Glibc

variable (g : Glibc)

def Glibc.serveMutex (f : g.Mutex → Option (g.Mutex × Int)) (h : Heap g) (x : Arg) :
    Option (Heap g × Int) :=
  (f (h.mutex x.ptr)).map (fun r => (h.setMutex x.ptr r.1, r.2))

def Glibc.serveWait (t : Thread) (abstime : Option Timespec) (h : Heap g) (c x : Arg) :
    Option (Heap g × Int) :=
  (g.wait t abstime (h.cond c.ptr) (h.mutex x.ptr)).map
    (fun r => ((h.setCond c.ptr r.1).setMutex x.ptr r.2.1, r.2.2))

def Glibc.serve (t : Thread) (h : Heap g) (call : GlibcCall) : Option (Heap g × Int) :=
  match call.fn, call.args with
  | .mutexInit attr, [x] => some (h.setMutex x.ptr (g.newMutex (attr.getD .normal)), 0)
  | .condInit, [c] => some (h.setCond c.ptr g.newCond, 0)
  | .mutexLock, [x] => g.serveMutex (g.lock t) h x
  | .mutexTrylock, [x] => g.serveMutex (g.trylock t) h x
  | .mutexUnlock, [x] => g.serveMutex (g.unlock t) h x
  | .condWait, [c, x] => g.serveWait t none h c x
  | .condTimedwait abstime, [c, x] => g.serveWait t (some abstime) h c x
  | _, _ => none

def Glibc.serveAll (t : Thread) (h : Heap g) (calls : List GlibcCall) : Option (Heap g × Int) :=
  calls.foldlM (fun r call => g.serve t r.1 call) (h, 0)

structure World where
  m : Machine
  heap : Heap g

variable {g}

/-- A function of the program, which waits for the result of glibc. -/
def World.perform (s : World g) (t : Thread) (op : Int → Op) : Option (World g × Int) :=
  (g.serveAll t s.heap ((run s.m (op 0)).1.calls.drop s.m.calls.length)).map
    (fun r => (⟨(run s.m (op 0)).1, r.1⟩, (run s.m (op r.2)).2))

end Glibc

inductive Call
  | lock
  | trylock
  | unlock
  | wait (cond : Nat)
  | timedwait (cond : Nat) (abstime : Timespec)
  | timedwaitRelative (cond : Nat) (now reltime : Timespec)
deriving DecidableEq

/-- The functions that look for an initialiser in the mutex word. -/
def Call.Materialises : Call → Prop
  | .trylock | .unlock => False
  | _ => True

instance (c : Call) : Decidable c.Materialises := by
  cases c <;> simp only [Call.Materialises] <;> infer_instance

def Call.cond? : Call → Option Nat
  | .wait cond | .timedwait cond _ | .timedwaitRelative cond _ _ => some cond
  | _ => none

structure Action where
  thread : Thread
  call : Call
  pc : Nat
  pm : Nat
deriving DecidableEq

def Action.op (mutex : Nat) (a : Action) (ret : Int) : Op :=
  match a.call with
  | .lock => .mutexLock mutex (some a.pm) ret
  | .trylock => .mutexTrylock mutex ret
  | .unlock => .mutexUnlock mutex ret
  | .wait cond => .condWait cond mutex (some a.pc) (some a.pm) ret
  | .timedwait cond abstime => .condTimedwait cond mutex abstime (some a.pc) (some a.pm) ret
  | .timedwaitRelative cond now reltime =>
    .condTimedwaitRelativeNp cond mutex now reltime (some a.pc) (some a.pm) ret

def step {g : Glibc} (mutex : Nat) (s : World g) (a : Action) : Option (World g × Int) :=
  s.perform a.thread (a.op mutex)

def Fresh {g : Glibc} (mutex : Nat) (s : World g) (a : Action) : Prop :=
  (s.m.word mutex ≤ androidTopAddrValueMutex → PthreadWords.Fresh s.m (some a.pm)) ∧
  ∀ cond ∈ a.call.cond?, s.m.word cond ≤ androidTopAddrValueCond →
    PthreadWords.Fresh s.m (some a.pc) ∧ a.pc ≠ a.pm

instance {g : Glibc} (mutex : Nat) (s : World g) (a : Action) : Decidable (Fresh mutex s a) :=
  inferInstanceAs (Decidable (_ ∧ _))

def kindOf (v : Nat) : MutexKind :=
  if v.testBit 14 then .recursive else if v.testBit 15 then .errorcheck else .normal

theorem hybrisSetMutexAttr_eq_kindOf (v : Nat) : hybrisSetMutexAttr v = kindOf v := by
  have hbit (i : Nat) : v &&& 2 ^ i ≠ 0 ↔ v.testBit i = true := by
    rw [Nat.and_two_pow]
    cases v.testBit i <;> simp
  have h14 : v &&& 0x4000 ≠ 0 ↔ v.testBit 14 = true := hbit 14
  have h15 : v &&& 0x8000 ≠ 0 ↔ v.testBit 15 = true := hbit 15
  simp only [hybrisSetMutexAttr, kindOf, h14, h15]

/-- What the words stand for: a mutex and the conds, made or still to be made. -/
structure Objects (g : Glibc) where
  mutex : g.Mutex
  cond : Nat → g.Cond

def Objects.onMutex {g : Glibc} (x : Objects g) (f : g.Mutex → Option (g.Mutex × Int)) :
    Option (Objects g × Int) :=
  (f x.mutex).map (fun r => ({ x with mutex := r.1 }, r.2))

def Objects.onWait {g : Glibc} (x : Objects g) (t : Thread) (abstime : Option Timespec)
    (cond : Nat) : Option (Objects g × Int) :=
  (g.wait t abstime (x.cond cond) x.mutex).map
    (fun r => (⟨r.2.1, Function.update x.cond cond r.1⟩, r.2.2))

def Objects.step {g : Glibc} (x : Objects g) (a : Thread × Call) : Option (Objects g × Int) :=
  match a.2 with
  | .lock => x.onMutex (g.lock a.1)
  | .trylock => x.onMutex (g.trylock a.1)
  | .unlock => x.onMutex (g.unlock a.1)
  | .wait cond => x.onWait a.1 none cond
  | .timedwait cond abstime => x.onWait a.1 (some abstime) cond
  | .timedwaitRelative cond now reltime => x.onWait a.1 (some (deadline now reltime)) cond

structure Holds {X : Type} (m : Machine) (heap : Nat → X) (o : Obj) (x : X) : Prop where
  high : 0xFFFF < m.word o.word
  obj : m.obj (m.word o.word) = some o
  here : heap (m.word o.word) = x

def Stands {X : Type} (m : Machine) (heap : Nat → X) (o : Obj) (init x : X) : Prop :=
  (m.word o.word ≤ 0xFFFF ∧ x = init) ∨ Holds m heap o x

/-- The words of a history, the mutex and those conds that `conds` names. -/
structure Models {g : Glibc} (mutex : Nat) (conds : Nat → Prop) (s : World g) (x : Objects g) :
    Prop where
  apart : ¬ conds mutex
  mutex : Stands s.m s.heap.mutex ⟨.mutex, mutex⟩ (g.newMutex (kindOf (s.m.word mutex))) x.mutex
  cond : ∀ c, conds c → Stands s.m s.heap.cond ⟨.cond, c⟩ g.newCond (x.cond c)

section Reading

variable {X : Type} {m m' : Machine} {heap heap' : Nat → X} {o o' : Obj} {init x : X}

theorem Holds.of_stands (h : Stands m heap o init x) (hv : 0xFFFF < m.word o.word) :
    Holds m heap o x :=
  h.resolve_left (fun hl => absurd hl.1 (not_le.mpr hv))

theorem Stands.low (h : Stands m heap o init x) (hv : m.word o.word ≤ 0xFFFF) : x = init := by
  obtain ⟨_, hx⟩ | hh := h
  · exact hx
  · exact absurd hh.high (not_lt.mpr hv)

theorem Holds.ne (h : Holds m heap o x) (hne : o ≠ o') {p : Nat} (hp : m.obj p = some o') :
    m.word o.word ≠ p := by
  intro heq
  rw [← heq, h.obj] at hp
  exact hne (Option.some.inj hp)

/-- Nothing happens to the word and its object. -/
theorem Stands.frame (h : Stands m heap o init x) (hword : m'.word o.word = m.word o.word)
    (hobj : Holds m heap o x → m'.obj (m.word o.word) = some o ∧
      heap' (m.word o.word) = heap (m.word o.word)) :
    Stands m' heap' o init x := by
  obtain ⟨hl, hx⟩ | hh := h
  · exact .inl ⟨hword ▸ hl, hx⟩
  · obtain ⟨ho, hhere⟩ := hobj hh
    refine .inr ⟨hword ▸ hh.high, ?_, ?_⟩
    · rw [hword, ho]
    · rw [hword, hhere, hh.here]

theorem Holds.set (h : Holds m heap o x) (y : X) :
    Holds m (Function.update heap (m.word o.word) y) o y :=
  ⟨h.high, h.obj, Function.update_self ..⟩

theorem Stands.set_other (h : Stands m heap o init x) (hne : o ≠ o') {p : Nat}
    (hp : m.obj p = some o') (y : X) : Stands m (Function.update heap p y) o init x :=
  h.frame rfl (fun hh => ⟨hh.obj, Function.update_of_ne (hh.ne hne hp) y heap⟩)

end Reading

section Opening

variable {g : Glibc} {mutex : Nat} {conds : Nat → Prop} {s : World g} {x : Objects g}

structure Opened (mutex : Nat) (conds : Nat → Prop) (s : World g) (x : Objects g) (w p : Nat)
    (r : Machine × Nat) (h : Heap g) : Prop where
  calls : ∃ new, r.1.calls = s.m.calls ++ new ∧ ∀ t, g.serveAll t s.heap new = some (h, 0)
  models : Models mutex conds ⟨r.1, h⟩ x
  ptr : r.2 = r.1.word w
  high : 0xFFFF < r.1.word w
  word : ∀ y ≠ w, r.1.word y = s.m.word y
  fresh : ∀ q, PthreadWords.Fresh s.m (some q) → (s.m.word w ≤ 0xFFFF → p ≠ q) →
    PthreadWords.Fresh r.1 (some q)

theorem opened_high (hs : Models mutex conds s x) {w : Nat} (hv : 0xFFFF < s.m.word w) (p : Nat) :
    Opened mutex conds s x w p (s.m, s.m.word w) s.heap :=
  ⟨⟨[], (List.append_nil _).symm, fun _ => rfl⟩, hs, rfl, hv, fun _ _ => rfl, fun _ hq _ => hq⟩

theorem opened_new {o : Obj} {p : Nat} {init : GlibcFn} {h : Heap g}
    (hserve : ∀ t, g.serve t s.heap ⟨init, [⟨o, p⟩]⟩ = some (h, 0))
    (hv : s.m.word o.word ≤ 0xFFFF) (hp : PthreadWords.Fresh s.m (some p))
    (hmodels : Models mutex conds
      ⟨(storeReal o.word (allocInit s.m init o (some p))).1, h⟩ x) :
    Opened mutex conds s x o.word p (storeReal o.word (allocInit s.m init o (some p))) h := by
  have hself : (storeReal o.word (allocInit s.m init o (some p))).1.word o.word = p :=
    Function.update_self ..
  refine ⟨⟨[⟨init, [⟨o, p⟩]⟩], rfl, fun t => ?_⟩, hmodels, hself.symm, ?_, ?_, ?_⟩
  · simp only [Glibc.serveAll, List.foldlM_cons, hserve, Option.bind_eq_bind, Option.bind_some,
      List.foldlM_nil, Option.pure_def]
  · rw [hself]
    exact hp.1
  · exact fun y hy => Function.update_of_ne hy _ s.m.word
  · intro q hq hne
    exact ⟨hq.1, hq.2.1, (Function.update_of_ne (hne hv).symm _ s.m.obj).trans hq.2.2⟩

theorem stands_new {X : Type} {heap heap' : Nat → X} {o o' : Obj} {init : X} {y : X} {p : Nat}
    {fn : GlibcFn} (h : Stands s.m heap o' init y) (hw : o'.word ≠ o.word)
    (hp : PthreadWords.Fresh s.m (some p)) (hheap : ∀ q ≠ p, heap' q = heap q) :
    Stands (storeReal o.word (allocInit s.m fn o (some p))).1 heap' o' init y := by
  refine h.frame (Function.update_of_ne hw _ s.m.word) (fun hh => ?_)
  have hne : s.m.word o'.word ≠ p := by
    intro heq
    have hobj := hh.obj
    rw [heq, hp.2.2] at hobj
    exact Option.some_ne_none _ hobj.symm
  exact ⟨(Function.update_of_ne hne _ s.m.obj).trans hh.obj, hheap _ hne⟩

theorem holds_new {X : Type} {heap : Nat → X} {o : Obj} {y : X} {p : Nat} {fn : GlibcFn}
    (hp : PthreadWords.Fresh s.m (some p)) (hy : heap p = y) :
    Holds (storeReal o.word (allocInit s.m fn o (some p))).1 heap o y := by
  have hself : (storeReal o.word (allocInit s.m fn o (some p))).1.word o.word = p :=
    Function.update_self ..
  refine ⟨?_, ?_, ?_⟩
  · rw [hself]
    exact hp.1
  · rw [hself]
    exact Function.update_self ..
  · rw [hself, hy]

theorem opened_mutex (hs : Models mutex conds s x) {p : Nat}
    (hp : s.m.word mutex ≤ 0xFFFF → PthreadWords.Fresh s.m (some p)) :
    ∃ h, Opened mutex conds s x mutex p (realMutex s.m mutex (s.m.word mutex) (some p)) h := by
  unfold realMutex
  split
  next hv =>
    have hkind : x.mutex = g.newMutex (hybrisSetMutexAttr (s.m.word mutex)) := by
      rw [hybrisSetMutexAttr_eq_kindOf]
      exact hs.mutex.low hv
    refine ⟨s.heap.setMutex p x.mutex,
      opened_new (o := ⟨.mutex, mutex⟩) (fun t => ?_) hv (hp hv) ?_⟩
    · rw [hkind]
      rfl
    · refine ⟨hs.apart, .inr (holds_new (hp hv) (Function.update_self ..)), fun c hc => ?_⟩
      have hne : c ≠ mutex := fun heq => hs.apart (heq ▸ hc)
      exact stands_new (hs.cond c hc) hne (hp hv) (fun _ _ => rfl)
  next hv => exact ⟨s.heap, opened_high hs (not_le.mp hv) p⟩

theorem opened_cond (hs : Models mutex conds s x) {cond p : Nat} (hc : conds cond)
    (hp : s.m.word cond ≤ 0xFFFF → PthreadWords.Fresh s.m (some p)) :
    ∃ h, Opened mutex conds s x cond p (realCond s.m cond (s.m.word cond) (some p)) h := by
  have hne : mutex ≠ cond := fun heq => hs.apart (heq ▸ hc)
  unfold realCond
  split
  next hv =>
    have hnew : x.cond cond = g.newCond := (hs.cond cond hc).low hv
    refine ⟨s.heap.setCond p (x.cond cond),
      opened_new (o := ⟨.cond, cond⟩) (fun t => ?_) hv (hp hv) ?_⟩
    · rw [hnew]
      rfl
    · refine ⟨hs.apart, ?_, fun c hc' => ?_⟩
      · have hword : (storeReal cond (hybrisAllocInitCond s.m cond (some p))).1.word mutex =
            s.m.word mutex := Function.update_of_ne hne _ s.m.word
        have hmutex : Stands (storeReal cond (hybrisAllocInitCond s.m cond (some p))).1
            s.heap.mutex ⟨.mutex, mutex⟩ (g.newMutex (kindOf (s.m.word mutex))) x.mutex :=
          stands_new (o := ⟨.cond, cond⟩) hs.mutex hne (hp hv) (fun _ _ => rfl)
        rw [← hword] at hmutex
        exact hmutex
      · by_cases hcc : c = cond
        · subst c
          exact .inr (holds_new (hp hv) (Function.update_self ..))
        · exact stands_new (hs.cond c hc') hcc (hp hv)
            (fun q hq => Function.update_of_ne hq _ s.heap.cond)
  next hv => exact ⟨s.heap, opened_high hs (not_le.mp hv) p⟩

end Opening

section Simulation

variable {g : Glibc} {mutex : Nat} {conds : Nat → Prop} {s : World g} {x : Objects g}

theorem serveAll_snoc {t : Thread} {h h' : Heap g} {calls : List GlibcCall}
    (hcalls : g.serveAll t h calls = some (h', 0)) (call : GlibcCall) :
    g.serveAll t h (calls ++ [call]) = g.serve t h' call := by
  rw [Glibc.serveAll] at hcalls ⊢
  simp only [List.foldlM_append, hcalls, Option.bind_eq_bind, Option.bind_some, List.foldlM_cons,
    List.foldlM_nil, Option.pure_def, Option.bind_fun_some]

theorem perform_eq {t : Thread} {op : Int → Op} {m : Machine} {h : Heap g} {fn : GlibcFn}
    {args : List Arg} (hrun : ∀ ret, run s.m (op ret) = (m.call fn args, ret))
    (hcalls : ∃ new, m.calls = s.m.calls ++ new ∧ ∀ t, g.serveAll t s.heap new = some (h, 0)) :
    s.perform t op =
      (g.serve t h ⟨fn, args⟩).map (fun r => (⟨m.call fn args, r.1⟩, r.2)) := by
  obtain ⟨new, hnew, hserve⟩ := hcalls
  have hdrop : (m.call fn args).calls.drop s.m.calls.length = new ++ [⟨fn, args⟩] := by
    rw [Machine.call, hnew, List.append_assoc, List.drop_left]
  simp only [World.perform, hrun, hdrop, serveAll_snoc (hserve t)]

theorem rel_map {α β γ : Type*} {R : β → γ → Prop} {f : α → β} {f' : α → γ} (o : Option α)
    (h : ∀ a, R (f a) (f' a)) : Option.Rel R (o.map f) (o.map f') := by
  cases o with
  | none => exact .none
  | some a => exact .some (h a)

def Agree (mutex : Nat) (conds : Nat → Prop) (r : World g × Int) (r' : Objects g × Int) : Prop :=
  Models mutex conds r.1 r'.1 ∧ r.2 = r'.2

theorem Models.call {m : Machine} {h : Heap g} (hs : Models mutex conds ⟨m, h⟩ x) (fn : GlibcFn)
    (args : List Arg) : Models mutex conds ⟨m.call fn args, h⟩ x :=
  ⟨hs.apart, hs.mutex.imp_right (fun hh => ⟨hh.high, hh.obj, hh.here⟩),
    fun c hc => (hs.cond c hc).imp_right (fun hh => ⟨hh.high, hh.obj, hh.here⟩)⟩

theorem Models.setMutex {m : Machine} {h : Heap g} (hs : Models mutex conds ⟨m, h⟩ x)
    (hv : 0xFFFF < m.word mutex) (y : g.Mutex) :
    Models mutex conds ⟨m, h.setMutex (m.word mutex) y⟩ { x with mutex := y } := by
  have hm : Holds m h.mutex ⟨.mutex, mutex⟩ x.mutex := .of_stands hs.mutex hv
  exact ⟨hs.apart, .inr (hm.set y), hs.cond⟩

theorem Models.setCond {m : Machine} {h : Heap g} (hs : Models mutex conds ⟨m, h⟩ x) {cond : Nat}
    (hc : conds cond) (hv : 0xFFFF < m.word cond) (y : g.Cond) :
    Models mutex conds ⟨m, h.setCond (m.word cond) y⟩
      { x with cond := Function.update x.cond cond y } := by
  have hx : Holds m h.cond ⟨.cond, cond⟩ (x.cond cond) := .of_stands (hs.cond cond hc) hv
  refine ⟨hs.apart, hs.mutex, fun c hc' => ?_⟩
  by_cases hcc : c = cond
  · subst c
    simp only [Function.update_self]
    exact .inr (hx.set y)
  · have hne : (⟨.cond, c⟩ : Obj) ≠ ⟨.cond, cond⟩ := fun heq => hcc (Obj.mk.inj heq).2
    simp only [Function.update_of_ne hcc]
    exact (hs.cond c hc').set_other hne hx.obj y

theorem agree_onMutex {m : Machine} {h : Heap g} {fn : GlibcFn}
    (f : g.Mutex → Option (g.Mutex × Int)) (hs : Models mutex conds ⟨m, h⟩ x)
    (hv : 0xFFFF < m.word mutex) :
    Option.Rel (Agree mutex conds)
      ((g.serveMutex f h ⟨⟨.mutex, mutex⟩, m.word mutex⟩).map
        (fun r => (⟨m.call fn [⟨⟨.mutex, mutex⟩, m.word mutex⟩], r.1⟩, r.2)))
      (x.onMutex f) := by
  have hm : Holds m h.mutex ⟨.mutex, mutex⟩ x.mutex := .of_stands hs.mutex hv
  have hhere : h.mutex (m.word mutex) = x.mutex := hm.here
  simp only [Glibc.serveMutex, Objects.onMutex, hhere, Option.map_map]
  exact rel_map _ (fun r => ⟨(hs.setMutex hv r.1).call _ _, rfl⟩)

theorem agree_onWait {m : Machine} {h : Heap g} {fn : GlibcFn} {cond : Nat} (t : Thread)
    (abstime : Option Timespec) (hs : Models mutex conds ⟨m, h⟩ x) (hc : conds cond)
    (hmv : 0xFFFF < m.word mutex) (hcv : 0xFFFF < m.word cond) :
    Option.Rel (Agree mutex conds)
      ((g.serveWait t abstime h ⟨⟨.cond, cond⟩, m.word cond⟩ ⟨⟨.mutex, mutex⟩, m.word mutex⟩).map
        (fun r => (⟨m.call fn [⟨⟨.cond, cond⟩, m.word cond⟩,
          ⟨⟨.mutex, mutex⟩, m.word mutex⟩], r.1⟩, r.2)))
      (x.onWait t abstime cond) := by
  have hm : Holds m h.mutex ⟨.mutex, mutex⟩ x.mutex := .of_stands hs.mutex hmv
  have hx : Holds m h.cond ⟨.cond, cond⟩ (x.cond cond) := .of_stands (hs.cond cond hc) hcv
  have hmhere : h.mutex (m.word mutex) = x.mutex := hm.here
  have hchere : h.cond (m.word cond) = x.cond cond := hx.here
  simp only [Glibc.serveWait, Objects.onWait, hmhere, hchere, Option.map_map]
  exact rel_map _ (fun r => ⟨((hs.setCond hc hcv r.1).setMutex hmv r.2.1).call _ _, rfl⟩)

def Named (conds : Nat → Prop) (c : Call) : Prop := ∀ cond, c.cond? = some cond → conds cond

theorem condWaitWith_opened (hs : Models mutex conds s x) {cond pc pm : Nat} (hc : conds cond)
    (hpc : s.m.word cond ≤ 0xFFFF → PthreadWords.Fresh s.m (some pc) ∧ pc ≠ pm)
    (hpm : s.m.word mutex ≤ 0xFFFF → PthreadWords.Fresh s.m (some pm)) (fn : GlibcFn) :
    ∃ (m : Machine) (h : Heap g),
      (∀ ret, condWaitWith fn s.m cond mutex (some pc) (some pm) ret =
        (m.call fn [⟨⟨.cond, cond⟩, m.word cond⟩, ⟨⟨.mutex, mutex⟩, m.word mutex⟩], ret)) ∧
      (∃ new, m.calls = s.m.calls ++ new ∧ ∀ t, g.serveAll t s.heap new = some (h, 0)) ∧
      Models mutex conds ⟨m, h⟩ x ∧ 0xFFFF < m.word mutex ∧ 0xFFFF < m.word cond := by
  have hne : mutex ≠ cond := fun heq => hs.apart (heq ▸ hc)
  obtain ⟨hc₁, hcond⟩ := opened_cond hs hc (fun hv => (hpc hv).1)
  have hword := hcond.word mutex hne
  have hfresh : (realCond s.m cond (s.m.word cond) (some pc)).1.word mutex ≤ 0xFFFF →
      PthreadWords.Fresh (realCond s.m cond (s.m.word cond) (some pc)).1 (some pm) := by
    intro hv
    exact hcond.fresh pm (hpm (hword ▸ hv)) (fun hv => (hpc hv).2)
  obtain ⟨hm₁, hmutex⟩ := opened_mutex hcond.models hfresh
  simp only [hword] at hmutex
  have hcword := hmutex.word cond (Ne.symm hne)
  refine ⟨_, hm₁, fun ret => ?_, ?_, hmutex.models, hmutex.high, hcword ▸ hcond.high⟩
  · rw [condWaitWith, hcword, ← hmutex.ptr, ← hcond.ptr]
  · obtain ⟨new, hnew, hserve⟩ := hcond.calls
    obtain ⟨new', hnew', hserve'⟩ := hmutex.calls
    refine ⟨new ++ new', ?_, fun t => ?_⟩
    · rw [hnew', hnew, List.append_assoc]
    · have h₁ := hserve t
      have h₂ := hserve' t
      rw [Glibc.serveAll] at h₁ h₂ ⊢
      simp only [List.foldlM_append, h₁, Option.bind_eq_bind, Option.bind_some, h₂]

/-- A call of the history, with the condition on a first call. -/
structure Allowed (mutex : Nat) (conds : Nat → Prop) (s : World g) (a : Action) : Prop where
  fresh : Fresh mutex s a
  named : Named conds a.call
  opens : s.m.word mutex ≤ 0xFFFF → a.call.Materialises

theorem agree_wait {a : Action} {cond : Nat} {fn : GlibcFn} {abstime : Option Timespec}
    (hs : Models mutex conds s x) (ha : Fresh mutex s a) (hc : conds cond)
    (hcond : a.call.cond? = some cond)
    (hrun : ∀ ret, run s.m (a.op mutex ret) =
      condWaitWith fn s.m cond mutex (some a.pc) (some a.pm) ret)
    (hserve : ∀ t h c y, g.serve t h ⟨fn, [c, y]⟩ = g.serveWait t abstime h c y) :
    Option.Rel (Agree mutex conds) (step mutex s a) (x.onWait a.thread abstime cond) := by
  obtain ⟨m, h, hwait, hcalls, hmodels, hmv, hcv⟩ :=
    condWaitWith_opened hs hc (ha.2 cond hcond) ha.1 fn
  rw [step, perform_eq (fun ret => (hrun ret).trans (hwait ret)) hcalls, hserve]
  exact agree_onWait a.thread abstime hmodels hc hmv hcv

theorem agree_mutex {a : Action} {fn : GlibcFn} {f : g.Mutex → Option (g.Mutex × Int)}
    {r : Machine × Nat} {p : Nat} {h : Heap g} (ho : Opened mutex conds s x mutex p r h)
    (hrun : ∀ ret, run s.m (a.op mutex ret) = (r.1.call fn [⟨⟨.mutex, mutex⟩, r.2⟩], ret))
    (hserve : ∀ h y, g.serve a.thread h ⟨fn, [y]⟩ = g.serveMutex f h y) :
    Option.Rel (Agree mutex conds) (step mutex s a) (x.onMutex f) := by
  rw [step, perform_eq hrun ho.calls, hserve, ho.ptr]
  exact agree_onMutex f ho.models ho.high

/-- The functions of the program do to the objects behind the words what the
calls do to the objects themselves. -/
theorem simulation (mutex : Nat) (conds : Nat → Prop) :
    Simulation (step (g := g) mutex) Objects.step (fun a => (a.thread, a.call))
      (Allowed mutex conds) (Models mutex conds) := by
  rintro s x ⟨t, call, pc, pm⟩ hs ⟨ha, hnamed, hopens⟩
  cases call with
  | lock =>
    obtain ⟨h, ho⟩ := opened_mutex hs ha.1
    exact agree_mutex ho (PthreadPointers.pthreadMutexLock_eq s.m mutex (some pm))
      (fun _ _ => rfl)
  | trylock | unlock =>
    exact agree_mutex (opened_high hs (not_le.mp hopens) 0) (fun _ => rfl) (fun _ _ => rfl)
  | wait cond | timedwait cond abstime | timedwaitRelative cond now reltime =>
    exact agree_wait hs ha (hnamed cond rfl) rfl (fun _ => rfl) (fun _ _ _ _ => rfl)

end Simulation

def makes (mutex : Nat) (c : GlibcCall) : Bool :=
  match c.fn with
  | .mutexInit _ => c.args.any (fun a => a.obj = ⟨.mutex, mutex⟩)
  | _ => false

def made (m : Machine) (mutex : Nat) : Nat := m.calls.countP (makes mutex)

section Made

variable {g : Glibc} {mutex : Nat} {m : Machine}

theorem made_call (m : Machine) (mutex : Nat) (fn : GlibcFn) (args : List Arg) :
    made (m.call fn args) mutex = made m mutex + if makes mutex ⟨fn, args⟩ then 1 else 0 := by
  simp [made, Machine.call, List.countP_append, List.countP_cons]

def Kept (mutex : Nat) (m m' : Machine) : Prop :=
  m'.word mutex = m.word mutex ∧ made m' mutex = made m mutex

theorem kept_call {m' : Machine} (h : Kept mutex m m') {fn : GlibcFn} {args : List Arg}
    (hfn : makes mutex ⟨fn, args⟩ = false) : Kept mutex m (m'.call fn args) := by
  refine ⟨h.1, ?_⟩
  rw [made_call, hfn, h.2]
  rfl

theorem kept_realCond {cond : Nat} (hne : cond ≠ mutex) (p : Option Nat) :
    Kept mutex m (realCond m cond (m.word cond) p).1 := by
  unfold realCond
  split
  · cases p <;> refine ⟨Function.update_of_ne (Ne.symm hne) _ m.word, ?_⟩ <;>
      exact made_call _ mutex .condInit _
  · exact ⟨rfl, rfl⟩

theorem kept_realMutex (hv : 0xFFFF < m.word mutex) (p : Option Nat) :
    Kept mutex m (realMutex m mutex (m.word mutex) p).1 := by
  rw [realMutex, androidTopAddrValueMutex, if_neg (not_le.mpr hv)]
  exact ⟨rfl, rfl⟩

theorem made_realMutex (hv : m.word mutex ≤ 0xFFFF) (p : Nat) :
    (realMutex m mutex (m.word mutex) (some p)).1.word mutex = p ∧
      made (realMutex m mutex (m.word mutex) (some p)).1 mutex = made m mutex + 1 := by
  rw [realMutex, androidTopAddrValueMutex, if_pos hv]
  refine ⟨Function.update_self .., ?_⟩
  have hcall := made_call (m.alloc ⟨.mutex, mutex⟩ (some p)).1 mutex
    (.mutexInit (some (hybrisSetMutexAttr (m.word mutex)))) [⟨⟨.mutex, mutex⟩, p⟩]
  rw [if_pos (by simp [makes])] at hcall
  exact hcall

theorem Kept.trans {m' m'' : Machine} (h : Kept mutex m m') (h' : Kept mutex m' m'') :
    Kept mutex m m'' :=
  ⟨h'.1.trans h.1, h'.2.trans h.2⟩

theorem kept_wait {cond : Nat} (hne : cond ≠ mutex) (hv : 0xFFFF < m.word mutex) {fn : GlibcFn}
    (hfn : ∀ args, makes mutex ⟨fn, args⟩ = false) (pc pm : Option Nat) (ret : Int) :
    Kept mutex m (condWaitWith fn m cond mutex pc pm ret).1 := by
  have hc := kept_realCond (m := m) hne pc
  have hm := kept_realMutex (m := (realCond m cond (m.word cond) pc).1) (hc.1.symm ▸ hv) pm
  rw [hc.1] at hm
  exact kept_call (hc.trans hm) (hfn _)

theorem made_wait {cond : Nat} (hne : cond ≠ mutex) (hv : m.word mutex ≤ 0xFFFF) {fn : GlibcFn}
    (hfn : ∀ args, makes mutex ⟨fn, args⟩ = false) (pc : Option Nat) (pm : Nat) (ret : Int) :
    (condWaitWith fn m cond mutex pc (some pm) ret).1.word mutex = pm ∧
      made (condWaitWith fn m cond mutex pc (some pm) ret).1 mutex = made m mutex + 1 := by
  have hc := kept_realCond (m := m) hne pc
  have hm := made_realMutex (m := (realCond m cond (m.word cond) pc).1) (hc.1.symm ▸ hv) pm
  rw [hc.1] at hm
  refine ⟨hm.1, ?_⟩
  rw [condWaitWith, made_call, hfn, hm.2, hc.2]
  rfl

/-- Once the word holds an address it keeps it. -/
theorem kept_run {a : Action} (hne : a.call.cond? ≠ some mutex) (hv : 0xFFFF < m.word mutex) :
    Kept mutex m (run m (a.op mutex 0)).1 := by
  rcases a with ⟨t, call, pc, pm⟩
  cases call with
  | lock =>
    simp only [Action.op, run, PthreadPointers.pthreadMutexLock_eq]
    exact kept_call (kept_realMutex hv _) rfl
  | trylock | unlock => exact kept_call ⟨rfl, rfl⟩ rfl
  | wait cond | timedwait cond abstime | timedwaitRelative cond now reltime =>
    exact kept_wait (fun heq => hne (congrArg some heq)) hv (fun _ => rfl) _ _ _

theorem made_run {a : Action} (hne : a.call.cond? ≠ some mutex) (hv : m.word mutex ≤ 0xFFFF)
    (ha : a.call.Materialises) :
    (run m (a.op mutex 0)).1.word mutex = a.pm ∧
      made (run m (a.op mutex 0)).1 mutex = made m mutex + 1 := by
  rcases a with ⟨t, call, pc, pm⟩
  cases call with
  | lock =>
    obtain ⟨hw, hn⟩ := made_realMutex hv pm
    simp only [Action.op, run, PthreadPointers.pthreadMutexLock_eq]
    refine ⟨hw, ?_⟩
    rw [made_call, hn]
    rfl
  | trylock | unlock => exact absurd ha id
  | wait cond | timedwait cond abstime | timedwaitRelative cond now reltime =>
    exact made_wait (fun heq => hne (congrArg some heq)) hv (fun _ => rfl) _ _ _

variable {s t : World g} {a : Action} {as : List Action}

theorem advance_m (h : advance (step mutex) s a = some t) : t.m = (run s.m (a.op mutex 0)).1 := by
  simp only [advance, step, World.perform, Option.map_map, Option.map_eq_some_iff] at h
  obtain ⟨r, _, rfl⟩ := h
  rfl

theorem kept_exec (hne : ∀ a ∈ as, a.call.cond? ≠ some mutex) (hv : 0xFFFF < s.m.word mutex)
    (h : exec (advance (step mutex)) s as = some t) : Kept mutex s.m t.m := by
  induction as generalizing s with
  | nil =>
    obtain rfl := Option.some.inj h
    exact ⟨rfl, rfl⟩
  | cons a as ih =>
    obtain ⟨u, hu, ht⟩ := Option.bind_eq_some_iff.mp h
    have hstep : Kept mutex s.m u.m := advance_m hu ▸ kept_run (hne a List.mem_cons_self) hv
    exact hstep.trans (ih (fun b hb => hne b (List.mem_cons_of_mem a hb)) (hstep.1.symm ▸ hv) ht)

end Made

def Usable (m : Machine) (c : Nat) : Prop := 0xFFFF < m.word c → m.obj (m.word c) = some ⟨.cond, c⟩

section Start

variable {g : Glibc} {mutex : Nat} {conds : Nat → Prop} {s b : World g} {as : List Action}

def objectsOf (s : World g) (mutex : Nat) : Objects g :=
  ⟨g.newMutex (kindOf (s.m.word mutex)),
    fun c => if s.m.word c ≤ 0xFFFF then g.newCond else s.heap.cond (s.m.word c)⟩

theorem stands_cond {c : Nat} (hc : Usable s.m c) :
    Stands s.m s.heap.cond ⟨.cond, c⟩ g.newCond ((objectsOf s mutex).cond c) := by
  by_cases hv : s.m.word c ≤ 0xFFFF
  · exact .inl ⟨hv, if_pos hv⟩
  · exact .inr ⟨not_le.mp hv, hc (not_le.mp hv), (if_neg hv).symm⟩

theorem models_lazy (hv : s.m.word mutex ≤ 0xFFFF) (hapart : ¬ conds mutex)
    (hconds : ∀ c, conds c → Usable s.m c) : Models mutex conds s (objectsOf s mutex) :=
  ⟨hapart, .inl ⟨hv, rfl⟩, fun c hc => stands_cond (hconds c hc)⟩

theorem models_explicit {t : Thread} {q : Nat} {r : Int} (hapart : ¬ conds mutex)
    (hconds : ∀ c, conds c → Usable s.m c) (hq : PthreadWords.Fresh s.m (some q))
    (hinit : s.perform t (.mutexInit mutex (some (kindOf (s.m.word mutex))) (some q)) =
      some (b, r)) :
    Models mutex conds b (objectsOf s mutex) := by
  have hrun (ret : Int) :
      run s.m (.mutexInit mutex (some (kindOf (s.m.word mutex))) (some q) ret) =
        ((storeReal mutex (s.m.alloc ⟨.mutex, mutex⟩ (some q))).1.call
          (.mutexInit (some (kindOf (s.m.word mutex)))) [⟨⟨.mutex, mutex⟩, q⟩], ret) :=
    PthreadPointers.pthreadMutexInit_eq s.m mutex _ (some q) ret
  rw [perform_eq (h := s.heap) hrun ⟨[], (List.append_nil _).symm, fun _ => rfl⟩] at hinit
  obtain rfl := congrArg Prod.fst (Option.some.inj hinit)
  refine ⟨hapart, .inr (holds_new (o := ⟨.mutex, mutex⟩) hq (Function.update_self ..)), ?_⟩
  intro c hc
  have hne : c ≠ mutex := fun heq => hapart (heq ▸ hc)
  exact stands_new (o := ⟨.mutex, mutex⟩) (stands_cond (hconds c hc)) hne hq (fun _ _ => rfl)

def condsOf (as : List Action) (c : Nat) : Prop := ∃ a ∈ as, a.call.cond? = some c

theorem word_explicit {t : Thread} {q : Nat} {r : Int} {k : MutexKind}
    (hinit : s.perform t (.mutexInit mutex (some k) (some q)) = some (b, r)) :
    b.m.word mutex = q := by
  simp only [World.perform, Option.map_eq_some_iff] at hinit
  obtain ⟨_, _, h⟩ := hinit
  obtain rfl := congrArg Prod.fst h
  exact Function.update_self ..

/-- After the first call the word holds the address of the mutex that was made
for it. -/
theorem made_exec {a : Action} {t : World g} (hne : ∀ c ∈ a :: as, c.call.cond? ≠ some mutex)
    (hv : s.m.word mutex ≤ 0xFFFF) (ha : a.call.Materialises) (hp : 0xFFFF < a.pm)
    (h : exec (advance (step mutex)) s (a :: as) = some t) :
    t.m.word mutex = a.pm ∧ made t.m mutex = made s.m mutex + 1 := by
  obtain ⟨u, hu, ht⟩ := Option.bind_eq_some_iff.mp h
  obtain ⟨hw, hn⟩ := made_run (hne a List.mem_cons_self) hv ha
  rw [← advance_m hu] at hw hn
  have hkept := kept_exec (fun c hc => hne c (List.mem_cons_of_mem a hc)) (hw ▸ hp) ht
  exact ⟨hkept.1.trans hw, hkept.2.trans hn⟩

theorem named_of_prefix {pre : List Action} {a : Action} (h : pre ++ [a] <+: as) :
    Named (condsOf as) a.call :=
  fun _ hc => ⟨a, h.subset (List.mem_append_right pre (List.mem_singleton_self a)), hc⟩

theorem allowed_lazy (hne : ∀ a ∈ as, a.call.cond? ≠ some mutex) (hv : s.m.word mutex ≤ 0xFFFF)
    (hfirst : ∀ a ∈ as.head?, a.call.Materialises)
    (hx : Guarded (advance (step mutex)) (Fresh mutex) s as) :
    Guarded (advance (step mutex)) (Allowed mutex (condsOf as)) s as := by
  intro pre a t hpre ht
  refine ⟨hx pre a t hpre ht, named_of_prefix hpre, fun hlow => ?_⟩
  cases pre with
  | nil =>
    obtain ⟨rest, rfl⟩ := hpre
    exact hfirst a rfl
  | cons b pre =>
    obtain ⟨rest, rfl⟩ := hpre
    have hb : b.call.Materialises := hfirst b rfl
    have hfresh := hx [] b s (by simp) rfl
    have hp : 0xFFFF < b.pm := (hfresh.1 hv).1
    have hmem (c : Action) (hc : c ∈ b :: pre) : c.call.cond? ≠ some mutex :=
      hne c (List.mem_append_left rest (List.mem_append_left [a] hc))
    have hword := (made_exec hmem hv hb hp ht).1
    omega

theorem allowed_explicit {cs : List Action} (hne : ∀ a ∈ as, a.call.cond? ≠ some mutex)
    (hv : 0xFFFF < b.m.word mutex) (hnamed : ∀ a ∈ as, Named (condsOf cs) a.call)
    (hy : Guarded (advance (step mutex)) (Fresh mutex) b as) :
    Guarded (advance (step mutex)) (Allowed mutex (condsOf cs)) b as := by
  intro pre a t hpre ht
  have hmem : ∀ c ∈ pre ++ [a], c ∈ as := fun c hc => hpre.subset hc
  have hkept := kept_exec (fun c hc => hne c (hmem c (List.mem_append_left [a] hc))) hv ht
  refine ⟨hy pre a t hpre ht, hnamed a (hmem a ?_), fun hlow => ?_⟩
  · exact List.mem_append_right pre (List.mem_singleton_self a)
  · rw [hkept.1] at hlow
    exact absurd hv (not_lt.mpr hlow)

end Start

/-- A mutex that starts as an initialiser returns in every history what one
returns that was initialised with the kind of that initialiser, and it is made
once. -/
theorem lazy_matches_explicit (g : Glibc) {s b : World g} {mutex v q : Nat} {t : Thread} {r : Int}
    {xs ys : List Action} (hv : v ≤ 0xFFFF) (hword : s.m.word mutex = v)
    (hconds : ∀ c, condsOf xs c → c ≠ mutex ∧ Usable s.m c)
    (hq : PthreadWords.Fresh s.m (some q))
    (hinit : s.perform t (.mutexInit mutex (some (kindOf v)) (some q)) = some (b, r))
    (hcalls : xs.map (fun a => (a.thread, a.call)) = ys.map (fun a => (a.thread, a.call)))
    (hfirst : ∀ a ∈ xs.head?, a.call.Materialises)
    (hx : Guarded (advance (step mutex)) (Fresh mutex) s xs)
    (hy : Guarded (advance (step mutex)) (Fresh mutex) b ys) :
    observe (step mutex) s xs = observe (step mutex) b ys ∧
      ∃ p, 0xFFFF < p ∧ ∀ pre u, pre ≠ [] → pre <+: xs →
        exec (advance (step mutex)) s pre = some u →
          u.m.word mutex = p ∧ made u.m mutex = made s.m mutex + 1 := by
  subst hword
  have hapart : ¬ condsOf xs mutex := fun h => (hconds mutex h).1 rfl
  have husable (c : Nat) (hc : condsOf xs c) : Usable s.m c := (hconds c hc).2
  have hnex (a : Action) (ha : a ∈ xs) : a.call.cond? ≠ some mutex := fun h => hapart ⟨a, ha, h⟩
  -- the second history waits on the same conds
  have hnamed (a : Action) (ha : a ∈ ys) : Named (condsOf xs) a.call := by
    have hmem : (a.thread, a.call) ∈ xs.map (fun a => (a.thread, a.call)) :=
      hcalls ▸ List.mem_map_of_mem ha
    obtain ⟨a', ha', heq⟩ := List.mem_map.mp hmem
    have hcall : a'.call = a.call := congrArg Prod.snd heq
    exact fun c hc => ⟨a', ha', hcall ▸ hc⟩
  have hney (a : Action) (ha : a ∈ ys) : a.call.cond? ≠ some mutex :=
    fun h => hapart (hnamed a ha mutex h)
  have hhigh : 0xFFFF < b.m.word mutex := word_explicit hinit ▸ hq.1
  constructor
  · have hlazy := observe_eq (simulation mutex (condsOf xs)) (models_lazy hv hapart husable)
      (allowed_lazy hnex hv hfirst hx)
    have hexplicit := observe_eq (simulation mutex (condsOf xs))
      (models_explicit hapart husable hq hinit) (allowed_explicit hney hhigh hnamed hy)
    rw [hlazy, hexplicit, hcalls]
  · cases xs with
    | nil => exact ⟨q, hq.1, fun pre u hne hpre => absurd (List.prefix_nil.mp hpre) hne⟩
    | cons a as =>
      have ha : a.call.Materialises := hfirst a rfl
      have hp : 0xFFFF < a.pm := ((hx [] a s (by simp) rfl).1 hv).1
      refine ⟨a.pm, hp, fun pre u hne hpre hu => ?_⟩
      cases pre with
      | nil => exact absurd rfl hne
      | cons c pre =>
        obtain ⟨rfl, hpre'⟩ := List.cons_prefix_cons.mp hpre
        refine made_exec (fun c' hc' => hnex c' (hpre.subset hc')) hv ha hp hu

/-- Mutexes that behave by their kind: with who holds one and how often. Nobody
is signalled, so a wait ends by its deadline or never. -/
def pthreads : Glibc where
  Mutex := MutexKind × Option (Thread × Nat)
  Cond := Unit
  newMutex kind := (kind, none)
  newCond := ()
  lock t x :=
    match x with
    | (kind, none) => some ((kind, some (t, 1)), 0)
    | (.recursive, some (u, n)) => if u = t then some ((.recursive, some (t, n + 1)), 0) else none
    | (.errorcheck, some (u, n)) => if u = t then some ((.errorcheck, some (u, n)), 35) else none
    | (.normal, some _) => none
  trylock t x :=
    match x with
    | (kind, none) => some ((kind, some (t, 1)), 0)
    | (.recursive, some (u, n)) =>
      if u = t then some ((.recursive, some (t, n + 1)), 0)
      else some ((.recursive, some (u, n)), 16)
    | x => some (x, 16)
  unlock t x :=
    match x with
    | (.normal, _) => some ((.normal, none), 0)
    | (kind, some (u, n + 1)) =>
      if u = t then some ((kind, if n = 0 then none else some (u, n)), 0)
      else some ((kind, some (u, n + 1)), 1)
    | x => some (x, 1)
  wait _ abstime c x := abstime.map (fun _ => (c, x, 110))

def statics : World pthreads :=
  ⟨⟨fun w => if w = 4 then 0x4000 else 0, fun _ => none, []⟩,
    ⟨fun _ => (.normal, none), fun _ => ()⟩⟩

def lockTwice (p : Nat) : List Action :=
  [⟨1, .lock, 0, p⟩, ⟨1, .lock, 0, 0⟩, ⟨2, .trylock, 0, 0⟩,
    ⟨1, .timedwaitRelative 8 ⟨5, 0⟩ ⟨1, 0⟩, p + 64, 0⟩, ⟨1, .unlock, 0, 0⟩, ⟨2, .lock, 0, 0⟩]

def initialised : World pthreads :=
  ⟨(run statics.m (.mutexInit 4 (some .recursive) (some 0x20000) 0)).1,
    statics.heap.setMutex 0x20000 (.recursive, none)⟩

theorem lazy_matches_explicit_recursive :
    observe (step 4) statics (lockTwice 0x10000) =
        observe (step 4) initialised (lockTwice 0x30000) ∧
      observe (step 4) statics (lockTwice 0x10000) =
        [some 0, some 0, some 16, some 110, some 0, none] := by
  have hinit : statics.perform 1 (.mutexInit 4 (some (kindOf 0x4000)) (some 0x20000)) =
      some (initialised, 0) := rfl
  have hconds : ∀ c, condsOf (lockTwice 0x10000) c → c ≠ 4 ∧ Usable statics.m c := by
    rintro c ⟨a, ha, hc⟩
    have hcond : c = 8 := by
      simp only [lockTwice, List.mem_cons, List.not_mem_nil, or_false] at ha
      obtain rfl | rfl | rfl | rfl | rfl | rfl := ha <;> simp_all [Call.cond?]
    subst c
    exact ⟨by decide, fun h => absurd h (by decide)⟩
  have hx : Guarded (advance (step 4)) (Fresh 4) statics (lockTwice 0x10000) := by decide
  have hy : Guarded (advance (step 4)) (Fresh 4) initialised (lockTwice 0x30000) := by decide
  have hfirst : ∀ a ∈ (lockTwice 0x10000).head?, a.call.Materialises := by decide
  have hcalls : (lockTwice 0x10000).map (fun a => (a.thread, a.call)) =
      (lockTwice 0x30000).map (fun a => (a.thread, a.call)) := rfl
  exact ⟨(lazy_matches_explicit pthreads (v := 0x4000) (by decide) rfl hconds (by decide) hinit
    hcalls hfirst hx hy).1, by decide⟩

end FakeLibc.MutexKinds

import FakeLibc.Lib.Boxed
import FakeLibc.Lib.Run

namespace FakeLibc.PthreadAttrs

open FakeLibc.Lib.Run FakeLibc.Lib.Boxed

abbrev Addr := Nat

inductive Setter
  | detachstate (state : Int)
  | schedpolicy (policy : Int)
  | schedparam (param : Int)
  | stacksize (stackSize : Nat)
  | stackaddr (stackAddr : Nat)
  | stack (stackBase stackSize : Nat)
  | guardsize (guardSize : Nat)
  | scope (scope : Int)
deriving DecidableEq

inductive Getter
  | detachstate
  | schedpolicy
  | schedparam
  | stacksize
  | stackaddr
  | stack
  | guardsize
  | scope
deriving DecidableEq

/-- glibc's own attribute objects. Each function returns a code, and a getter
stores values through its pointers. -/
structure Glibc (Attr : Type) where
  init : Attr → Attr × Int
  destroy : Attr → Int
  set : Setter → Attr → Attr × Int
  get : Getter → Attr → List Int × Int

inductive Result (Attr : Type)
  | returned (ret : Int)
  | stored (values : List Int) (ret : Int)
  | created (attr : Option Attr) (ret : Int)
deriving DecidableEq

inductive Fault
  | uninitialised
  | freed
  | nullPointer
  | neverReturns
deriving DecidableEq

variable {Attr : Type}

/-- The first word of an attribute object is the address of glibc's one. -/
abbrev Heap (Attr : Type) := Store Addr Attr

def word (s : Heap Attr) (attr : Addr) : Except Fault Nat :=
  (s.ref attr).elim (.error .uninitialised) .ok

def object (s : Heap Attr) (realattr : Nat) : Except Fault Attr :=
  (s.block realattr).elim (.error .freed) .ok

section Wrappers

variable (g : Glibc Attr) (s : Heap Attr) (attr : Addr)

/-- `raw` is what the memory holds before. -/
def pthreadAttrInit (raw : Attr) (malloced : Bool) : Except Fault (Heap Attr × Result Attr) :=
  if malloced then .ok (s.make attr (g.init raw).1, .returned (g.init raw).2)
  else .error .nullPointer

def pthreadAttrDestroy : Except Fault (Heap Attr × Result Attr) := do
  let realattr ← word s attr
  let a ← object s realattr
  return (s.put realattr none, .returned (g.destroy a))

def callSetter (f : Setter) : Except Fault (Heap Attr × Result Attr) := do
  let realattr ← word s attr
  let a ← object s realattr
  return (s.put realattr (some (g.set f a).1), .returned (g.set f a).2)

def callGetter (f : Getter) : Except Fault (Heap Attr × Result Attr) := do
  let realattr ← word s attr
  let a ← object s realattr
  return (s, .stored (g.get f a).1 (g.get f a).2)

def pthreadAttrSetdetachstate (state : Int) := callSetter g s attr (.detachstate state)

def pthreadAttrGetdetachstate := callGetter g s attr .detachstate

def pthreadAttrSetschedpolicy (policy : Int) := callSetter g s attr (.schedpolicy policy)

def pthreadAttrGetschedpolicy := callGetter g s attr .schedpolicy

def pthreadAttrSetschedparam (param : Int) := callSetter g s attr (.schedparam param)

def pthreadAttrGetschedparam := callGetter g s attr .schedparam

def pthreadAttrSetstacksize (stackSize : Nat) := callSetter g s attr (.stacksize stackSize)

def pthreadAttrGetstacksize := callGetter g s attr .stacksize

def pthreadAttrSetstackaddr (stackAddr : Nat) := callSetter g s attr (.stackaddr stackAddr)

def pthreadAttrGetstackaddr := callGetter g s attr .stackaddr

def pthreadAttrSetstack (stackBase stackSize : Nat) :=
  callSetter g s attr (.stack stackBase stackSize)

def pthreadAttrGetstack := callGetter g s attr .stack

def pthreadAttrSetguardsize (guardSize : Nat) := callSetter g s attr (.guardsize guardSize)

def pthreadAttrGetguardsize := callGetter g s attr .guardsize

def pthreadAttrSetscope (scope : Int) := callSetter g s attr (.scope scope)

/-- The scope is returned, and glibc's code dropped. It is `junk` if glibc stores nothing. -/
def pthreadAttrGetscope (junk : Int) : Except Fault (Heap Attr × Result Attr) := do
  let realattr ← word s attr
  let a ← object s realattr
  return (s, .returned ((g.get .scope a).1.headD junk))

/-- glibc's `pthread_create` answers `ret`. Only a thread that was made ends the
loop after it. -/
def createAndWait (realattr : Option Attr) (ret : Int) : Except Fault (Heap Attr × Result Attr) :=
  if ret = 0 then .ok (s, .created realattr ret) else .error .neverReturns

def pthreadCreate (attr : Option Addr) (ret : Int) : Except Fault (Heap Attr × Result Attr) :=
  match attr with
  | none => createAndWait s none ret
  | some attr => do
    let realattr ← word s attr
    let a ← object s realattr
    createAndWait s (some a) ret

def set : Setter → Except Fault (Heap Attr × Result Attr)
  | .detachstate state => pthreadAttrSetdetachstate g s attr state
  | .schedpolicy policy => pthreadAttrSetschedpolicy g s attr policy
  | .schedparam param => pthreadAttrSetschedparam g s attr param
  | .stacksize stackSize => pthreadAttrSetstacksize g s attr stackSize
  | .stackaddr stackAddr => pthreadAttrSetstackaddr g s attr stackAddr
  | .stack stackBase stackSize => pthreadAttrSetstack g s attr stackBase stackSize
  | .guardsize guardSize => pthreadAttrSetguardsize g s attr guardSize
  | .scope scope => pthreadAttrSetscope g s attr scope

def get (junk : Int) : Getter → Except Fault (Heap Attr × Result Attr)
  | .detachstate => pthreadAttrGetdetachstate g s attr
  | .schedpolicy => pthreadAttrGetschedpolicy g s attr
  | .schedparam => pthreadAttrGetschedparam g s attr
  | .stacksize => pthreadAttrGetstacksize g s attr
  | .stackaddr => pthreadAttrGetstackaddr g s attr
  | .stack => pthreadAttrGetstack g s attr
  | .guardsize => pthreadAttrGetguardsize g s attr
  | .scope => pthreadAttrGetscope g s attr junk

end Wrappers

inductive Call (Attr : Type)
  | init (attr : Addr) (raw : Attr) (malloced : Bool)
  | destroy (attr : Addr)
  | set (attr : Addr) (f : Setter)
  | get (attr : Addr) (f : Getter) (junk : Int)
  | create (attr : Option Addr) (ret : Int)

def perform (g : Glibc Attr) (s : Heap Attr) : Call Attr → Except Fault (Heap Attr × Result Attr)
  | .init attr raw malloced => pthreadAttrInit g s attr raw malloced
  | .destroy attr => pthreadAttrDestroy g s attr
  | .set attr f => set g s attr f
  | .get attr f junk => get g s attr junk f
  | .create attr ret => pthreadCreate s attr ret

abbrev Objects (Attr : Type) := Addr → Option Attr

def answer (f : Getter) (junk : Int) (r : List Int × Int) : Result Attr :=
  match f with
  | .scope => .returned (r.1.headD junk)
  | _ => .stored r.1 r.2

/-- The same call of glibc by a client that has glibc's objects, if it is one
that may be made. -/
def direct (g : Glibc Attr) (m : Objects Attr) : Call Attr → Option (Objects Attr × Result Attr)
  | .init attr raw _ =>
    some (Function.update m attr (some (g.init raw).1), .returned (g.init raw).2)
  | .destroy attr => (m attr).map (fun a => (Function.update m attr none, .returned (g.destroy a)))
  | .set attr f =>
    (m attr).map (fun a =>
      (Function.update m attr (some (g.set f a).1), .returned (g.set f a).2))
  | .get attr f junk => (m attr).map (fun a => (m, answer f junk (g.get f a)))
  | .create none ret => some (m, .created none ret)
  | .create (some attr) ret => (m attr).map (fun a => (m, .created (some a) ret))

/-- A client of the wrappers beside one of glibc itself that makes the same calls. -/
structure State (Attr : Type) where
  heap : Heap Attr
  objects : Objects Attr
  results : List (Result Attr)
  expected : List (Result Attr)
  fault : Option Fault

def State.expect (s : State Attr) (o : Option (Objects Attr × Result Attr)) : State Attr :=
  match o with
  | none => s
  | some (m, r) => { s with objects := m, expected := s.expected ++ [r] }

def State.settle (s : State Attr) : Except Fault (Heap Attr × Result Attr) → State Attr
  | .error f => { s with fault := some f }
  | .ok (heap, r) => { s with heap := heap, results := s.results ++ [r] }

def step (g : Glibc Attr) (s : State Attr) (c : Call Attr) : Option (State Attr) :=
  if s.fault = none then some ((s.settle (perform g s.heap c)).expect (direct g s.objects c))
  else none

def start : State Attr := ⟨Store.empty, fun _ => none, [], [], none⟩

/-- The wrappers cannot be told from glibc, and nothing is left over. -/
structure Transparent (s : State Attr) : Prop where
  fault : s.fault = none
  results : s.results = s.expected
  value : s.heap.value = s.objects
  tidy : s.heap.Tidy

/-- An object is initialised when it is not in use, and used only after that
and before it is destroyed. glibc makes every thread that it is asked for. -/
def Kept (s : State Attr) : Call Attr → Prop
  | .init attr _ malloced => s.objects attr = none ∧ malloced = true
  | .destroy attr => (s.objects attr).isSome
  | .set attr _ => (s.objects attr).isSome
  | .get attr _ _ => (s.objects attr).isSome
  | .create attr ret => (∀ a ∈ attr, (s.objects a).isSome) ∧ ret = 0

section Spec

variable {g : Glibc Attr} {s : Heap Attr} {attr : Addr} {p : Nat} {a : Attr} {β : Type}

theorem use_bind (hp : s.ref attr = some p) (ha : s.block p = some a)
    (f : Nat → Attr → Except Fault β) :
    (word s attr >>= fun realattr => object s realattr >>= f realattr) = f p a := by
  rw [word, hp]
  show (object s p >>= f p) = f p a
  rw [object, ha]
  rfl

theorem use_error (h : s.value attr = none) (f : Nat → Attr → Except Fault β) :
    ∃ e, (word s attr >>= fun realattr => object s realattr >>= f realattr) = .error e := by
  cases hp : s.ref attr with
  | none => exact ⟨.uninitialised, by rw [word, hp]; rfl⟩
  | some p =>
    have ha : s.block p = none := by
      rw [Store.value, hp] at h
      exact h
    refine ⟨.freed, ?_⟩
    rw [word, hp]
    show (object s p >>= f p) = _
    rw [object, ha]
    rfl

theorem set_eq (f : Setter) : set g s attr f = callSetter g s attr f := by
  cases f <;> rfl

theorem get_of_some (hp : s.ref attr = some p) (ha : s.block p = some a) (f : Getter)
    (junk : Int) : get g s attr junk f = .ok (s, answer f junk (g.get f a)) := by
  cases f <;> exact use_bind hp ha _

theorem get_error (h : s.value attr = none) (f : Getter) (junk : Int) :
    ∃ e, get g s attr junk f = .error e := by
  cases f <;> exact use_error h _

end Spec

variable {g : Glibc Attr} {s t : State Attr} {c : Call Attr}

theorem object_of_kept {attr : Addr} (hv : s.heap.value = s.objects)
    (hk : (s.objects attr).isSome) :
    ∃ a p, s.objects attr = some a ∧ s.heap.ref attr = some p ∧ s.heap.block p = some a := by
  obtain ⟨a, ha⟩ := Option.isSome_iff_exists.mp hk
  have hval : s.heap.value attr = some a := hv ▸ ha
  obtain ⟨p, hp, hb⟩ := Store.exists_block hval
  exact ⟨a, p, ha, hp, hb⟩

theorem pthreadCreate_eq {attr : Option Addr} (hv : s.heap.value = s.objects)
    (hlive : ∀ a ∈ attr, (s.objects a).isSome) (ret : Int) :
    pthreadCreate s.heap attr ret = createAndWait s.heap (attr.bind s.objects) ret := by
  cases attr with
  | none => rfl
  | some attr =>
    obtain ⟨a, p, ha, hp, hb⟩ := object_of_kept hv (hlive attr rfl)
    rw [Option.bind_some, ha]
    exact use_bind hp hb _

theorem direct_create {attr : Option Addr} (g : Glibc Attr)
    (hlive : ∀ a ∈ attr, (s.objects a).isSome) (ret : Int) :
    direct g s.objects (.create attr ret) =
      some (s.objects, .created (attr.bind s.objects) ret) := by
  cases attr with
  | none => rfl
  | some attr =>
    obtain ⟨a, ha⟩ := Option.isSome_iff_exists.mp (hlive attr rfl)
    rw [direct, Option.bind_some, ha]
    rfl

/-- A call that may be made does with the blocks what glibc's function does
with the client's objects. -/
theorem perform_of_kept (g : Glibc Attr) (hs : Transparent s) (hk : Kept s c) :
    ∃ heap m r, perform g s.heap c = .ok (heap, r) ∧ direct g s.objects c = some (m, r) ∧
      heap.value = m ∧ heap.Tidy := by
  have hv := hs.value
  have ht := hs.tidy
  cases c with
  | init attr raw malloced =>
    obtain ⟨hfree, hm⟩ := hk
    refine ⟨s.heap.make attr (g.init raw).1, _, _, if_pos hm, rfl, ?_, ht.make_iff.mpr ?_⟩
    · rw [ht.value_make, hv]
    · rw [hv, hfree]
  | destroy attr =>
    obtain ⟨a, p, ha, hp, hb⟩ := object_of_kept hv hk
    refine ⟨s.heap.put p none, Function.update s.objects attr none, .returned (g.destroy a),
      use_bind hp hb _, ?_, ?_, ht.put (hb ▸ rfl)⟩
    · rw [direct, ha]
      rfl
    · rw [ht.value_put hp, hv]
  | set attr f =>
    obtain ⟨a, p, ha, hp, hb⟩ := object_of_kept hv hk
    refine ⟨s.heap.put p (some (g.set f a).1),
      Function.update s.objects attr (some (g.set f a).1), .returned (g.set f a).2,
      (set_eq f).trans (use_bind hp hb _), ?_, ?_, ht.put (hb ▸ rfl)⟩
    · rw [direct, ha]
      rfl
    · rw [ht.value_put hp, hv]
  | get attr f junk =>
    obtain ⟨a, p, ha, hp, hb⟩ := object_of_kept hv hk
    refine ⟨s.heap, s.objects, answer f junk (g.get f a), get_of_some hp hb f junk, ?_, hv, ht⟩
    rw [direct, ha]
    rfl
  | create attr ret =>
    obtain ⟨hlive, hmade⟩ := hk
    exact ⟨s.heap, s.objects, .created (attr.bind s.objects) ret,
      (pthreadCreate_eq hv hlive ret).trans (if_pos hmade), direct_create g hlive ret, hv, ht⟩

theorem value_eq_none {attr : Addr} (hv : s.heap.value = s.objects)
    (hk : ¬ (s.objects attr).isSome) : s.heap.value attr = none := by
  rw [hv]
  exact Option.not_isSome_iff_eq_none.mp hk

theorem perform_of_not_kept (g : Glibc Attr) (hs : Transparent s) (hk : ¬ Kept s c) :
    (∃ e, perform g s.heap c = .error e) ∨
      ∃ heap r, perform g s.heap c = .ok (heap, r) ∧ ¬ heap.Tidy := by
  have hv := hs.value
  cases c with
  | init attr raw malloced =>
    cases malloced with
    | false => exact .inl ⟨.nullPointer, rfl⟩
    | true =>
      refine .inr ⟨_, _, rfl, fun ht => hk ⟨?_, rfl⟩⟩
      rw [← hv]
      exact hs.tidy.make_iff.mp ht
  | destroy attr => exact .inl (use_error (value_eq_none hv hk) _)
  | set attr f =>
    obtain ⟨e, he⟩ := use_error (value_eq_none hv hk) _
    exact .inl ⟨e, (set_eq f).trans he⟩
  | get attr f junk => exact .inl (get_error (value_eq_none hv hk) f junk)
  | create attr ret =>
    by_cases hlive : ∀ a ∈ attr, (s.objects a).isSome
    · have hfails : ¬ ret = 0 := fun hmade => hk ⟨hlive, hmade⟩
      exact .inl ⟨.neverReturns, (pthreadCreate_eq hv hlive ret).trans (if_neg hfails)⟩
    · push Not at hlive
      obtain ⟨a, rfl, hgone⟩ := hlive
      exact .inl (use_error (value_eq_none hv hgone) _)

theorem step_cases (h : step g s c = some t) :
    t = (s.settle (perform g s.heap c)).expect (direct g s.objects c) := by
  rw [step, Option.ite_none_right_eq_some] at h
  exact (Option.some.inj h.2).symm

theorem fault_expect (u : State Attr) (o : Option (Objects Attr × Result Attr)) :
    (u.expect o).fault = u.fault := by
  cases o <;> rfl

theorem heap_expect (u : State Attr) (o : Option (Objects Attr × Result Attr)) :
    (u.expect o).heap = u.heap := by
  cases o <;> rfl

theorem transparent_step_iff (hs : Transparent s) (h : step g s c = some t) :
    Transparent t ↔ Kept s c := by
  obtain rfl := step_cases h
  constructor
  · intro ht
    by_contra hk
    obtain ⟨e, he⟩ | ⟨heap, r, hr, hlost⟩ := perform_of_not_kept g hs hk
    · have hfault := ht.fault
      rw [he, fault_expect] at hfault
      cases hfault
    · have htidy := ht.tidy
      rw [hr, heap_expect] at htidy
      exact hlost htidy
  · intro hk
    obtain ⟨heap, m, r, hr, hm, hval, htidy⟩ := perform_of_kept g hs hk
    rw [hr, hm]
    refine ⟨hs.fault, ?_, hval, htidy⟩
    show s.results ++ [r] = s.expected ++ [r]
    rw [hs.results]

/-- A client of the wrappers gets the answers that a client of glibc itself gets
for the same calls, its threads start with the same attributes, nothing that was
freed is used and no block is lost, precisely when it initialises only objects
that are not in use and uses only those that are, and no create fails. -/
theorem transparent_iff_kept {cs : List (Call Attr)} (hrun : (exec (step g) start cs).isSome) :
    Always (step g) Transparent start cs ↔ Guarded (step g) Kept start cs := by
  refine always_iff_guarded_of_iff (fun _ _ _ hs h => transparent_step_iff hs h) ?_ hrun
  exact ⟨rfl, rfl, rfl, Store.tidy_empty⟩

def einval : Int := 22

def detaching : Glibc Int where
  init := fun _ => (0, 0)
  destroy := fun _ => 0
  set := fun f a =>
    match f with
    | .detachstate state => if state = 0 ∨ state = 1 then (state, 0) else (a, einval)
    | _ => (a, 0)
  get := fun f a =>
    match f with
    | .detachstate => ([a], 0)
    | _ => ([0], 0)

/-- A detached thread is made, and the object is used again after that. -/
theorem transparent_iff_kept_detached :
    Always (step detaching) Transparent start
        [.init 4 7 true, .set 4 (.detachstate 1), .set 4 (.detachstate 2), .get 4 .detachstate 0,
          .create (some 4) 0, .destroy 4, .init 4 1 true, .create (some 4) 0, .destroy 4] ↔
      Guarded (step detaching) Kept start
        [.init 4 7 true, .set 4 (.detachstate 1), .set 4 (.detachstate 2), .get 4 .detachstate 0,
          .create (some 4) 0, .destroy 4, .init 4 1 true, .create (some 4) 0, .destroy 4] :=
  transparent_iff_kept (by decide)

end FakeLibc.PthreadAttrs

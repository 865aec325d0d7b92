import FakeLibc.Lib.Run
import FakeLibc.PthreadWords

namespace FakeLibc.PthreadPointers

open FakeLibc.Lib.Run FakeLibc.PthreadWords

inductive Initialiser
  | mutex (kind : MutexKind)
  | cond (shared : Bool)
deriving DecidableEq

def Initialiser.value : Initialiser → Nat
  | .mutex .normal => 0
  | .mutex .recursive => 0x4000
  | .mutex .errorcheck => 0x8000
  | .cond false => 0
  | .cond true => 1

inductive Role
  | mutex (kind : MutexKind)
  | cond
deriving DecidableEq

def Role.kind : Role → ObjKind
  | .mutex _ => .mutex
  | .cond => .cond

def Initialiser.role : Initialiser → Role
  | .mutex kind => .mutex kind
  | .cond _ => .cond

/-- `role` is empty where a word is uninitialised, and `held` counts the locks
that have been taken and not been given back. -/
structure State where
  m : Machine
  role : Nat → Option Role
  held : Nat → Nat

def State.kindAt (s : State) (w : Nat) : Option ObjKind := (s.role w).map Role.kind

def start (decl : Nat → Option Initialiser) (mem : Nat → Nat) : State :=
  ⟨⟨fun w => ((decl w).map Initialiser.value).getD (mem w), fun _ => none, []⟩,
    fun w => (decl w).map Initialiser.role, fun _ => 0⟩

/-- The calls a client may make. An initialised word may be initialised again,
and a mutex of a kind that reports it may be unlocked when it is not held. -/
def Legal (s : State) : Op → Prop
  | .mutexInit _ _ p _ | .condInit _ p _ => Fresh s.m p
  | .mutexLock mutex p _ => s.kindAt mutex = some .mutex ∧ Fresh s.m p
  | .mutexTrylock mutex _ => s.kindAt mutex = some .mutex
  | .mutexUnlock mutex _ =>
    s.kindAt mutex = some .mutex ∧ (0 < s.held mutex ∨ s.role mutex ≠ some (.mutex .normal))
  | .mutexDestroy mutex _ => s.kindAt mutex = some .mutex ∧ s.held mutex = 0
  | .condWait cond mutex pc pm _ | .condTimedwait cond mutex _ pc pm _
  | .condTimedwaitRelativeNp cond mutex _ _ pc pm _ =>
    s.kindAt cond = some .cond ∧ s.kindAt mutex = some .mutex ∧ Fresh s.m pc ∧ Fresh s.m pm ∧
      (pc = none ∨ pc ≠ pm)
  | .condDestroy cond _ _ => s.kindAt cond = some .cond
  | .condBroadcast cond p _ | .condSignal cond p _ =>
    s.kindAt cond = some .cond ∧ Fresh s.m p

instance (s : State) (op : Op) : Decidable (Legal s op) := by
  cases op <;> simp only [Legal] <;> infer_instance

def roleAfter (role : Nat → Option Role) (r : Int) : Op → Nat → Option Role
  | .mutexInit mutex attr _ _ =>
    Function.update role mutex (if r = 0 then some (.mutex (attr.getD .normal)) else none)
  | .condInit cond _ _ => Function.update role cond (if r = 0 then some .cond else none)
  | .mutexDestroy w _ | .condDestroy w _ _ => if r = 0 then Function.update role w none else role
  | _ => role

def heldAfter (held : Nat → Nat) (r : Int) : Op → Nat → Nat
  | .mutexInit mutex _ _ _ => Function.update held mutex 0
  | .mutexLock mutex _ _ | .mutexTrylock mutex _ =>
    if r = 0 then Function.update held mutex (held mutex + 1) else held
  | .mutexUnlock mutex _ => if r = 0 then Function.update held mutex (held mutex - 1) else held
  | _ => held

def step (s : State) (op : Op) : Option State :=
  if Legal s op then
    some ⟨(run s.m op).1, roleAfter s.role (run s.m op).2 op, heldAfter s.held (run s.m op).2 op⟩
  else none

/-- Every pointer that glibc has been given is the address of a real object
that was allocated for the word in question. -/
def SeesReal (m : Machine) : Prop :=
  ∀ call ∈ m.calls, ∀ a ∈ call.args, 0xFFFF < a.ptr ∧ m.obj a.ptr = some a.obj

/-- The functions that do not look for an initialiser are not given one that
they would pass on, and `malloc` does not fail where a block is needed. -/
def Decodes (m : Machine) : Op → Prop
  | .mutexInit _ _ p _ | .condInit _ p _ => p ≠ none
  | .mutexLock w p _ | .condBroadcast w p _ | .condSignal w p _ => m.word w ≤ 0xFFFF → p ≠ none
  | .mutexTrylock mutex _ | .mutexUnlock mutex _ => 0xFFFF < m.word mutex
  | .mutexDestroy w _ | .condDestroy w _ _ => m.word w = 0 ∨ 0xFFFF < m.word w
  | .condWait cond mutex pc pm _ | .condTimedwait cond mutex _ pc pm _
  | .condTimedwaitRelativeNp cond mutex _ _ pc pm _ =>
    (m.word cond ≤ 0xFFFF → pc ≠ none) ∧ (m.word mutex ≤ 0xFFFF → pm ≠ none)

instance (m : Machine) (op : Op) : Decidable (Decodes m op) := by
  cases op <;> simp only [Decodes] <;> infer_instance

structure Ok (kinds : Nat → Option ObjKind) (m : Machine) : Prop where
  high : ∀ p o, m.obj p = some o → 0xFFFF < p
  calls : ∀ call ∈ m.calls, ∀ a ∈ call.args, m.obj a.ptr = some a.obj
  words : ∀ w k, kinds w = some k → 0xFFFF < m.word w → m.obj (m.word w) = some ⟨k, w⟩

variable {kinds : Nat → Option ObjKind} {m : Machine}

theorem Ok.seesReal (h : Ok kinds m) : SeesReal m :=
  fun call hc a ha => ⟨h.high a.ptr a.obj (h.calls call hc a ha), h.calls call hc a ha⟩

theorem ok_call (h : Ok kinds m) (fn : GlibcFn) {args : List Arg}
    (ha : ∀ a ∈ args, m.obj a.ptr = some a.obj) : Ok kinds (m.call fn args) := by
  refine ⟨h.high, fun call hc => ?_, h.words⟩
  obtain hc | hc := List.mem_append.mp hc
  · exact h.calls call hc
  · obtain rfl := List.mem_singleton.mp hc
    exact ha

theorem ok_store {kinds' : Nat → Option ObjKind} (h : Ok kinds m) {w v : Nat}
    (hkinds : ∀ x ≠ w, kinds' x = kinds x)
    (hv : ∀ k, kinds' w = some k → 0xFFFF < v → m.obj v = some ⟨k, w⟩) :
    Ok kinds' (m.store w v) := by
  refine ⟨h.high, h.calls, fun x k hk hx => ?_⟩
  by_cases hxw : x = w
  · subst x
    simp only [Machine.store, Function.update_self] at hx ⊢
    exact hv k hk hx
  · simp only [Machine.store, Function.update_of_ne hxw] at hx ⊢
    exact h.words x k (hkinds x hxw ▸ hk) hx

theorem ok_alloc (h : Ok kinds m) {o : Obj} {p : Nat} (hp : Fresh m (some p)) :
    Ok kinds (m.alloc o (some p)).1 := by
  refine ⟨fun q o' hq => ?_, fun call hc a ha => alloc_obj_of_some hp (h.calls call hc a ha),
    fun w k hk hw => alloc_obj_of_some hp (h.words w k hk hw)⟩
  by_cases hqp : q = p
  · exact hqp ▸ hp.1
  · exact h.high q o' ((Function.update_of_ne hqp _ m.obj).symm.trans hq)

theorem ok_kinds {kinds' : Nat → Option ObjKind} (h : Ok kinds m)
    (hk : ∀ w k, kinds' w = some k → kinds w = some k) : Ok kinds' m :=
  ⟨h.high, h.calls, fun w k hw => h.words w k (hk w k hw)⟩

structure RealAt (kinds : Nat → Option ObjKind) (m : Machine) (o : Obj) (p : Option Nat)
    (r : Machine × Nat) : Prop where
  ok : Ok kinds r.1
  obj : r.1.obj r.2 = some o
  keeps : ∀ q o', m.obj q = some o' → r.1.obj q = some o'
  fresh : ∀ q, Fresh m q → (p = none ∨ p ≠ q) → Fresh r.1 q
  word : ∀ w ≠ o.word, r.1.word w = m.word w

theorem realAt_storeReal {o : Obj} {q : Nat} (h : Ok kinds m) (init : GlibcFn)
    (hk : kinds o.word = some o.kind) (hq : Fresh m (some q)) :
    RealAt kinds m o (some q) (storeReal o.word (allocInit m init o (some q))) := by
  have hobj : (m.alloc o (some q)).1.obj q = some o := Function.update_self ..
  have hcall : Ok kinds ((m.alloc o (some q)).1.call init [⟨o, q⟩]) :=
    ok_call (ok_alloc h hq) init (List.forall_mem_singleton.mpr hobj)
  refine ⟨ok_store hcall (fun _ _ => rfl) ?_, hobj, ?_, ?_, ?_⟩
  · intro k hk' _
    obtain rfl := Option.some.inj (hk.symm.trans hk')
    exact hobj
  · exact fun r o' hr => alloc_obj_of_some hq hr
  · intro r hr hne
    cases r with
    | none => trivial
    | some r =>
      have hrq : r ≠ q := by
        rintro rfl
        simp at hne
      exact ⟨hr.1, hr.2.1, (Function.update_of_ne hrq _ m.obj).trans hr.2.2⟩
  · exact fun w hw => Function.update_of_ne hw _ m.word

theorem realAt_word {o : Obj} (h : Ok kinds m) (hk : kinds o.word = some o.kind)
    (hv : 0xFFFF < m.word o.word) (p : Option Nat) :
    RealAt kinds m o p (m, m.word o.word) :=
  ⟨h, h.words o.word o.kind hk hv, fun _ _ hq => hq, fun _ hq _ => hq, fun _ _ => rfl⟩

theorem realAt_ite {o : Obj} {p : Option Nat} (h : Ok kinds m) (init : GlibcFn)
    (hk : kinds o.word = some o.kind) (hp : Fresh m p) (hne : m.word o.word ≤ 0xFFFF → p ≠ none) :
    RealAt kinds m o p (if m.word o.word ≤ 0xFFFF then storeReal o.word (allocInit m init o p)
      else (m, m.word o.word)) := by
  by_cases hv : m.word o.word ≤ 0xFFFF
  · rw [if_pos hv]
    obtain ⟨q, rfl⟩ := Option.ne_none_iff_exists'.mp (hne hv)
    exact realAt_storeReal h init hk hp
  · rw [if_neg hv]
    exact realAt_word h hk (not_le.mp hv) p

theorem realMutex_realAt {mutex : Nat} {p : Option Nat} (h : Ok kinds m)
    (hk : kinds mutex = some .mutex) (hp : Fresh m p) (hne : m.word mutex ≤ 0xFFFF → p ≠ none) :
    RealAt kinds m ⟨.mutex, mutex⟩ p (realMutex m mutex (m.word mutex) p) :=
  realAt_ite h _ hk hp hne

theorem realCond_realAt {cond : Nat} {p : Option Nat} (h : Ok kinds m)
    (hk : kinds cond = some .cond) (hp : Fresh m p) (hne : m.word cond ≤ 0xFFFF → p ≠ none) :
    RealAt kinds m ⟨.cond, cond⟩ p (realCond m cond (m.word cond) p) :=
  realAt_ite h _ hk hp hne

/-- Reading the word again after the store makes no difference. -/
theorem pthreadMutexLock_eq (m : Machine) (mutex : Nat) (p : Option Nat) (ret : Int) :
    pthreadMutexLock m mutex p ret =
      ((realMutex m mutex (m.word mutex) p).1.call .mutexLock
        [⟨⟨.mutex, mutex⟩, (realMutex m mutex (m.word mutex) p).2⟩], ret) := by
  unfold pthreadMutexLock realMutex
  by_cases hv : m.word mutex ≤ androidTopAddrValueMutex <;> simp [hv, storeReal, Machine.store]

theorem pthreadMutexInit_eq (m : Machine) (mutex : Nat) (attr : Option MutexKind)
    (p : Option Nat) (ret : Int) :
    pthreadMutexInit m mutex attr p ret =
      ((storeReal mutex (m.alloc ⟨.mutex, mutex⟩ p)).1.call (.mutexInit attr)
        [⟨⟨.mutex, mutex⟩, (m.alloc ⟨.mutex, mutex⟩ p).2⟩], ret) := by
  simp [pthreadMutexInit, storeReal, Machine.store]

theorem ok_init {kinds' : Nat → Option ObjKind} {o : Obj} {p : Option Nat} (h : Ok kinds m)
    (fn : GlibcFn) (hkinds : ∀ x ≠ o.word, kinds' x = kinds x)
    (hk : ∀ k, kinds' o.word = some k → k = o.kind) (hp : Fresh m p) (hne : p ≠ none) :
    Ok kinds' ((storeReal o.word (m.alloc o p)).1.call fn [⟨o, (m.alloc o p).2⟩]) := by
  obtain ⟨q, rfl⟩ := Option.ne_none_iff_exists'.mp hne
  have hobj : (m.alloc o (some q)).1.obj q = some o := Function.update_self ..
  refine ok_call (ok_store (ok_alloc h hp) hkinds ?_) fn ?_
  · intro k hk' _
    rw [hk k hk']
    exact hobj
  · exact List.forall_mem_singleton.mpr hobj

theorem ok_wait {cond mutex : Nat} {pc pm : Option Nat} (fn : GlibcFn) (ret : Int)
    (h : Ok kinds m) (hc : kinds cond = some .cond) (hm : kinds mutex = some .mutex)
    (hpc : Fresh m pc) (hpm : Fresh m pm) (hne : pc = none ∨ pc ≠ pm)
    (hcne : m.word cond ≤ 0xFFFF → pc ≠ none) (hmne : m.word mutex ≤ 0xFFFF → pm ≠ none) :
    Ok kinds (condWaitWith fn m cond mutex pc pm ret).1 := by
  have hrc := realCond_realAt h hc hpc hcne
  have hdiff : mutex ≠ cond := by
    rintro rfl
    simp [hc] at hm
  have hword := hrc.word mutex hdiff
  have hrm := realMutex_realAt hrc.ok hm (hrc.fresh pm hpm hne) (hword ▸ hmne)
  rw [hword] at hrm
  apply ok_call hrm.ok fn
  intro a ha
  obtain rfl | ha := List.mem_cons.mp ha
  · exact hrm.keeps _ _ hrc.obj
  · obtain rfl := List.mem_singleton.mp ha
    exact hrm.obj

theorem ok_wake {cond : Nat} {p : Option Nat} (fn : GlibcFn) (ret : Int) (h : Ok kinds m)
    (hc : kinds cond = some .cond) (hp : Fresh m p) (hne : m.word cond ≤ 0xFFFF → p ≠ none) :
    Ok kinds (condWakeWith fn m cond p ret).1 := by
  have hr := realCond_realAt h hc hp hne
  exact ok_call hr.ok fn (List.forall_mem_singleton.mpr hr.obj)

theorem not_seesReal_call (fn : GlibcFn) {args : List Arg} {a : Arg} (ha : a ∈ args)
    (hlow : a.ptr ≤ 0xFFFF) : ¬ SeesReal (m.call fn args) := by
  intro h
  have hcall : ⟨fn, args⟩ ∈ (m.call fn args).calls :=
    List.mem_append_right m.calls (List.mem_singleton.mpr rfl)
  exact absurd (h _ hcall a ha).1 (not_lt.mpr hlow)

theorem realMutex_none {mutex : Nat} (hv : m.word mutex ≤ 0xFFFF) :
    (realMutex m mutex (m.word mutex) none).2 = 0 := by
  rw [realMutex, androidTopAddrValueMutex, if_pos hv]
  rfl

theorem realCond_none {cond : Nat} (hv : m.word cond ≤ 0xFFFF) :
    (realCond m cond (m.word cond) none).2 = 0 := by
  rw [realCond, androidTopAddrValueCond, if_pos hv]
  rfl

theorem not_seesReal_wait {cond mutex : Nat} {pc pm : Option Nat} (fn : GlibcFn) (ret : Int)
    (hbad : (m.word cond ≤ 0xFFFF ∧ pc = none) ∨ (m.word mutex ≤ 0xFFFF ∧ pm = none)) :
    ¬ SeesReal (condWaitWith fn m cond mutex pc pm ret).1 := by
  obtain ⟨hv, rfl⟩ | ⟨hv, rfl⟩ := hbad
  · apply not_seesReal_call fn List.mem_cons_self
    exact (realCond_none hv).trans_le (Nat.zero_le _)
  · apply not_seesReal_call fn (List.mem_cons_of_mem _ (List.mem_singleton.mpr rfl))
    rw [realMutex, androidTopAddrValueMutex, if_pos hv]
    exact Nat.zero_le _

theorem not_seesReal_wake {cond : Nat} {p : Option Nat} (fn : GlibcFn) (ret : Int)
    (hv : m.word cond ≤ 0xFFFF) (hp : p = none) :
    ¬ SeesReal (condWakeWith fn m cond p ret).1 := by
  subst p
  exact not_seesReal_call fn (List.mem_singleton.mpr rfl)
    ((realCond_none hv).trans_le (Nat.zero_le _))

theorem not_seesReal_run {op : Op} (h : ¬ Decodes m op) : ¬ SeesReal (run m op).1 := by
  cases op with
  | mutexInit mutex attr p ret =>
    obtain rfl : p = none := not_not.mp h
    rw [run, pthreadMutexInit_eq]
    exact not_seesReal_call _ (List.mem_singleton.mpr rfl) (Nat.zero_le _)
  | condInit cond p ret =>
    obtain rfl : p = none := not_not.mp h
    exact not_seesReal_call _ (List.mem_singleton.mpr rfl) (Nat.zero_le _)
  | mutexLock mutex p ret =>
    obtain ⟨hv, hp⟩ := Classical.not_imp.mp h
    obtain rfl := not_not.mp hp
    rw [run, pthreadMutexLock_eq]
    exact not_seesReal_call _ (List.mem_singleton.mpr rfl)
      ((realMutex_none hv).trans_le (Nat.zero_le _))
  | mutexTrylock mutex ret | mutexUnlock mutex ret =>
    exact not_seesReal_call _ (List.mem_singleton.mpr rfl) (not_lt.mp h)
  | mutexDestroy mutex ret =>
    obtain ⟨hne, hv⟩ := not_or.mp h
    rw [run, pthreadMutexDestroy, if_neg hne]
    exact not_seesReal_call _ (List.mem_singleton.mpr rfl) (not_lt.mp hv)
  | condDestroy cond ret junk =>
    obtain ⟨hne, hv⟩ := not_or.mp h
    rw [run, pthreadCondDestroy, if_neg hne]
    exact not_seesReal_call _ (List.mem_singleton.mpr rfl) (not_lt.mp hv)
  | condWait cond mutex pc pm ret | condTimedwait cond mutex abstime pc pm ret
  | condTimedwaitRelativeNp cond mutex now reltime pc pm ret =>
    simp only [Decodes, not_and_or, Classical.not_imp, not_not] at h
    exact not_seesReal_wait _ ret h
  | condBroadcast cond p ret | condSignal cond p ret =>
    obtain ⟨hv, hp⟩ := Classical.not_imp.mp h
    exact not_seesReal_wake _ ret hv (not_not.mp hp)

def State.Ok (s : State) : Prop := PthreadPointers.Ok s.kindAt s.m

theorem kindAt_update_ne {role : Nat → Option Role} {w : Nat} (r : Option Role) (x : Nat)
    (hx : x ≠ w) : (Function.update role w r x).map Role.kind = (role x).map Role.kind := by
  rw [Function.update_of_ne hx]

theorem kindAt_giveUp {role : Nat → Option Role} {w : Nat} {r : Int} (x : Nat) (k : ObjKind)
    (hk : ((if r = 0 then Function.update role w none else role) x).map Role.kind = some k) :
    (role x).map Role.kind = some k := by
  by_cases hr : r = 0
  · rw [if_pos hr] at hk
    by_cases hx : x = w
    · simp [hx] at hk
    · rwa [kindAt_update_ne none x hx] at hk
  · rwa [if_neg hr] at hk

theorem kindAt_init {role : Nat → Option Role} {w : Nat} {r : Role} {ret : Int} {k : ObjKind}
    (hk : (Function.update role w (if ret = 0 then some r else none) w).map Role.kind = some k) :
    k = r.kind := by
  rw [Function.update_self] at hk
  by_cases hr : ret = 0
  · rw [if_pos hr, Option.map_some] at hk
    exact (Option.some.inj hk).symm
  · simp [hr] at hk

theorem ok_step {s t : State} {op : Op} (hs : s.Ok) (hd : Decodes s.m op)
    (h : step s op = some t) : t.Ok := by
  obtain ⟨hl, h⟩ := Option.ite_none_right_eq_some.mp h
  obtain rfl := Option.some.inj h
  cases op with
  | mutexInit mutex attr p ret =>
    simp only [State.Ok, run, pthreadMutexInit_eq, roleAfter]
    exact ok_init hs _ (kindAt_update_ne _) (fun k hk => kindAt_init hk) hl hd
  | condInit cond p ret =>
    simp only [State.Ok, run, pthreadCondInit, roleAfter]
    exact ok_init hs _ (kindAt_update_ne _) (fun k hk => kindAt_init hk) hl hd
  | mutexLock mutex p ret =>
    have hr := realMutex_realAt hs hl.1 hl.2 hd
    simp only [State.Ok, run, pthreadMutexLock_eq, roleAfter]
    exact ok_call hr.ok _ (List.forall_mem_singleton.mpr hr.obj)
  | mutexTrylock mutex ret =>
    exact ok_call hs _ (List.forall_mem_singleton.mpr (hs.words mutex .mutex hl hd))
  | mutexUnlock mutex ret =>
    exact ok_call hs _ (List.forall_mem_singleton.mpr (hs.words mutex .mutex hl.1 hd))
  | mutexDestroy mutex ret =>
    refine ok_kinds ?_ kindAt_giveUp
    simp only [run, pthreadMutexDestroy]
    split
    · exact hs
    · rename_i hne
      have hv : 0xFFFF < s.m.word mutex := hd.resolve_left hne
      exact ok_call hs _ (List.forall_mem_singleton.mpr (hs.words mutex .mutex hl.1 hv))
  | condDestroy cond ret junk =>
    refine ok_kinds ?_ kindAt_giveUp
    simp only [run, pthreadCondDestroy]
    split
    · exact hs
    · rename_i hne
      have hv : 0xFFFF < s.m.word cond := hd.resolve_left hne
      refine ok_store (ok_call hs _ (List.forall_mem_singleton.mpr ?_)) (fun _ _ => rfl) ?_
      · exact hs.words cond .cond hl hv
      · exact fun _ _ h0 => absurd h0 (by decide)
  | condWait cond mutex pc pm ret | condTimedwait cond mutex abstime pc pm ret
  | condTimedwaitRelativeNp cond mutex now reltime pc pm ret =>
    obtain ⟨hc, hm, hpc, hpm, hne⟩ := hl
    exact ok_wait _ ret hs hc hm hpc hpm hne hd.1 hd.2
  | condBroadcast cond p ret | condSignal cond p ret => exact ok_wake _ ret hs hl.1 hl.2 hd

theorem ok_start (decl : Nat → Option Initialiser) (mem : Nat → Nat) : (start decl mem).Ok := by
  refine ⟨fun p o hp => ?_, fun call hc => ?_, fun w k hk hw => ?_⟩
  · exact absurd hp.symm (Option.some_ne_none o)
  · exact absurd hc List.not_mem_nil
  · simp only [State.kindAt, start, Option.map_map, Option.map_eq_some_iff] at hk
    obtain ⟨i, hi, _⟩ := hk
    have hv : i.value ≤ 0xFFFF := by
      cases i with
      | mutex kind => cases kind <;> decide
      | cond shared => cases shared <;> decide
    simp only [start, hi, Option.map_some, Option.getD_some] at hw
    exact absurd hw (not_lt.mpr hv)

/-- glibc is given real objects only, and the right ones, precisely in the
histories whose calls all meet the condition. -/
theorem seesReal_iff_decodes (decl : Nat → Option Initialiser) (mem : Nat → Nat) (ops : List Op)
    (hrun : (exec step (start decl mem) ops).isSome) :
    Always step (fun s => SeesReal s.m) (start decl mem) ops ↔
      Guarded step (fun s op => Decodes s.m op) (start decl mem) ops := by
  have hsafe : ∀ s : State, s.Ok → SeesReal s.m := fun s hs => Ok.seesReal hs
  refine always_iff_guarded hsafe (fun s op t hs hd h => ok_step hs hd h) ?_ (ok_start decl mem)
    hrun
  intro s op t _ hd h
  obtain ⟨_, h⟩ := Option.ite_none_right_eq_some.mp h
  exact Option.some.inj h ▸ not_seesReal_run hd

def twoStatics (w : Nat) : Option Initialiser :=
  if w = 4 then some (.mutex .recursive) else if w = 8 then some (.cond true) else none

theorem seesReal_iff_decodes_static :
    Always step (fun s => SeesReal s.m) (start twoStatics fun _ => 7)
      [.mutexLock 4 (some 0x10000) 0, .condWait 8 4 (some 0x10040) none 0, .mutexTrylock 4 0,
        .mutexUnlock 4 0, .mutexUnlock 4 0, .condDestroy 8 0 5, .mutexDestroy 4 0,
        .mutexInit 12 none (some 0x10080) 0, .mutexTrylock 12 0] :=
  (seesReal_iff_decodes _ _ _ (by decide)).mpr (by decide)

/-- A first trylock hands the initialiser to glibc. -/
theorem not_seesReal_trylock :
    (exec step (start twoStatics fun _ => 7) [.mutexTrylock 4 0]).isSome ∧
      ¬ Always step (fun s => SeesReal s.m) (start twoStatics fun _ => 7) [.mutexTrylock 4 0] := by
  refine ⟨by decide, fun h => ?_⟩
  have hlast := h _ _ List.prefix_rfl rfl ⟨.mutexTrylock, [⟨⟨.mutex, 4⟩, 0x4000⟩]⟩
    (by decide) ⟨⟨.mutex, 4⟩, 0x4000⟩ (by decide)
  exact absurd hlast.1 (by decide)

end FakeLibc.PthreadPointers

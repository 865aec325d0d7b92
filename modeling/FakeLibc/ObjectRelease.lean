import FakeLibc.PthreadPointers

namespace FakeLibc.ObjectRelease

open FakeLibc.Lib.Run FakeLibc.PthreadWords
open FakeLibc.PthreadPointers
  (Role Initialiser Legal twoStatics kindAt_update_ne kindAt_init kindAt_giveUp)

/-- A history of calls, with the blocks that were given to `free` so far. The
destroy calls on real objects leave in `codes` what they returned beside what
glibc returned to them. -/
structure History where
  client : PthreadPointers.State
  frees : List Nat
  codes : List (Int × Int)

def holds (m : Machine) (w : Nat) : Bool := (m.obj (m.word w)).any (fun o => o.word = w)

def destroyCodes (m : Machine) : Op → List (Int × Int)
  | .mutexDestroy w ret => if holds m w then [((run m (.mutexDestroy w ret)).2, ret)] else []
  | .condDestroy w ret junk =>
    if holds m w then [((run m (.condDestroy w ret junk)).2, ret)] else []
  | _ => []

/-- None of the functions calls `free`. -/
def step (h : History) (op : Op) : Option History :=
  (PthreadPointers.step h.client op).map
    (fun client => ⟨client, h.frees, h.codes ++ destroyCodes h.client.m op⟩)

def start (decl : Nat → Option Initialiser) (mem : Nat → Nat) : History :=
  ⟨PthreadPointers.start decl mem, [], []⟩

def destroysAt (p : Nat) (c : GlibcCall) : Bool :=
  (c.fn = .mutexDestroy ∨ c.fn = .condDestroy) ∧ c.args.any (fun a => a.ptr = p)

def destroys (m : Machine) (p : Nat) : Nat := m.calls.countP (destroysAt p)

/-- Every object is either in its word, or it was destroyed and freed once and
its word holds it no more. -/
structure Released (h : History) : Prop where
  objects : ∀ p o, h.client.m.obj p = some o →
    (h.client.m.word o.word = p ∧ destroys h.client.m p = 0 ∧ h.frees.count p = 0) ∨
    (h.client.m.word o.word ≠ p ∧ destroys h.client.m p = 1 ∧ h.frees.count p = 1)
  codes : ∀ c ∈ h.codes, c.1 = c.2

/-- A word that holds an object is not destroyed and not initialised again. -/
def Kept (m : Machine) : Op → Prop
  | .mutexInit w _ _ _ | .condInit w _ _ | .mutexDestroy w _ | .condDestroy w _ _ =>
    holds m w = false
  | _ => True

instance decidableKept (m : Machine) : (op : Op) → Decidable (Kept m op)
  | .mutexInit w _ _ _ | .condInit w _ _ | .mutexDestroy w _ | .condDestroy w _ _ =>
    Bool.decEq (holds m w) false
  | .mutexLock .. | .mutexTrylock .. | .mutexUnlock .. | .condWait .. | .condTimedwait ..
  | .condTimedwaitRelativeNp .. | .condBroadcast .. | .condSignal .. => isTrue trivial

structure Held (kinds : Nat → Option ObjKind) (m : Machine) : Prop where
  high : ∀ p o, m.obj p = some o → 0xFFFF < p
  inWord : ∀ p o, m.obj p = some o → m.word o.word = p
  low : ∀ p, 0xFFFF < p → destroys m p = 0
  words : ∀ w k, kinds w = some k → 0xFFFF < m.word w → m.obj (m.word w) = some ⟨k, w⟩

variable {kinds : Nat → Option ObjKind} {m : Machine}

theorem holds_iff {w : Nat} : holds m w = true ↔ ∃ o, m.obj (m.word w) = some o ∧ o.word = w := by
  simp [holds, Option.any_eq_true]

theorem Held.free (h : Held kinds m) {w : Nat} (hw : holds m w = false) {p : Nat} {o : Obj}
    (ho : m.obj p = some o) : o.word ≠ w := by
  rintro rfl
  have hword := h.inWord p o ho
  have htrue : holds m o.word = true := holds_iff.mpr ⟨o, hword ▸ ho, rfl⟩
  rw [hw] at htrue
  exact Bool.false_ne_true htrue

theorem Held.free_of_low (h : Held kinds m) {w : Nat} (hw : m.word w ≤ 0xFFFF) :
    holds m w = false := by
  rw [Bool.eq_false_iff]
  intro htrue
  obtain ⟨o, ho, _⟩ := holds_iff.mp htrue
  exact absurd (h.high _ o ho) (not_lt.mpr hw)

theorem destroys_call (m : Machine) (fn : GlibcFn) (args : List Arg) (p : Nat) :
    destroys (m.call fn args) p = destroys m p + if destroysAt p ⟨fn, args⟩ then 1 else 0 := by
  simp [destroys, Machine.call, List.countP_append, List.countP_cons]

theorem held_call (h : Held kinds m) (fn : GlibcFn) (args : List Arg)
    (hcall : ∀ p, 0xFFFF < p → destroysAt p ⟨fn, args⟩ = false) :
    Held kinds (m.call fn args) := by
  refine ⟨h.high, h.inWord, fun p hp => ?_, h.words⟩
  rw [destroys_call, h.low p hp, hcall p hp]
  rfl

theorem destroysAt_of_ne {fn : GlibcFn} (hm : fn ≠ .mutexDestroy) (hc : fn ≠ .condDestroy)
    (args : List Arg) (p : Nat) : destroysAt p ⟨fn, args⟩ = false := by
  simp [destroysAt, hm, hc]

theorem destroysAt_of_low {fn : GlibcFn} {a : Arg} (ha : a.ptr ≤ 0xFFFF) {p : Nat}
    (hp : 0xFFFF < p) : destroysAt p ⟨fn, [a]⟩ = false := by
  have hne : a.ptr ≠ p := by omega
  simp [destroysAt, hne]

theorem held_new {kinds' : Nat → Option ObjKind} {o : Obj} {p : Option Nat} (h : Held kinds m)
    (hfree : holds m o.word = false) (hp : Fresh m p) (hkinds : ∀ x ≠ o.word, kinds' x = kinds x)
    (hk : ∀ k, kinds' o.word = some k → k = o.kind) :
    Held kinds' (storeReal o.word (m.alloc o p)).1 := by
  cases p with
  | none =>
    refine ⟨h.high, fun q o' hq => ?_, h.low, fun w k hw hlt => ?_⟩
    · exact (Function.update_of_ne (h.free hfree hq) _ m.word).trans (h.inWord q o' hq)
    · by_cases hwo : w = o.word
      · subst w
        simp [storeReal, Machine.store, Machine.alloc] at hlt
      · simp only [storeReal, Machine.store, Machine.alloc, Function.update_of_ne hwo] at hlt ⊢
        exact h.words w k (hkinds w hwo ▸ hw) hlt
  | some q =>
    obtain ⟨hlow, _, hnone⟩ := hp
    refine ⟨fun r o' hr => ?_, fun r o' hr => ?_, h.low, fun w k hw hlt => ?_⟩
    · by_cases hrq : r = q
      · exact hrq ▸ hlow
      · exact h.high r o' ((Function.update_of_ne hrq _ m.obj).symm.trans hr)
    · by_cases hrq : r = q
      · subst r
        have hself : (m.alloc o (some q)).1.obj q = some o := Function.update_self ..
        obtain rfl : o = o' := Option.some.inj (hself.symm.trans hr)
        exact Function.update_self ..
      · have hr : m.obj r = some o' := (Function.update_of_ne hrq _ m.obj).symm.trans hr
        exact (Function.update_of_ne (h.free hfree hr) _ m.word).trans (h.inWord r o' hr)
    · by_cases hwo : w = o.word
      · subst w
        simp only [storeReal, Machine.store, Machine.alloc, Function.update_self]
        rw [hk k hw]
      · simp only [storeReal, Machine.store, Machine.alloc, Function.update_of_ne hwo] at hlt ⊢
        have hobj := h.words w k (hkinds w hwo ▸ hw) hlt
        have hne : m.word w ≠ q := by
          intro heq
          rw [heq, hnone] at hobj
          exact Option.some_ne_none _ hobj.symm
        exact (Function.update_of_ne hne _ m.obj).trans hobj

structure Read (kinds : Nat → Option ObjKind) (m : Machine) (w : Nat) (p : Option Nat)
    (r : Machine) : Prop where
  held : Held kinds r
  word : ∀ x ≠ w, r.word x = m.word x
  fresh : ∀ q, Fresh m q → (p = none ∨ p ≠ q) → Fresh r q

theorem read_ite {o : Obj} {p : Option Nat} (h : Held kinds m) {init : GlibcFn}
    (hm : init ≠ .mutexDestroy) (hc : init ≠ .condDestroy) (hk : kinds o.word = some o.kind)
    (hp : Fresh m p) :
    Read kinds m o.word p (if m.word o.word ≤ 0xFFFF then storeReal o.word (allocInit m init o p)
      else (m, m.word o.word)).1 := by
  by_cases hv : m.word o.word ≤ 0xFFFF
  · rw [if_pos hv]
    refine ⟨?_, fun x hx => ?_, fun q hq hne => ?_⟩
    · refine held_call (held_new h (h.free_of_low hv) hp (fun _ _ => rfl) ?_) init
        [⟨o, (m.alloc o p).2⟩] (fun q _ => destroysAt_of_ne hm hc _ q)
      intro k hk'
      exact Option.some.inj (hk'.symm.trans hk)
    · cases p <;> exact Function.update_of_ne hx _ m.word
    · cases p with
      | none => exact hq
      | some p =>
        cases q with
        | none => trivial
        | some q =>
          have hqp : q ≠ p := by
            rintro rfl
            simp at hne
          exact ⟨hq.1, hq.2.1, (Function.update_of_ne hqp _ m.obj).trans hq.2.2⟩
  · rw [if_neg hv]
    exact ⟨h, fun _ _ => rfl, fun _ hq _ => hq⟩

theorem read_mutex {mutex : Nat} {p : Option Nat} (h : Held kinds m)
    (hk : kinds mutex = some .mutex) (hp : Fresh m p) :
    Read kinds m mutex p (realMutex m mutex (m.word mutex) p).1 :=
  read_ite (o := ⟨.mutex, mutex⟩) h (by simp) (by simp) hk hp

theorem read_cond {cond : Nat} {p : Option Nat} (h : Held kinds m)
    (hk : kinds cond = some .cond) (hp : Fresh m p) :
    Read kinds m cond p (realCond m cond (m.word cond) p).1 :=
  read_ite (o := ⟨.cond, cond⟩) h (by simp) (by simp) hk hp

theorem held_wait {cond mutex : Nat} {pc pm : Option Nat} {fn : GlibcFn} (ret : Int)
    (h : Held kinds m) (hm : fn ≠ .mutexDestroy) (hc : fn ≠ .condDestroy)
    (hcond : kinds cond = some .cond) (hmutex : kinds mutex = some .mutex) (hpc : Fresh m pc)
    (hpm : Fresh m pm) (hne : pc = none ∨ pc ≠ pm) :
    Held kinds (condWaitWith fn m cond mutex pc pm ret).1 := by
  have hrc := read_cond h hcond hpc
  have hdiff : mutex ≠ cond := by
    rintro rfl
    simp [hcond] at hmutex
  have hrm := read_mutex hrc.held hmutex (hrc.fresh pm hpm hne)
  rw [hrc.word mutex hdiff] at hrm
  exact held_call hrm.held fn _ (fun p _ => destroysAt_of_ne hm hc _ p)

theorem held_kinds {kinds' : Nat → Option ObjKind} (h : Held kinds m)
    (hk : ∀ w k, kinds' w = some k → kinds w = some k) : Held kinds' m :=
  ⟨h.high, h.inWord, h.low, fun w k hw => h.words w k (hk w k hw)⟩

theorem held_destroy {w : Nat} {k : ObjKind} (h : Held kinds m) (hfree : holds m w = false)
    (hk : kinds w = some k) (fn : GlibcFn) (o : Obj) :
    Held kinds (m.call fn [⟨o, m.word w⟩]) := by
  refine held_call h fn _ (fun p hp => destroysAt_of_low ?_ hp)
  by_contra hv
  have hobj := h.words w k hk (not_le.mp hv)
  have htrue : holds m w = true := holds_iff.mpr ⟨_, hobj, rfl⟩
  rw [hfree] at htrue
  exact Bool.false_ne_true htrue

theorem held_clear {w : Nat} (h : Held kinds m) (hfree : holds m w = false) :
    Held kinds (m.store w 0) := by
  refine ⟨h.high, fun p o ho => ?_, h.low, fun x k hx hlt => ?_⟩
  · exact (Function.update_of_ne (h.free hfree ho) _ m.word).trans (h.inWord p o ho)
  · by_cases hxw : x = w
    · subst x
      simp [Machine.store] at hlt
    · simp only [Machine.store, Function.update_of_ne hxw] at hlt ⊢
      exact h.words x k hx hlt

structure Sound (h : History) : Prop where
  held : Held h.client.kindAt h.client.m
  frees : h.frees = []
  codes : h.codes = []

theorem Sound.released {h : History} (hs : Sound h) : Released h := by
  refine ⟨fun p o ho => .inl ⟨hs.held.inWord p o ho, hs.held.low p (hs.held.high p o ho), ?_⟩, ?_⟩
  · rw [hs.frees, List.count_nil]
  · intro c hc
    rw [hs.codes] at hc
    exact absurd hc List.not_mem_nil

theorem held_step {s t : PthreadPointers.State} {op : Op} (hs : Held s.kindAt s.m)
    (hk : Kept s.m op) (h : PthreadPointers.step s op = some t) : Held t.kindAt t.m := by
  obtain ⟨hl, h⟩ := Option.ite_none_right_eq_some.mp h
  obtain rfl := Option.some.inj h
  cases op with
  | mutexInit mutex attr p ret =>
    simp only [run, PthreadPointers.pthreadMutexInit_eq, PthreadPointers.roleAfter]
    refine held_call (held_new (o := ⟨.mutex, mutex⟩) hs hk hl
      (kindAt_update_ne _) (fun k hk => kindAt_init (r := .mutex (attr.getD .normal)) hk)) _ _ ?_
    exact fun q _ => destroysAt_of_ne (by simp) (by simp) _ q
  | condInit cond p ret =>
    refine held_call (held_new (o := ⟨.cond, cond⟩) hs hk hl
      (kindAt_update_ne _) (fun k hk => kindAt_init (r := .cond) hk)) _ _ ?_
    exact fun q _ => destroysAt_of_ne (by simp) (by simp) _ q
  | mutexLock mutex p ret =>
    have hr := read_mutex hs hl.1 hl.2
    simp only [run, PthreadPointers.pthreadMutexLock_eq]
    exact held_call hr.held _ _ (fun q _ => destroysAt_of_ne (by simp) (by simp) _ q)
  | mutexTrylock mutex ret | mutexUnlock mutex ret =>
    exact held_call hs _ _ (fun q _ => destroysAt_of_ne (by simp) (by simp) _ q)
  | mutexDestroy mutex ret =>
    refine held_kinds ?_ kindAt_giveUp
    simp only [run, pthreadMutexDestroy]
    split
    · exact hs
    · exact held_destroy hs hk hl.1 _ _
  | condDestroy cond ret junk =>
    refine held_kinds ?_ kindAt_giveUp
    simp only [run, pthreadCondDestroy]
    split
    · exact hs
    · exact held_clear (held_destroy hs hk hl _ _) hk
  | condWait cond mutex pc pm ret | condTimedwait cond mutex abstime pc pm ret
  | condTimedwaitRelativeNp cond mutex now reltime pc pm ret =>
    obtain ⟨hc, hm, hpc, hpm, hne⟩ := hl
    exact held_wait ret hs (by simp) (by simp) hc hm hpc hpm hne
  | condBroadcast cond p ret | condSignal cond p ret =>
    have hr := read_cond hs hl.1 hl.2
    exact held_call hr.held _ _ (fun q _ => destroysAt_of_ne (by simp) (by simp) _ q)

theorem sound_step {s t : History} {op : Op} (hs : Sound s) (hk : Kept s.client.m op)
    (h : step s op = some t) : Sound t := by
  obtain ⟨client, hstep, rfl⟩ := Option.map_eq_some_iff.mp h
  refine ⟨held_step hs.held hk hstep, hs.frees, ?_⟩
  have hcodes : destroyCodes s.client.m op = [] := by
    cases op with
    | mutexDestroy w ret | condDestroy w ret junk =>
      have hfree : holds s.client.m w = false := hk
      simp [destroyCodes, hfree]
    | _ => rfl
  simp only [hs.codes, hcodes, List.append_nil]

/-- Nothing is ever freed, so an object that is destroyed or that its word
loses is not released. -/
theorem not_released {h : History} (hfrees : h.frees = []) {p : Nat} {o : Obj}
    (ho : h.client.m.obj p = some o)
    (hbad : h.client.m.word o.word ≠ p ∨ destroys h.client.m p ≠ 0) : ¬ Released h := by
  intro hr
  obtain ⟨hw, hd, _⟩ | ⟨_, _, hf⟩ := hr.objects p o ho
  · exact hbad.elim (fun h => h hw) (fun h => h hd)
  · rw [hfrees, List.count_nil] at hf
    exact absurd hf (by decide)

theorem lost_init {o x : Obj} {q : Nat} {p : Option Nat} (hobj : m.obj q = some o)
    (hword : o.word = x.word) (hq : 0xFFFF < q) (hp : Fresh m p) :
    (storeReal x.word (m.alloc x p)).1.obj q = some o ∧
      (storeReal x.word (m.alloc x p)).1.word o.word ≠ q := by
  have hself : (storeReal x.word (m.alloc x p)).1.word o.word = (m.alloc x p).2 := by
    rw [hword]
    exact Function.update_self ..
  rw [hself]
  cases p with
  | none =>
    refine ⟨hobj, fun h => ?_⟩
    have hzero : 0 = q := h
    omega
  | some p =>
    refine ⟨alloc_obj_of_some hp hobj, fun h => ?_⟩
    have hpq : p = q := h
    rw [← hpq, hp.2.2] at hobj
    exact Option.some_ne_none o hobj.symm

theorem not_released_step {s t : History} {op : Op} (hs : Sound s) (hk : ¬ Kept s.client.m op)
    (h : step s op = some t) : ¬ Released t := by
  obtain ⟨client, hstep, rfl⟩ := Option.map_eq_some_iff.mp h
  obtain ⟨hl, hstep⟩ := Option.ite_none_right_eq_some.mp hstep
  obtain rfl := Option.some.inj hstep
  cases op with
  | mutexInit w attr p ret =>
    obtain ⟨o, ho, hw⟩ := holds_iff.mp (Bool.not_eq_false _ ▸ hk)
    obtain ⟨hobj, hlost⟩ :=
      lost_init (x := ⟨.mutex, w⟩) ho hw (hs.held.high _ o ho) hl
    simp only [run, PthreadPointers.pthreadMutexInit_eq]
    exact not_released hs.frees hobj (.inl hlost)
  | condInit w p ret =>
    obtain ⟨o, ho, hw⟩ := holds_iff.mp (Bool.not_eq_false _ ▸ hk)
    obtain ⟨hobj, hlost⟩ :=
      lost_init (x := ⟨.cond, w⟩) ho hw (hs.held.high _ o ho) hl
    exact not_released hs.frees hobj (.inl hlost)
  | mutexDestroy w ret =>
    obtain ⟨o, ho, _⟩ := holds_iff.mp (Bool.not_eq_false _ ▸ hk)
    have hne : s.client.m.word w ≠ 0 := Nat.ne_of_gt (Nat.zero_lt_of_lt (hs.held.high _ o ho))
    simp only [run, pthreadMutexDestroy, if_neg hne]
    refine not_released hs.frees ho (.inr ?_)
    rw [destroys_call]
    simp [destroysAt]
  | condDestroy w ret junk =>
    obtain ⟨o, ho, _⟩ := holds_iff.mp (Bool.not_eq_false _ ▸ hk)
    have hne : s.client.m.word w ≠ 0 := Nat.ne_of_gt (Nat.zero_lt_of_lt (hs.held.high _ o ho))
    simp only [run, pthreadCondDestroy, if_neg hne]
    refine not_released hs.frees ho (.inr ?_)
    have hcall := destroys_call s.client.m .condDestroy [⟨⟨.cond, w⟩, s.client.m.word w⟩]
      (s.client.m.word w)
    simp only [destroys, Machine.store] at hcall ⊢
    rw [hcall]
    simp [destroysAt]
  | _ => exact absurd trivial hk

theorem sound_start (decl : Nat → Option Initialiser) (mem : Nat → Nat) :
    Sound (start decl mem) := by
  have hok := PthreadPointers.ok_start decl mem
  refine ⟨⟨hok.high, fun p o ho => ?_, fun _ _ => rfl, hok.words⟩, rfl, rfl⟩
  exact absurd ho.symm (Option.some_ne_none o)

/-- Every object is released as it should be precisely in the histories in
which none is ever given up. -/
theorem released_iff_kept (decl : Nat → Option Initialiser) (mem : Nat → Nat) (ops : List Op)
    (hrun : (exec step (start decl mem) ops).isSome) :
    Always step Released (start decl mem) ops ↔
      Guarded step (fun h op => Kept h.client.m op) (start decl mem) ops :=
  always_iff_guarded (fun _ hs => hs.released) (fun _ _ _ hs hk h => sound_step hs hk h)
    (fun _ _ _ hs hk h => not_released_step hs hk h) (sound_start decl mem) hrun

theorem released_iff_kept_static :
    Always step Released (start twoStatics fun _ => 7)
      [.mutexLock 4 (some 0x10000) 0, .condWait 8 4 (some 0x10040) none 0, .mutexUnlock 4 0,
        .mutexInit 12 none (some 0x10080) 0, .condBroadcast 8 none 0] :=
  (released_iff_kept _ _ _ (by decide)).mpr (by decide)

/-- glibc destroys the object, nobody frees it, and its address stays in the
word. A cond leaves its word, but the call returns what was never assigned. -/
theorem not_released_destroy :
    ((exec step (start twoStatics fun _ => 7)
        [.mutexInit 12 none (some 0x10080) 0, .mutexDestroy 12 0, .condInit 16 (some 0x100C0) 0,
          .condDestroy 16 0 5]).map
      (fun h => (h.client.m.word 12, h.frees, h.client.m.word 16, h.codes)) =
        some (0x10080, [], 0, [(0, 0), (5, 0)])) ∧
      ¬ Always step Released (start twoStatics fun _ => 7)
        [.mutexInit 12 none (some 0x10080) 0, .mutexDestroy 12 0, .condInit 16 (some 0x100C0) 0,
          .condDestroy 16 0 5] := by
  refine ⟨by decide, fun h => ?_⟩
  have hlast := (h _ _ List.prefix_rfl rfl).codes (5, 0) (by decide)
  exact absurd hlast (by decide)

end FakeLibc.ObjectRelease

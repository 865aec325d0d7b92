import FakeLibc.Lib.Run
import FakeLibc.LazyInit

namespace FakeLibc.OneObject

open FakeLibc.Lib.Run FakeLibc.Lib.Ownership FakeLibc.PthreadWords FakeLibc.LazyInit

def names : Pc → List Obj
  | .idle => []
  | .lockLoad w | .lockAlloc w _ | .lockStore w _ | .lockReload w | .lockCall w _
  | .lockReturn w _ | .unlockLoad w | .unlockCall w _ => [⟨.mutex, w⟩]
  | .waitLoadCond _ c w | .waitLoadMutex _ c w _ | .waitAllocCond _ c w _
  | .waitStoreCond _ c w _ _ | .waitAllocMutex _ c w _ _ | .waitStoreMutex _ c w _ _
  | .waitCall _ c w _ _ | .waitReturn _ c w _ _ => [⟨.cond, c⟩, ⟨.mutex, w⟩]
  | .wakeLoad _ c | .wakeAlloc _ c | .wakeStore _ c _ | .wakeCall _ c _ => [⟨.cond, c⟩]

/-- What a call has in hand to pass to glibc: addresses that it read from a
word or stored there, and initialisers that it has not replaced yet. -/
def inHand : Pc → List Arg
  | .lockCall w p | .lockReturn w p | .unlockCall w p => [⟨⟨.mutex, w⟩, p⟩]
  | .waitLoadMutex _ c _ v => [⟨⟨.cond, c⟩, v⟩]
  | .waitAllocCond _ _ w v | .waitStoreCond _ _ w _ v => [⟨⟨.mutex, w⟩, v⟩]
  | .waitAllocMutex _ c _ p _ | .waitStoreMutex _ c _ p _ => [⟨⟨.cond, c⟩, p⟩]
  | .waitCall _ c w p q | .waitReturn _ c w p q => [⟨⟨.cond, c⟩, p⟩, ⟨⟨.mutex, w⟩, q⟩]
  | .wakeCall _ c p => [⟨⟨.cond, c⟩, p⟩]
  | _ => []

def storing : Pc → Option Arg
  | .lockStore w p | .waitStoreMutex _ _ w _ p => some ⟨⟨.mutex, w⟩, p⟩
  | .waitStoreCond _ c _ p _ | .wakeStore _ c p => some ⟨⟨.cond, c⟩, p⟩
  | _ => none

def Ready : Pc → Prop
  | .lockCall _ _ | .lockReturn _ _ | .unlockCall _ _ | .waitAllocMutex _ _ _ _ _
  | .waitStoreMutex _ _ _ _ _ | .waitCall _ _ _ _ _ | .waitReturn _ _ _ _ _ | .wakeCall _ _ _ =>
    True
  | _ => False

def rereads : Pc → Option Nat
  | .lockReload w | .unlockLoad w => some w
  | _ => none

def Waiting : Pc → Prop
  | .lockReturn _ _ | .waitReturn _ _ _ _ _ => True
  | _ => False

def Forwarded : GlibcFn → Prop
  | .mutexInit _ | .condInit => False
  | _ => True

def Logged (m : Machine) (a : Arg) : Prop :=
  ∃ call ∈ m.calls, Forwarded call.fn ∧ a ∈ call.args

/-- A call has been forwarded to the address, or a thread has it in hand. -/
def Used (s : State) (a : Arg) : Prop :=
  0xFFFF < a.ptr ∧ (Logged s.m a ∨ ∃ t, a ∈ inHand (s.pc t))

/-- A thread that stores a new object finds its word unused. -/
def Unraced (s : State) : Action → Prop
  | .step t _ => ∀ a, storing (s.pc t) = some a → ∀ p, ¬ Used s ⟨a.obj, p⟩
  | _ => True

variable {role : Nat → ObjKind} {s s' : State}

def Holds (role : Nat → ObjKind) (m : Machine) (a : Arg) : Prop :=
  role a.obj.word = a.obj.kind ∧ m.word a.obj.word = a.ptr ∧ 0xFFFF < a.ptr

/-- What has been passed to glibc for a word, what is about to be, and what
the word holds for later calls is one address. -/
def OneAddress (role : Nat → ObjKind) (s : State) : Prop :=
  ∀ o p q, (Used s ⟨o, p⟩ ∨ Holds role s.m ⟨o, p⟩) → (Used s ⟨o, q⟩ ∨ Holds role s.m ⟨o, q⟩) → p = q

/-- Calls are forwarded to real objects that were made for the word. -/
def RealObjects (s : State) : Prop :=
  ∀ a, Logged s.m a → 0xFFFF < a.ptr ∧ s.m.obj a.ptr = some a.obj

/-- At most one thread is between a returned lock of a mutex and its unlock. -/
def Exclusive (s : State) : Prop :=
  ∀ w t u, 0 < s.locks.inside t w → 0 < s.locks.inside u w → t = u

/-- Whoever is woken on a cond word and whoever waits there use one cond. -/
def SameCond (s : State) : Prop :=
  ∀ t u fn fn' c w p q r, s.pc t = .waitReturn fn c w p q → s.pc u = .wakeCall fn' c r →
    0xFFFF < p ∧ p = r

structure Inv (role : Nat → ObjKind) (s : State) : Prop where
  roles : ∀ t, ∀ o ∈ names (s.pc t), role o.word = o.kind
  word : ∀ w, 0xFFFF < s.m.word w → s.m.obj (s.m.word w) = some ⟨role w, w⟩
  hand : ∀ t, ∀ a ∈ inHand (s.pc t), 0xFFFF < a.ptr → s.m.word a.obj.word = a.ptr
  ready : ∀ t, Ready (s.pc t) → ∀ a ∈ inHand (s.pc t), 0xFFFF < a.ptr
  rereads : ∀ t w, rereads (s.pc t) = some w → 0xFFFF < s.m.word w
  logged : ∀ a, Logged s.m a → Holds role s.m a
  stored : ∀ t a, storing (s.pc t) = some a →
    0xFFFF < a.ptr ∧ s.m.obj a.ptr = some a.obj ∧ s.m.word a.obj.word ≠ a.ptr
  stores : ∀ t u a b, storing (s.pc t) = some a → storing (s.pc u) = some b → a.ptr = b.ptr → t = u

theorem inHand_names {pc : Pc} {a : Arg} (h : a ∈ inHand pc) : a.obj ∈ names pc := by
  cases pc <;> simp only [inHand, List.mem_cons, List.not_mem_nil, or_false] at h
  case waitCall | waitReturn => obtain rfl | rfl := h <;> simp [names]
  all_goals simp [names, h]

theorem storing_names {pc : Pc} {a : Arg} (h : storing pc = some a) : a.obj ∈ names pc := by
  cases pc <;> simp [storing] at h <;> simp [names, ← h]

inductive Moves (s : State) (t : Nat) (m' : Machine) (pc' : Pc) : Prop
  | reads (mem : m' = s.m) (hand : ∀ a ∈ inHand pc', a ∈ inHand (s.pc t) ∨
      s.m.word a.obj.word = a.ptr) (rests : storing pc' = none) (here : ¬ Waiting pc')
  | allocs {init : GlibcFn} {o : Obj} {q : Nat} (mem : m' = (allocInit s.m init o (some q)).1)
      (fn : ¬ Forwarded init) (fresh : Fresh s.m (some q))
      (hand : ∀ a ∈ inHand pc', a ∈ inHand (s.pc t)) (stores : storing pc' = some ⟨o, q⟩)
  | stores {a : Arg} (storing_eq : storing (s.pc t) = some a)
      (mem : m' = s.m.store a.obj.word a.ptr)
      (hand : ∀ b ∈ inHand pc', b ∈ inHand (s.pc t) ∨ b = a)
      (rests : storing pc' = none) (here : ¬ Waiting pc')
  | calls {fn : GlibcFn} (mem : m' = s.m.call fn (inHand (s.pc t))) (ready : Ready (s.pc t))
      (forwarded : Forwarded fn) (hand : ∀ a ∈ inHand pc', a ∈ inHand (s.pc t))
      (rests : storing pc' = none)

structure Arrives (role : Nat → ObjKind) (m' : Machine) (pc' : Pc) : Prop where
  roles : ∀ o ∈ names pc', role o.word = o.kind
  ready : Ready pc' → ∀ a ∈ inHand pc', 0xFFFF < a.ptr
  rereads : ∀ w, rereads pc' = some w → 0xFFFF < m'.word w

def Stepped (role : Nat → ObjKind) (s s' : State) (t : Nat) : Prop :=
  ∃ pc', s'.pc = Function.update s.pc t pc' ∧ Arrives role s'.m pc' ∧ Moves s t s'.m pc'

theorem logged_call {m : Machine} {fn : GlibcFn} {args : List Arg} {a : Arg} :
    Logged (m.call fn args) a ↔ Logged m a ∨ (Forwarded fn ∧ a ∈ args) := by
  simp [Logged, Machine.call, or_and_right, exists_or]

theorem Used.holds (hs : Inv role s) {a : Arg} (h : Used s a) : Holds role s.m a := by
  obtain ⟨hlow, hlog | ⟨t, ha⟩⟩ := h
  · exact hs.logged a hlog
  · exact ⟨hs.roles t _ (inHand_names ha), hs.hand t a ha hlow, hlow⟩

theorem Holds.obj (hs : Inv role s) {a : Arg} (h : Holds role s.m a) :
    s.m.obj a.ptr = some a.obj := by
  obtain ⟨hrole, hword, hlow⟩ := h
  have hobj := hs.word a.obj.word (hword ▸ hlow)
  rw [hword, hrole] at hobj
  exact hobj

theorem Inv.oneAddress (hs : Inv role s) : OneAddress role s := by
  intro o p q hp hq
  have hp : Holds role s.m ⟨o, p⟩ := hp.elim (Used.holds hs) id
  have hq : Holds role s.m ⟨o, q⟩ := hq.elim (Used.holds hs) id
  exact hp.2.1.symm.trans hq.2.1

theorem Inv.realObjects (hs : Inv role s) : RealObjects s :=
  fun a ha => ⟨(hs.logged a ha).2.2, Holds.obj hs (hs.logged a ha)⟩

theorem Inv.sameCond (hs : Inv role s) : SameCond s := by
  intro t u fn fn' c w p q r ht hu
  have hp : Used s ⟨⟨.cond, c⟩, p⟩ := by
    have hin : ⟨⟨.cond, c⟩, p⟩ ∈ inHand (s.pc t) := by simp [ht, inHand]
    exact ⟨hs.ready t (by simp [ht, Ready]) _ hin, .inr ⟨t, hin⟩⟩
  have hr : Used s ⟨⟨.cond, c⟩, r⟩ := by
    have hin : ⟨⟨.cond, c⟩, r⟩ ∈ inHand (s.pc u) := by simp [hu, inHand]
    exact ⟨hs.ready u (by simp [hu, Ready]) _ hin, .inr ⟨u, hin⟩⟩
  exact ⟨hp.1, hs.oneAddress _ p r (.inl hp) (.inl hr)⟩

theorem inv_of_word {t : Nat} (hs : Inv role s) (hpc : ∀ u ≠ t, s'.pc u = s.pc u)
    (hgo : Arrives role s'.m (s'.pc t)) (hword : s'.m.word = s.m.word)
    (hobj : ∀ p o, s.m.obj p = some o → s'.m.obj p = some o)
    (hlog : ∀ a, Logged s'.m a → Holds role s.m a)
    (hhand : ∀ a ∈ inHand (s'.pc t), a ∈ inHand (s.pc t) ∨ s.m.word a.obj.word = a.ptr)
    (hstored : ∀ a, storing (s'.pc t) = some a →
      0xFFFF < a.ptr ∧ s'.m.obj a.ptr = some a.obj ∧ s.m.obj a.ptr = none) : Inv role s' := by
  have hmine : ∀ a, storing (s'.pc t) = some a → ∀ p o, s.m.obj p = some o → p ≠ a.ptr := by
    rintro a ha p o hp rfl
    rw [(hstored a ha).2.2] at hp
    exact Option.some_ne_none o hp.symm
  refine ⟨fun u => ?_, fun w hw => ?_, fun u a ha hlow => ?_, fun u => ?_, fun u w hw => ?_,
    fun a ha => ?_, fun u a ha => ?_, fun u v a b ha hb hab => ?_⟩
  · by_cases hu : u = t
    · exact hu ▸ hgo.roles
    · exact hpc u hu ▸ hs.roles u
  · rw [hword] at hw ⊢
    exact hobj _ _ (hs.word w hw)
  · rw [hword]
    by_cases hu : u = t
    · subst u
      exact (hhand a ha).elim (fun ha => hs.hand t a ha hlow) id
    · exact hs.hand u a (hpc u hu ▸ ha) hlow
  · by_cases hu : u = t
    · exact hu ▸ hgo.ready
    · exact hpc u hu ▸ hs.ready u
  · by_cases hu : u = t
    · exact hgo.rereads w (hu ▸ hw)
    · rw [hword]
      exact hs.rereads u w (hpc u hu ▸ hw)
  · obtain ⟨hrole, hw, hlow⟩ := hlog a ha
    exact ⟨hrole, (congrFun hword a.obj.word).trans hw, hlow⟩
  · by_cases hu : u = t
    · subst u
      refine ⟨(hstored a ha).1, (hstored a ha).2.1, fun hw => ?_⟩
      rw [hword] at hw
      exact hmine a ha _ _ (hs.word a.obj.word (hw ▸ (hstored a ha).1)) hw
    · obtain ⟨hlow, ho, hne⟩ := hs.stored u a (hpc u hu ▸ ha)
      exact ⟨hlow, hobj _ _ ho, by rwa [hword]⟩
  · by_cases hu : u = t <;> by_cases hv : v = t
    · rw [hu, hv]
    · subst u
      exact absurd hab.symm (hmine a ha _ _ (hs.stored v b (hpc v hv ▸ hb)).2.1)
    · subst v
      exact absurd hab (hmine b hb _ _ (hs.stored u a (hpc u hu ▸ ha)).2.1)
    · exact hs.stores u v a b (hpc u hu ▸ ha) (hpc v hv ▸ hb) hab

theorem obj_eq {o o' : Obj} (h : role o.word = o.kind) (h' : role o'.word = o'.kind)
    (hw : o.word = o'.word) : o = o' := by
  cases o
  cases o'
  simp_all

/-- An unraced store makes its own word point to the new object, and no other
call has to do with that word yet. -/
theorem inv_of_store {t : Nat} {a : Arg} (hs : Inv role s) (hpc : ∀ u ≠ t, s'.pc u = s.pc u)
    (hgo : Arrives role s'.m (s'.pc t)) (ha : storing (s.pc t) = some a)
    (hm : s'.m = s.m.store a.obj.word a.ptr)
    (hhand : ∀ b ∈ inHand (s'.pc t), b ∈ inHand (s.pc t) ∨ b = a)
    (hrests : storing (s'.pc t) = none) (hfree : ∀ p, ¬ Used s ⟨a.obj, p⟩) : Inv role s' := by
  obtain ⟨hlow, hobj, hne⟩ := hs.stored t a ha
  have hrole := hs.roles t a.obj (storing_names ha)
  have hself : s'.m.word a.obj.word = a.ptr := by
    rw [hm]
    exact Function.update_self ..
  have hother : ∀ w, w ≠ a.obj.word → s'.m.word w = s.m.word w := by
    intro w hw
    rw [hm]
    exact Function.update_of_ne hw _ s.m.word
  have hobjs : s'.m.obj = s.m.obj := by rw [hm]; rfl
  have hcalls : s'.m.calls = s.m.calls := by rw [hm]; rfl
  have hused : ∀ b, Used s b → b.obj.word ≠ a.obj.word := by
    intro b hb hw
    exact hfree b.ptr (obj_eq (Used.holds hs hb).1 hrole hw ▸ hb)
  have hword : ∀ w, 0xFFFF < s.m.word w → 0xFFFF < s'.m.word w := by
    intro w hw
    by_cases hwa : w = a.obj.word
    · rwa [hwa, hself]
    · rwa [hother w hwa]
  refine ⟨fun u => ?_, fun w hw => ?_, fun u b hb hbl => ?_, fun u => ?_, fun u w hw => ?_,
    fun b hb => ?_, fun u b hb => ?_, fun u v b c hb hc => ?_⟩
  · by_cases hu : u = t
    · exact hu ▸ hgo.roles
    · exact hpc u hu ▸ hs.roles u
  · rw [hobjs]
    by_cases hwa : w = a.obj.word
    · rw [hwa, hself, hrole, hobj]
    · rw [hother w hwa] at hw ⊢
      exact hs.word w hw
  · by_cases hba : b = a
    · rw [hba, hself]
    · have hb : ∃ v, b ∈ inHand (s.pc v) := by
        by_cases hu : u = t
        · subst u
          exact ⟨t, (hhand b hb).resolve_right hba⟩
        · exact ⟨u, hpc u hu ▸ hb⟩
      obtain ⟨v, hb⟩ := hb
      rw [hother _ (hused b ⟨hbl, .inr ⟨v, hb⟩⟩)]
      exact hs.hand v b hb hbl
  · by_cases hu : u = t
    · exact hu ▸ hgo.ready
    · exact hpc u hu ▸ hs.ready u
  · by_cases hu : u = t
    · exact hgo.rereads w (hu ▸ hw)
    · exact hword w (hs.rereads u w (hpc u hu ▸ hw))
  · have hb : Logged s.m b := by rwa [Logged, hcalls] at hb
    obtain ⟨hbrole, hbword, hbl⟩ := hs.logged b hb
    exact ⟨hbrole, (hother _ (hused b ⟨hbl, .inl hb⟩)).trans hbword, hbl⟩
  · by_cases hu : u = t
    · rw [hu, hrests] at hb
      exact absurd hb.symm (Option.some_ne_none b)
    · rw [hpc u hu] at hb
      obtain ⟨hbl, hbo, hbne⟩ := hs.stored u b hb
      refine ⟨hbl, hobjs ▸ hbo, ?_⟩
      by_cases hba : b.obj.word = a.obj.word
      · rw [hba, hself]
        exact fun h => hu (hs.stores u t b a hb ha h.symm)
      · rwa [hother _ hba]
  · have hne : ∀ x d, storing (s'.pc x) = some d → storing (s.pc x) = some d := by
      intro x d hd
      by_cases hx : x = t
      · rw [hx, hrests] at hd
        exact absurd hd.symm (Option.some_ne_none d)
      · exact hpc x hx ▸ hd
    exact hs.stores u v b c (hne u b hb) (hne v c hc)

theorem inv_stepped {t : Nat} {q : Nat} (hs : Inv role s) (h : Stepped role s s' t)
    (hg : Unraced s (.step t q)) : Inv role s' := by
  obtain ⟨pc', hpc', hgo, hm⟩ := h
  have hpc : ∀ u ≠ t, s'.pc u = s.pc u := by
    intro u hu
    rw [hpc', Function.update_of_ne hu]
  obtain rfl : s'.pc t = pc' := by rw [hpc', Function.update_self]
  cases hm with
  | reads mem hand rests here =>
    refine inv_of_word hs hpc hgo (by rw [mem]) (by simp [mem]) ?_ hand (by simp [rests])
    rw [mem]
    exact hs.logged
  | @allocs init o p mem fn fresh hand stores =>
    have hobj : ∀ q o', s.m.obj q = some o' → s'.m.obj q = some o' := by
      rw [mem]
      exact fun q o' hq => alloc_obj_of_some fresh hq
    refine inv_of_word hs hpc hgo (by rw [mem]; rfl) hobj (fun a ha => ?_)
      (fun a ha => .inl (hand a ha)) (fun a ha => ?_)
    · rw [mem, allocInit, logged_call] at ha
      exact hs.logged a (ha.resolve_right (fun h => fn h.1))
    · obtain rfl := Option.some.inj (stores.symm.trans ha)
      refine ⟨fresh.1, ?_, fresh.2.2⟩
      rw [mem]
      exact Function.update_self ..
  | stores storing_eq mem hand rests here =>
    exact inv_of_store hs hpc hgo storing_eq mem hand rests (hg _ storing_eq)
  | calls mem ready forwarded hand rests =>
    refine inv_of_word hs hpc hgo (by rw [mem]; rfl) (fun p o hp => by rw [mem]; exact hp)
      (fun a ha => ?_) (fun a ha => .inl (hand a ha)) (by simp [rests])
    rw [mem, logged_call] at ha
    obtain ha | ⟨_, ha⟩ := ha
    · exact hs.logged a ha
    · have hlow := hs.ready t ready a ha
      exact Used.holds hs ⟨hlow, .inr ⟨t, ha⟩⟩

variable {t q : Nat} {s₀ : State} {pc' : Pc}

theorem stepped_reads (hpc : s₀.pc = s.pc) (hm : s₀.m = s.m) (hgo : Arrives role s.m pc')
    (hand : ∀ a ∈ inHand pc', a ∈ inHand (s.pc t) ∨ s.m.word a.obj.word = a.ptr)
    (rests : storing pc' = none) (here : ¬ Waiting pc') : Stepped role s (s₀.goto t pc') t := by
  refine ⟨pc', by rw [← hpc]; rfl, ?_, .reads hm hand rests here⟩
  rw [← hm] at hgo
  exact hgo

theorem stepped_allocs {init : GlibcFn} {o : Obj} (hm : s₀.m = (allocInit s.m init o (some q)).1)
    (hpc : s₀.pc = s.pc) (hq : Fresh s.m (some q)) (fn : ¬ Forwarded init)
    (hgo : Arrives role s.m pc') (hand : ∀ a ∈ inHand pc', a ∈ inHand (s.pc t))
    (stores : storing pc' = some ⟨o, q⟩) : Stepped role s (s₀.goto t pc') t := by
  refine ⟨pc', by rw [← hpc]; rfl, ⟨hgo.roles, hgo.ready, fun w hw => ?_⟩,
    .allocs hm fn hq hand stores⟩
  have hword : (s₀.goto t pc').m.word = s.m.word := by
    change s₀.m.word = s.m.word
    rw [hm]
    rfl
  rw [hword]
  exact hgo.rereads w hw

theorem stepped_stores {a : Arg} (ha : storing (s.pc t) = some a)
    (hgo : Arrives role (s.m.store a.obj.word a.ptr) pc')
    (hand : ∀ b ∈ inHand pc', b ∈ inHand (s.pc t) ∨ b = a)
    (rests : storing pc' = none) (here : ¬ Waiting pc') :
    Stepped role s ({ s with m := s.m.store a.obj.word a.ptr }.goto t pc') t :=
  ⟨pc', rfl, hgo, .stores ha rfl hand rests here⟩

theorem stepped_calls (fn : GlibcFn) (hm : s₀.m = s.m.call fn (inHand (s.pc t)))
    (hpc : s₀.pc = s.pc) (ready : Ready (s.pc t)) (forwarded : Forwarded fn)
    (hgo : Arrives role s.m pc') (hand : ∀ a ∈ inHand pc', a ∈ inHand (s.pc t))
    (rests : storing pc' = none) : Stepped role s (s₀.goto t pc') t := by
  refine ⟨pc', by rw [← hpc]; rfl, ⟨hgo.roles, hgo.ready, fun w hw => ?_⟩,
    .calls hm ready forwarded hand rests⟩
  have hword : (s₀.goto t pc').m.word = s.m.word := by
    change s₀.m.word = s.m.word
    rw [hm]
    rfl
  rw [hword]
  exact hgo.rereads w hw

theorem arrives_idle (m' : Machine) : Arrives role m' .idle :=
  ⟨by simp [names], by simp [inHand], by simp [rereads]⟩

theorem WaitFn.forwarded (fn : WaitFn) : Forwarded fn.glibc := by
  cases fn <;> trivial

theorem WakeFn.forwarded (fn : WakeFn) : Forwarded fn.glibc := by
  cases fn <;> trivial

theorem waitMutex_low {fn : WaitFn} {c w p v : Nat} (hv : v ≤ 0xFFFF) :
    waitMutex fn c w p v = .waitAllocMutex fn c w p v := if_pos hv

theorem waitMutex_high {fn : WaitFn} {c w p v : Nat} (hv : ¬ v ≤ 0xFFFF) :
    waitMutex fn c w p v = .waitCall fn c w p v := if_neg hv

theorem arrives_waitMutex {m' : Machine} {fn : WaitFn} {c w p v : Nat} (hc : role c = .cond)
    (hw : role w = .mutex) (hp : 0xFFFF < p) : Arrives role m' (waitMutex fn c w p v) := by
  by_cases hv : v ≤ 0xFFFF
  · rw [waitMutex_low hv]
    refine ⟨?_, ?_, ?_⟩ <;> simp [names, inHand, rereads, hc, hw, hp]
  · rw [waitMutex_high hv]
    refine ⟨?_, ?_, ?_⟩ <;> simp [names, inHand, rereads, hc, hw, hp, not_le.mp hv]

theorem mem_inHand_waitMutex {fn : WaitFn} {c w p v : Nat} {a : Arg} :
    a ∈ inHand (waitMutex fn c w p v) ↔
      a = ⟨⟨.cond, c⟩, p⟩ ∨ (0xFFFF < v ∧ a = ⟨⟨.mutex, w⟩, v⟩) := by
  by_cases hv : v ≤ 0xFFFF
  · simp [waitMutex_low hv, inHand, hv]
  · simp [waitMutex_high hv, inHand, not_le.mp hv]

theorem storing_waitMutex (fn : WaitFn) (c w p v : Nat) :
    storing (waitMutex fn c w p v) = none := by
  by_cases hv : v ≤ 0xFFFF
  · rw [waitMutex_low hv]
    rfl
  · rw [waitMutex_high hv]
    rfl

theorem waitMutex_not_waiting (fn : WaitFn) (c w p v : Nat) : ¬ Waiting (waitMutex fn c w p v) := by
  by_cases hv : v ≤ 0xFFFF
  · rw [waitMutex_low hv]
    exact id
  · rw [waitMutex_high hv]
    exact id

theorem stepped_advance (hs : Inv role s) (h : advance s t q = some s') :
    Stepped role s s' t := by
  have hroles := hs.roles t
  have hready := hs.ready t
  have hrereads := hs.rereads t
  unfold advance at h
  cases hpc : s.pc t with
  | idle => simp [hpc] at h
  | lockLoad mutex =>
    simp only [hpc, Option.some.injEq] at h
    subst s'
    by_cases hv : s.m.word mutex ≤ androidTopAddrValueMutex
    · rw [if_pos hv]
      refine stepped_reads rfl rfl ⟨?_, ?_, ?_⟩ ?_ rfl id <;>
        simp_all [names, inHand, Ready, rereads]
    · rw [if_neg hv]
      refine stepped_reads rfl rfl ⟨?_, ?_, ?_⟩ ?_ rfl id <;>
        simp_all [androidTopAddrValueMutex, names, inHand, Ready, rereads]
  | lockAlloc mutex value =>
    simp only [hpc, Option.ite_none_right_eq_some, Option.some.injEq] at h
    obtain ⟨hq, rfl⟩ := h
    refine stepped_allocs rfl rfl hq id ⟨?_, ?_, ?_⟩ ?_ rfl <;>
      simp_all [names, inHand, Ready, rereads]
  | lockStore mutex real =>
    simp only [hpc, Option.some.injEq] at h
    subst s'
    have hreal := (hs.stored t ⟨⟨.mutex, mutex⟩, real⟩ (by rw [hpc]; rfl)).1
    refine stepped_stores (a := ⟨⟨.mutex, mutex⟩, real⟩) (by rw [hpc]; rfl) ⟨?_, ?_, ?_⟩ ?_ rfl
      id <;> simp_all [names, inHand, Ready, rereads, Machine.store]
  | lockReload mutex =>
    simp only [hpc, Option.some.injEq] at h
    subst s'
    refine stepped_reads rfl rfl ⟨?_, ?_, ?_⟩ ?_ rfl id <;>
      simp_all [names, inHand, Ready, rereads]
  | lockCall mutex real =>
    simp only [hpc, Option.some.injEq] at h
    subst s'
    refine stepped_calls .mutexLock (by rw [hpc]; rfl) rfl (by rw [hpc]; trivial) trivial
      ⟨?_, ?_, ?_⟩ ?_ rfl <;>
      simp_all [names, inHand, Ready, rereads]
  | lockReturn mutex real =>
    simp only [hpc, Option.map_eq_some_iff] at h
    obtain ⟨locks, _, rfl⟩ := h
    exact stepped_reads rfl rfl (arrives_idle _) (by simp [inHand]) rfl id
  | unlockLoad mutex =>
    simp only [hpc, Option.some.injEq] at h
    subst s'
    refine stepped_reads rfl rfl ⟨?_, ?_, ?_⟩ ?_ rfl id <;>
      simp_all [names, inHand, Ready, rereads]
  | unlockCall mutex real =>
    simp only [hpc, Option.some.injEq] at h
    subst s'
    exact stepped_calls .mutexUnlock (by rw [hpc]; rfl) rfl (by rw [hpc]; trivial) trivial
      (arrives_idle _) (by simp [inHand]) rfl
  | waitLoadCond fn cond mutex =>
    simp only [hpc, Option.some.injEq] at h
    subst s'
    refine stepped_reads rfl rfl ⟨?_, ?_, ?_⟩ ?_ rfl id <;>
      simp_all [names, inHand, Ready, rereads]
  | waitLoadMutex fn cond mutex cvalue =>
    simp only [hpc, Option.some.injEq] at h
    subst s'
    rw [hpc] at hroles
    simp only [names, List.forall_mem_cons] at hroles
    by_cases hv : cvalue ≤ androidTopAddrValueCond
    · rw [if_pos hv]
      refine stepped_reads rfl rfl ⟨?_, ?_, ?_⟩ ?_ rfl id <;>
        simp_all [names, inHand, Ready, rereads]
    · rw [if_neg hv]
      refine stepped_reads rfl rfl (arrives_waitMutex hroles.1 hroles.2.1 (not_le.mp hv)) ?_
        (storing_waitMutex ..) (waitMutex_not_waiting fn cond mutex cvalue _)
      intro a ha
      obtain rfl | ⟨_, rfl⟩ := mem_inHand_waitMutex.mp ha
      · exact .inl (by simp [hpc, inHand])
      · exact .inr rfl
  | waitAllocCond fn cond mutex mvalue =>
    simp only [hpc, Option.ite_none_right_eq_some, Option.some.injEq] at h
    obtain ⟨hq, rfl⟩ := h
    refine stepped_allocs rfl rfl hq id ⟨?_, ?_, ?_⟩ ?_ rfl <;>
      simp_all [names, inHand, Ready, rereads]
  | waitStoreCond fn cond mutex realcond mvalue =>
    simp only [hpc, Option.some.injEq] at h
    subst s'
    rw [hpc] at hroles
    simp only [names, List.forall_mem_cons] at hroles
    have hreal := (hs.stored t ⟨⟨.cond, cond⟩, realcond⟩ (by rw [hpc]; rfl)).1
    refine stepped_stores (a := ⟨⟨.cond, cond⟩, realcond⟩) (by rw [hpc]; rfl)
      (arrives_waitMutex hroles.1 hroles.2.1 hreal) ?_ (storing_waitMutex ..)
      (waitMutex_not_waiting fn cond mutex realcond mvalue)
    · intro b hb
      obtain rfl | ⟨_, rfl⟩ := mem_inHand_waitMutex.mp hb
      · exact .inr rfl
      · exact .inl (by simp [hpc, inHand])
  | waitAllocMutex fn cond mutex realcond mvalue =>
    simp only [hpc, Option.ite_none_right_eq_some, Option.some.injEq] at h
    obtain ⟨hq, rfl⟩ := h
    refine stepped_allocs rfl rfl hq id ⟨?_, ?_, ?_⟩ ?_ rfl <;>
      simp_all [names, inHand, Ready, rereads]
  | waitStoreMutex fn cond mutex realcond realmutex =>
    simp only [hpc, Option.some.injEq] at h
    subst s'
    have hreal := (hs.stored t ⟨⟨.mutex, mutex⟩, realmutex⟩ (by rw [hpc]; rfl)).1
    refine stepped_stores (a := ⟨⟨.mutex, mutex⟩, realmutex⟩) (by rw [hpc]; rfl) ⟨?_, ?_, ?_⟩
      ?_ rfl id <;>
      simp_all [names, inHand, Ready, rereads]
  | waitCall fn cond mutex realcond realmutex =>
    simp only [hpc] at h
    cases hl : s.locks.giveBack t mutex realmutex with
    | none =>
      simp only [hl, Option.some.injEq] at h
      subst s'
      exact stepped_calls fn.glibc (by rw [hpc]; rfl) rfl (by rw [hpc]; trivial)
        (WaitFn.forwarded fn) (arrives_idle _) (by simp [inHand]) rfl
    | some locks =>
      simp only [hl, Option.some.injEq] at h
      subst s'
      refine stepped_calls fn.glibc (by rw [hpc]; rfl) rfl (by rw [hpc]; trivial)
        (WaitFn.forwarded fn) ⟨?_, ?_, ?_⟩ ?_ rfl <;>
        simp_all [names, inHand, Ready, rereads]
  | waitReturn fn cond mutex realcond realmutex =>
    simp only [hpc, Option.map_eq_some_iff] at h
    obtain ⟨locks, _, rfl⟩ := h
    exact stepped_reads rfl rfl (arrives_idle _) (by simp [inHand]) rfl id
  | wakeLoad fn cond =>
    simp only [hpc, Option.some.injEq] at h
    subst s'
    by_cases hv : s.m.word cond ≤ androidTopAddrValueCond
    · rw [if_pos hv]
      refine stepped_reads rfl rfl ⟨?_, ?_, ?_⟩ ?_ rfl id <;>
        simp_all [names, inHand, Ready, rereads]
    · rw [if_neg hv]
      refine stepped_reads rfl rfl ⟨?_, ?_, ?_⟩ ?_ rfl id <;>
        simp_all [androidTopAddrValueCond, names, inHand, Ready, rereads]
  | wakeAlloc fn cond =>
    simp only [hpc, Option.ite_none_right_eq_some, Option.some.injEq] at h
    obtain ⟨hq, rfl⟩ := h
    refine stepped_allocs rfl rfl hq id ⟨?_, ?_, ?_⟩ ?_ rfl <;>
      simp_all [names, inHand, Ready, rereads]
  | wakeStore fn cond real =>
    simp only [hpc, Option.some.injEq] at h
    subst s'
    have hreal := (hs.stored t ⟨⟨.cond, cond⟩, real⟩ (by rw [hpc]; rfl)).1
    refine stepped_stores (a := ⟨⟨.cond, cond⟩, real⟩) (by rw [hpc]; rfl) ⟨?_, ?_, ?_⟩ ?_ rfl id <;>
      simp_all [names, inHand, Ready, rereads]
  | wakeCall fn cond real =>
    simp only [hpc, Option.some.injEq] at h
    subst s'
    exact stepped_calls fn.glibc (by rw [hpc]; rfl) rfl (by rw [hpc]; trivial)
      (WakeFn.forwarded fn) (arrives_idle _) (by simp [inHand]) rfl

theorem logged_mono (h : Stepped role s s' t) {a : Arg} (ha : Logged s.m a) : Logged s'.m a := by
  obtain ⟨pc', _, _, hm⟩ := h
  cases hm with
  | reads mem | stores _ mem => rwa [mem]
  | allocs mem | calls mem =>
    rw [mem]
    exact logged_call.mpr (.inl ha)

theorem not_waiting_of_storing {pc : Pc} {a : Arg} (h : storing pc = some a) : ¬ Waiting pc := by
  cases pc <;> simp_all [storing, Waiting]

theorem logged_of_waiting (hw : ∀ u, Waiting (s.pc u) → ∀ a ∈ inHand (s.pc u), Logged s.m a)
    (h : Stepped role s s' t) (u : Nat) (hu : Waiting (s'.pc u)) (a : Arg)
    (ha : a ∈ inHand (s'.pc u)) : Logged s'.m a := by
  have hmono : ∀ b, Logged s.m b → Logged s'.m b := fun b => logged_mono h
  obtain ⟨pc', hpc', _, hm⟩ := h
  by_cases hut : u = t
  · subst u
    rw [hpc', Function.update_self] at hu ha
    cases hm with
    | reads _ _ _ here | stores _ _ _ _ here => exact absurd hu here
    | allocs _ _ _ _ stores => exact absurd hu (not_waiting_of_storing stores)
    | calls mem _ forwarded hand =>
      rw [mem]
      exact logged_call.mpr (.inr ⟨forwarded, hand a ha⟩)
  · rw [hpc', Function.update_of_ne hut] at hu ha
    exact hmono a (hw u hu a ha)

def Names (s : State) (w p : Nat) : Prop := Logged s.m ⟨⟨.mutex, w⟩, p⟩

structure Whole (role : Nat → ObjKind) (s : State) : Prop where
  inv : Inv role s
  held : Held (Names s) s.locks
  waiting : ∀ u, Waiting (s.pc u) → ∀ a ∈ inHand (s.pc u), Logged s.m a

theorem names_functional (hs : Inv role s) (w p p' : Nat) (h : Names s w p) (h' : Names s w p') :
    p = p' :=
  (hs.logged _ h).2.1.symm.trans (hs.logged _ h').2.1

theorem names_injective (hs : Inv role s) (w w' p : Nat) (h : Names s w p) (h' : Names s w' p) :
    w = w' := by
  have hobj := Holds.obj hs (hs.logged _ h)
  rw [Holds.obj hs (hs.logged _ h'), Option.some.injEq] at hobj
  exact (Obj.mk.inj hobj).2.symm

theorem locks_advance (hs : Whole role s) (h : advance s t q = some s') : s'.locks = s.locks ∨
    ∃ w p, Names s' w p ∧
      (s.locks.grant t w p = some s'.locks ∨ s.locks.giveBack t w p = some s'.locks) := by
  have hwait := hs.waiting t
  unfold advance at h
  cases hpc : s.pc t with
  | lockReturn mutex real =>
    simp only [hpc, Option.map_eq_some_iff] at h
    obtain ⟨locks, hl, rfl⟩ := h
    refine .inr ⟨mutex, real, ?_, .inl hl⟩
    exact hwait (by rw [hpc]; trivial) _ (by simp [hpc, inHand])
  | waitReturn fn cond mutex realcond realmutex =>
    simp only [hpc, Option.map_eq_some_iff] at h
    obtain ⟨locks, hl, rfl⟩ := h
    refine .inr ⟨mutex, realmutex, ?_, .inl hl⟩
    exact hwait (by rw [hpc]; trivial) _ (by simp [hpc, inHand])
  | unlockCall mutex real =>
    simp only [hpc, Option.some.injEq] at h
    subst s'
    cases hl : s.locks.giveBack t mutex real with
    | none => exact .inl rfl
    | some locks =>
      refine .inr ⟨mutex, real, ?_, .inr hl⟩
      exact logged_call.mpr (.inr ⟨trivial, List.mem_singleton.mpr rfl⟩)
  | waitCall fn cond mutex realcond realmutex =>
    simp only [hpc] at h
    cases hl : s.locks.giveBack t mutex realmutex with
    | none =>
      simp only [hl, Option.some.injEq] at h
      exact .inl (h ▸ rfl)
    | some locks =>
      simp only [hl, Option.some.injEq] at h
      subst s'
      refine .inr ⟨mutex, realmutex, ?_, .inr hl⟩
      exact logged_call.mpr (.inr ⟨WaitFn.forwarded fn, by simp⟩)
  | idle => simp [hpc] at h
  | lockAlloc | waitAllocCond | waitAllocMutex | wakeAlloc =>
    simp only [hpc, Option.ite_none_right_eq_some, Option.some.injEq] at h
    exact .inl (h.2 ▸ rfl)
  | lockLoad | lockStore | lockReload | lockCall | unlockLoad | waitLoadCond | waitLoadMutex
  | waitStoreCond | waitStoreMutex | wakeLoad | wakeStore | wakeCall =>
    simp only [hpc, Option.some.injEq] at h
    exact .inl (h ▸ rfl)

theorem arrives_waitEntry {fn : WaitFn} {cond mutex : Nat} (m' : Machine)
    (h : waitEntry role fn cond mutex = some pc') : Arrives role m' pc' := by
  obtain ⟨hrole, h⟩ := Option.ite_none_right_eq_some.mp h
  obtain rfl := Option.some.inj h
  refine ⟨?_, ?_, ?_⟩ <;> simp [names, inHand, rereads, hrole.1, hrole.2]

theorem arrives_wakeEntry {fn : WakeFn} {cond : Nat} (m' : Machine)
    (h : wakeEntry role fn cond = some pc') : Arrives role m' pc' := by
  obtain ⟨hrole, h⟩ := Option.ite_none_right_eq_some.mp h
  obtain rfl := Option.some.inj h
  refine ⟨?_, ?_, ?_⟩ <;> simp [names, inHand, rereads, hrole]

/-- A client that unlocks has locked before, so its word is no initialiser. -/
theorem arrives_entry (hs : Whole role s) {job : Job} (h : entry role s t job = some pc') :
    Arrives role s.m pc' := by
  cases job with
  | pthreadMutexLock mutex =>
    obtain ⟨hrole, h⟩ := Option.ite_none_right_eq_some.mp h
    obtain rfl := Option.some.inj h
    refine ⟨?_, ?_, ?_⟩ <;> simp [names, inHand, rereads, hrole]
  | pthreadMutexUnlock mutex =>
    obtain ⟨hin, h⟩ := Option.ite_none_right_eq_some.mp h
    obtain rfl := Option.some.inj h
    obtain ⟨p, hp, _⟩ := hs.held.inside t mutex hin
    obtain ⟨hrole, hword, hlow⟩ := hs.inv.logged _ hp
    refine ⟨?_, ?_, ?_⟩
    · simpa [names] using hrole
    · simp [inHand]
    · intro w hw
      obtain rfl := Option.some.inj hw
      exact hword ▸ hlow
  | pthreadCondWait | pthreadCondTimedwait | pthreadCondTimedwaitRelativeNp =>
    exact arrives_waitEntry s.m h
  | pthreadCondBroadcast | pthreadCondSignal => exact arrives_wakeEntry s.m h

theorem entry_rests {job : Job} (h : entry role s t job = some pc') :
    inHand pc' = [] ∧ storing pc' = none ∧ ¬ Waiting pc' := by
  cases job with
  | pthreadMutexLock | pthreadMutexUnlock | pthreadCondWait | pthreadCondTimedwait
  | pthreadCondTimedwaitRelativeNp | pthreadCondBroadcast | pthreadCondSignal =>
    obtain ⟨_, h⟩ := Option.ite_none_right_eq_some.mp h
    obtain rfl := Option.some.inj h
    exact ⟨rfl, rfl, id⟩

theorem stepped_begin (hs : Whole role s) {job : Job}
    (h : step role s (.begin t job) = some s') :
    Stepped role s s' t ∧ storing (s.pc t) = none ∧ s'.locks = s.locks := by
  obtain ⟨hidle, h⟩ := Option.ite_none_right_eq_some.mp h
  obtain ⟨pc', hpc', rfl⟩ := Option.map_eq_some_iff.mp h
  obtain ⟨hhand, hrests, hhere⟩ := entry_rests hpc'
  exact ⟨stepped_reads rfl rfl (arrives_entry hs hpc') (by simp [hhand]) hrests hhere,
    by rw [hidle]; rfl, rfl⟩

theorem stepped_fail (h : step role s (.fail t) = some s') :
    Stepped role s s' t ∧ storing (s.pc t) = none ∧ s'.locks = s.locks := by
  simp only [step] at h
  split at h
  · rename_i hpc
    obtain rfl := Option.some.inj h
    exact ⟨stepped_reads rfl rfl (arrives_idle _) (by simp [inHand]) rfl id, by rw [hpc]; rfl, rfl⟩
  · simp at h

theorem whole_stepped (hs : Whole role s) (h : Stepped role s s' t)
    (hg : Unraced s (.step t q)) (hl : s'.locks = s.locks ∨ ∃ w p, Names s' w p ∧
      (s.locks.grant t w p = some s'.locks ∨ s.locks.giveBack t w p = some s'.locks)) :
    Whole role s' := by
  have hinv := inv_stepped hs.inv h hg
  have hheld : Held (Names s') s.locks := hs.held.mono (fun w p hw => logged_mono h hw)
  refine ⟨hinv, ?_, logged_of_waiting hs.waiting h⟩
  obtain hl | ⟨w, p, hw, hl | hl⟩ := hl
  · rwa [hl]
  · exact held_grant hheld (names_functional hinv) (names_injective hinv) hw hl
  · exact held_giveBack hheld (names_functional hinv) (names_injective hinv) hw hl

theorem whole_step {a : Action} (hs : Whole role s) (hg : Unraced s a)
    (h : step role s a = some s') : Whole role s' := by
  cases a with
  | begin t job =>
    obtain ⟨hstep, hrests, hlocks⟩ := stepped_begin hs h
    exact whole_stepped (q := 0) hs hstep (by simp [Unraced, hrests]) (.inl hlocks)
  | step t q => exact whole_stepped hs (stepped_advance hs.inv h) hg (locks_advance hs h)
  | fail t =>
    obtain ⟨hstep, hrests, hlocks⟩ := stepped_fail h
    exact whole_stepped (q := 0) hs hstep (by simp [Unraced, hrests]) (.inl hlocks)

theorem whole_start (word : Nat → { v : Nat // v ≤ 0xFFFF }) : Whole role (start word) := by
  have hlog : ∀ a, ¬ Logged (start word).m a := by
    rintro a ⟨call, hc, _⟩
    exact List.not_mem_nil hc
  refine ⟨⟨?_, fun w hw => ?_, ?_, ?_, ?_, fun a ha => absurd ha (hlog a), ?_, ?_⟩, held_free, ?_⟩
  · simp [start, names]
  · exact absurd hw (not_lt.mpr (word w).2)
  · simp [start, inHand]
  · simp [start, inHand]
  · simp [start, rereads]
  · simp [start, storing]
  · simp [start, storing]
  · simp [start, inHand]

theorem advance_stores {a : Arg} (ha : storing (s.pc t) = some a) (h : advance s t q = some s') :
    ∃ pc', s' = { s with m := s.m.store a.obj.word a.ptr }.goto t pc' ∧
      ∀ b ∈ inHand (s.pc t), 0xFFFF < b.ptr → b ∈ inHand pc' := by
  unfold advance at h
  cases hpc : s.pc t with
  | lockStore | wakeStore =>
    simp only [hpc, storing, Option.some.injEq] at ha h
    subst ha h
    exact ⟨_, rfl, by simp [inHand]⟩
  | waitStoreMutex =>
    simp only [hpc, storing, Option.some.injEq] at ha h
    subst ha h
    exact ⟨_, rfl, fun b hb _ => List.mem_append_left _ hb⟩
  | waitStoreCond fn cond mutex realcond mvalue =>
    simp only [hpc, storing, Option.some.injEq] at ha h
    subst ha h
    refine ⟨_, rfl, fun b hb hlow => ?_⟩
    obtain rfl := List.mem_singleton.mp hb
    exact mem_inHand_waitMutex.mpr (.inr ⟨hlow, rfl⟩)
  | idle | lockLoad | lockAlloc | lockReload | lockCall | lockReturn | unlockLoad | unlockCall
  | waitLoadCond | waitLoadMutex | waitAllocCond | waitAllocMutex | waitCall | waitReturn
  | wakeLoad | wakeAlloc | wakeCall => simp [hpc, storing] at ha

/-- A store over a word that is in use leaves two addresses in play. -/
theorem not_oneAddress_of_race {a : Action} (hs : Inv role s) (ha : ¬ Unraced s a)
    (h : step role s a = some s') : ¬ OneAddress role s' := by
  cases a with
  | begin | fail => exact absurd trivial ha
  | step t q =>
    simp only [Unraced, not_forall, not_not] at ha
    obtain ⟨b, hb, p, hp⟩ := ha
    obtain ⟨pc', rfl, hkeeps⟩ := advance_stores hb h
    obtain ⟨hlow, _, hne⟩ := hs.stored t b hb
    intro hone
    apply hne
    have hused : Used ({ s with m := s.m.store b.obj.word b.ptr }.goto t pc') ⟨b.obj, p⟩ := by
      refine ⟨hp.1, hp.2.imp id ?_⟩
      rintro ⟨u, hu⟩
      refine ⟨u, ?_⟩
      by_cases hut : u = t
      · subst u
        simpa only [State.goto, Function.update_self] using hkeeps _ hu hp.1
      · simpa only [State.goto, Function.update_of_ne hut] using hu
    have hholds : Holds role (s.m.store b.obj.word b.ptr) b :=
      ⟨hs.roles t b.obj (storing_names hb), Function.update_self .., hlow⟩
    have hpb : p = b.ptr := hone b.obj p b.ptr (.inl hused) (.inr hholds)
    exact hpb ▸ (Used.holds hs hp).2.1

/-- All calls on a word go to one real object, whoever makes them and in
whatever order, precisely in the runs in which no thread replaces an object
that is in use. Mutual exclusion and the meeting of signaller and waiter follow. -/
theorem oneAddress_iff_unraced (role : Nat → ObjKind) (word : Nat → { v : Nat // v ≤ 0xFFFF })
    (as : List Action) (hrun : (exec (step role) (start word) as).isSome) :
    Always (step role) (fun s => OneAddress role s ∧ RealObjects s ∧ Exclusive s ∧ SameCond s)
        (start word) as ↔
      Guarded (step role) Unraced (start word) as := by
  refine always_iff_guarded (fun s (hs : Whole role s) => ⟨hs.inv.oneAddress, hs.inv.realObjects,
    fun w t u => hs.held.exclusive (names_functional hs.inv), hs.inv.sameCond⟩)
    (fun s a s' hs hg h => whole_step hs hg h)
    (fun s a s' hs hg h hp => not_oneAddress_of_race hs.inv hg h hp.1) (whole_start word) hrun

def noneStored (_ : Nat) : { v : Nat // v ≤ 0xFFFF } := ⟨0, Nat.zero_le _⟩

def allMutexes (_ : Nat) : ObjKind := .mutex

/-- Thread 1 is through with the store of its object before thread 2 reads. -/
def inTurn : List Action :=
  [.begin 1 (.pthreadMutexLock 4), .step 1 0, .step 1 0x10000, .step 1 0,
    .begin 2 (.pthreadMutexLock 4), .step 2 0, .step 1 0, .step 2 0, .step 1 0, .step 1 0]

theorem quiet (h : storing (s.pc t) = none) : Unraced s (.step t q) :=
  fun a ha => absurd (h.symm.trans ha).symm (Option.some_ne_none a)

theorem oneAddress_iff_unraced_inTurn :
    Always (step allMutexes)
      (fun s => OneAddress allMutexes s ∧ RealObjects s ∧ Exclusive s ∧ SameCond s)
      (start noneStored) inTurn := by
  apply (oneAddress_iff_unraced allMutexes noneStored inTurn rfl).mpr
  refine guarded_step trivial rfl (guarded_step (quiet rfl) rfl (guarded_step (quiet rfl) rfl
    (guarded_step (fun a ha p => ?_) rfl (guarded_step trivial rfl (guarded_step (quiet rfl) rfl
    (guarded_step (quiet rfl) rfl (guarded_step (quiet rfl) rfl (guarded_step (quiet rfl) rfl
    (guarded_step (quiet rfl) rfl (guarded_nil _ _))))))))))
  rintro ⟨_, ⟨call, hc, hf, _⟩ | ⟨u, hu⟩⟩
  · obtain rfl := List.mem_singleton.mp hc
    exact hf
  · by_cases h1 : u = 1
    · subst u
      exact List.not_mem_nil hu
    · simp [State.goto, start, h1, inHand] at hu

/-- Both threads read the initialiser before either stores: each locks an
object of its own, and both are inside. -/
theorem not_exclusive_race :
    ∃ s, exec (step allMutexes) (start noneStored)
        [.begin 1 (.pthreadMutexLock 4), .begin 2 (.pthreadMutexLock 4), .step 1 0, .step 2 0,
          .step 1 0x10000, .step 1 0, .step 1 0, .step 1 0, .step 1 0, .step 2 0x10040, .step 2 0,
          .step 2 0, .step 2 0, .step 2 0] = some s ∧
      Logged s.m ⟨⟨.mutex, 4⟩, 0x10000⟩ ∧ Logged s.m ⟨⟨.mutex, 4⟩, 0x10040⟩ ∧ ¬ Exclusive s := by
  refine ⟨_, rfl, ⟨⟨.mutexLock, [⟨⟨.mutex, 4⟩, 0x10000⟩]⟩, by decide, trivial, by decide⟩,
    ⟨⟨.mutexLock, [⟨⟨.mutex, 4⟩, 0x10040⟩]⟩, by decide, trivial, by decide⟩, fun h => ?_⟩
  exact absurd (h 4 1 2 (by decide) (by decide)) (by decide)

end FakeLibc.OneObject

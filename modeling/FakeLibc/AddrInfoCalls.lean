import FakeLibc.AddrInfo

namespace FakeLibc.AddrInfoCalls

open FakeLibc.Lib.Linked FakeLibc.AddrInfo

/-- glibc's function, which takes hints or a null pointer. -/
abbrev Glibc := Ptr → Ptr → Option Addrinfo → AddrHeap → Ptr → Int × AddrHeap × Ptr

/-- What glibc is asked, the nodes that are dereferenced behind `*res`, and how
the call ends. -/
structure Outcome where
  asked : Option (Ptr × Ptr × Option Addrinfo)
  visits : List Ptr
  ret : Except Fault (Int × AddrHeap × Ptr)

/-- Null hints are copied like others. -/
def getaddrinfo (glibc : Glibc) (fuel : Nat) (heap : AddrHeap)
    (hostname servname hints res : Ptr) : Outcome :=
  match load heap hints with
  | .error fault => ⟨none, [], .error fault⟩
  | .ok fixedHints =>
    let (result, heap, res) := glibc hostname servname (some (swap fixedHints)) heap res
    { asked := some (hostname, servname, some (swap fixedHints))
      visits := visits Addrinfo.aiNext 0 swap fuel heap res
      ret := (forEach Addrinfo.aiNext 0 swap fuel heap res).map (fun heap => (result, heap, res)) }

/-- The hints are null or an object, and null is none. -/
structure Permitted (heap : AddrHeap) (hints : Ptr) : Prop where
  null : heap 0 = none
  object : hints ≠ 0 → (heap hints).isSome

/-- On success a list was made of new nodes. On failure everything stays. -/
structure Documented (glibc : Glibc) : Prop where
  success : ∀ {hostname servname given heap res heap' p},
    glibc hostname servname given heap res = (0, heap', p) →
      ∃ l, AddrChain heap' p l ∧ (∀ a ∈ l, heap a = none) ∧ ∀ a, a ∉ l → heap' a = heap a
  failure : ∀ {hostname servname given heap res},
    (glibc hostname servname given heap res).1 ≠ 0 →
      (glibc hostname servname given heap res).2 = (heap, res)

/-- `m` is `n` but for the two fields. -/
structure Exchanged (n m : Addrinfo) : Prop where
  aiFlags : m.aiFlags = n.aiFlags
  aiFamily : m.aiFamily = n.aiFamily
  aiSocktype : m.aiSocktype = n.aiSocktype
  aiProtocol : m.aiProtocol = n.aiProtocol
  aiAddrlen : m.aiAddrlen = n.aiAddrlen
  aiAddr : m.aiAddr = n.aiCanonname
  aiCanonname : m.aiCanonname = n.aiAddr
  aiNext : m.aiNext = n.aiNext

def Gives (heap : AddrHeap) (hints : Ptr) : Option Addrinfo → Prop
  | none => hints = 0
  | some m => hints ≠ 0 ∧ ∃ n, heap hints = some n ∧ Exchanged n m

def SameList (heap heap' : AddrHeap) (p : Ptr) : Prop :=
  ∃ l, AddrChain heap p l ∧ AddrChain heap' p l ∧
    ∀ a ∈ l, ∃ n m, heap a = some n ∧ heap' a = some m ∧ Exchanged n m

structure Faithful (glibc : Glibc) (heap : AddrHeap) (hostname servname hints res : Ptr) :
    Prop where
  asked : ∀ fuel, ∃ given,
    (getaddrinfo glibc fuel heap hostname servname hints res).asked =
      some (hostname, servname, given) ∧ Gives heap hints given
  unchanged : ∀ {fuel result heap' p},
    (getaddrinfo glibc fuel heap hostname servname hints res).ret = .ok (result, heap', p) →
      heap' hints = heap hints
  list : ∀ {given heap' p}, Gives heap hints given →
    glibc hostname servname given heap res = (0, heap', p) →
      ∃ fuel converted, SameList heap' converted p ∧
        (getaddrinfo glibc fuel heap hostname servname hints res).ret = .ok (0, converted, p)

/-- There are hints. If the lookup fails and the hints are a node of the list that
`*res` still heads, their two pointers are equal. -/
structure Supported (glibc : Glibc) (heap : AddrHeap) (hostname servname hints res : Ptr) :
    Prop where
  hints_ne : hints ≠ 0
  apart : ∀ {n l}, heap hints = some n →
    (glibc hostname servname (some (swap n)) heap res).1 ≠ 0 →
      AddrChain heap res l → hints ∈ l → n.aiAddr = n.aiCanonname

structure Fails (glibc : Glibc) (heap : AddrHeap) (hostname servname hints res : Ptr)
    (code : Int) : Prop where
  code_ne : code ≠ 0
  answer : ∀ {given}, Gives heap hints given →
    glibc hostname servname given heap res = (code, heap, res)

structure Untouched (glibc : Glibc) (heap : AddrHeap) (hostname servname hints res : Ptr)
    (code : Int) : Prop where
  returns : ∃ fuel heap',
    (getaddrinfo glibc fuel heap hostname servname hints res).ret = .ok (code, heap', res)
  visits : ∀ fuel, (getaddrinfo glibc fuel heap hostname servname hints res).visits = []
  nodes : ∀ {fuel result heap' p a},
    (getaddrinfo glibc fuel heap hostname servname hints res).ret = .ok (result, heap', p) →
      Reaches Addrinfo.aiNext 0 heap res a → heap' a = heap a

theorem exchanged_iff (n m : Addrinfo) : Exchanged n m ↔ m = swap n := by
  constructor
  · intro h
    cases m
    rw [swap, Addrinfo.mk.injEq]
    exact ⟨h.aiFlags, h.aiFamily, h.aiSocktype, h.aiProtocol, h.aiAddrlen, h.aiAddr,
      h.aiCanonname, h.aiNext⟩
  · rintro rfl
    exact ⟨rfl, rfl, rfl, rfl, rfl, rfl, rfl, rfl⟩

/-- Null hints are those for which there is no load. -/
theorem Permitted.cases {heap : AddrHeap} {hints : Ptr} (h : Permitted heap hints) :
    (hints = 0 ∧ heap hints = none) ∨ (hints ≠ 0 ∧ ∃ n, heap hints = some n) := by
  by_cases hnull : hints = 0
  · exact .inl ⟨hnull, hnull ▸ h.null⟩
  · exact .inr ⟨hnull, Option.isSome_iff_exists.mp (h.object hnull)⟩

theorem sameList_mapOn {heap : AddrHeap} {p : Ptr} {l : List Ptr} (hl : AddrChain heap p l) :
    SameList heap (mapOn swap l heap) p := by
  refine ⟨l, hl, hl.mapOn swap_aiNext l, fun a ha => ?_⟩
  obtain ⟨n, hn⟩ := hl.eq_some ha
  exact ⟨n, swap n, hn, by simp [mapOn, ha, hn], (exchanged_iff n (swap n)).mpr rfl⟩

section Call

variable {glibc : Glibc} {fuel : Nat} {heap heap' : AddrHeap} {hostname servname hints res p : Ptr}
  {n : Addrinfo} {code : Int}

theorem getaddrinfo_none (fuel : Nat) (hn : heap hints = none) :
    getaddrinfo glibc fuel heap hostname servname hints res = ⟨none, [], .error .wildPointer⟩ := by
  rw [getaddrinfo, load, hn]

theorem getaddrinfo_some (fuel : Nat) (hn : heap hints = some n)
    (hglibc : glibc hostname servname (some (swap n)) heap res = (code, heap', p)) :
    getaddrinfo glibc fuel heap hostname servname hints res =
      ⟨some (hostname, servname, some (swap n)), visits Addrinfo.aiNext 0 swap fuel heap' p,
        (forEach Addrinfo.aiNext 0 swap fuel heap' p).map (fun heap => (code, heap, p))⟩ := by
  simp only [getaddrinfo, load, hn, hglibc]

theorem gives_some_iff (hnull : hints ≠ 0) (hn : heap hints = some n) (given : Option Addrinfo) :
    Gives heap hints given ↔ given = some (swap n) := by
  cases given with
  | none => exact iff_of_false hnull nofun
  | some m =>
    rw [Gives, Option.some.injEq, ← exchanged_iff]
    constructor
    · rintro ⟨_, n', hn', hm⟩
      obtain rfl := Option.some.inj (hn.symm.trans hn')
      exact hm
    · intro hm
      exact ⟨hnull, n, hn, hm⟩

theorem ret_ok (hn : heap hints = some n)
    (hglibc : glibc hostname servname (some (swap n)) heap res = (code, heap', p))
    {result : Int} {heap'' : AddrHeap} {p' : Ptr}
    (hret : (getaddrinfo glibc fuel heap hostname servname hints res).ret =
      .ok (result, heap'', p')) :
    ∃ l, AddrChain heap' p l ∧ heap'' = mapOn swap l heap' := by
  rw [getaddrinfo_some fuel hn hglibc] at hret
  cases hloop : forEach Addrinfo.aiNext 0 swap fuel heap' p with
  | error fault =>
    rw [hloop] at hret
    cases hret
  | ok converted =>
    rw [hloop] at hret
    cases hret
    exact chain_of_forEach swap_aiNext hloop

theorem ret_chain (hn : heap hints = some n)
    (hglibc : glibc hostname servname (some (swap n)) heap res = (code, heap', p)) {l : List Ptr}
    (hl : AddrChain heap' p l) :
    (getaddrinfo glibc l.length heap hostname servname hints res).ret =
      .ok (code, mapOn swap l heap', p) := by
  rw [getaddrinfo_some _ hn hglibc, forEach_chain swap_aiNext hl (Nat.le_refl _)]
  rfl

end Call

section Faithful

variable {glibc : Glibc} {heap : AddrHeap} {hostname servname hints res : Ptr} {n : Addrinfo}

theorem not_faithful_of_none (hn : heap hints = none) :
    ¬ Faithful glibc heap hostname servname hints res := by
  intro h
  obtain ⟨given, hasked, _⟩ := h.asked 0
  rw [getaddrinfo_none 0 hn] at hasked
  cases hasked

theorem apart_of_faithful (hglibc : Documented glibc) {l : List Ptr}
    (h : Faithful glibc heap hostname servname hints res) (hn : heap hints = some n)
    (hfails : (glibc hostname servname (some (swap n)) heap res).1 ≠ 0)
    (hl : AddrChain heap res l) (hmem : hints ∈ l) : n.aiAddr = n.aiCanonname := by
  have hsame := hglibc.failure hfails
  have hanswer : glibc hostname servname (some (swap n)) heap res =
      ((glibc hostname servname (some (swap n)) heap res).1, heap, res) := by
    rw [← hsame]
  have hhints := h.unchanged (ret_chain hn hanswer hl)
  exact (mapOn_swap_eq_iff l heap hints).mp hhints hmem n hn

theorem hints_of_supported (hglibc : Documented glibc) {fuel : Nat} {result : Int}
    {converted : AddrHeap} {p : Ptr} (h : Supported glibc heap hostname servname hints res)
    (hn : heap hints = some n)
    (hret : (getaddrinfo glibc fuel heap hostname servname hints res).ret =
      .ok (result, converted, p)) : converted hints = heap hints := by
  obtain ⟨⟨code, heap', p'⟩, hanswer⟩ :
      ∃ answer, glibc hostname servname (some (swap n)) heap res = answer := ⟨_, rfl⟩
  obtain ⟨l, hl, rfl⟩ := ret_ok hn hanswer hret
  by_cases hcode : code = 0
  · subst code
    obtain ⟨l', hl', hnew, hold⟩ := hglibc.success hanswer
    obtain rfl := hl.unique hl'
    have hmem : hints ∉ l := by
      intro hmem
      rw [hnew hints hmem] at hn
      cases hn
    rw [mapOn, if_neg hmem]
    exact hold hints hmem
  · have hfails : (glibc hostname servname (some (swap n)) heap res).1 ≠ 0 := by
      rw [hanswer]
      exact hcode
    have hsame := hglibc.failure hfails
    rw [hanswer] at hsame
    obtain ⟨rfl, rfl⟩ := Prod.mk.inj hsame
    refine (mapOn_swap_eq_iff l heap' hints).mpr (fun hmem n' hn' => ?_)
    obtain rfl := Option.some.inj (hn.symm.trans hn')
    exact h.apart hn hfails hl hmem

theorem faithful_of_supported (hglibc : Documented glibc)
    (h : Supported glibc heap hostname servname hints res) (hn : heap hints = some n) :
    Faithful glibc heap hostname servname hints res where
  asked fuel := by
    refine ⟨some (swap n), ?_, (gives_some_iff h.hints_ne hn _).mpr rfl⟩
    rw [getaddrinfo_some fuel hn rfl]
  unchanged hret := hints_of_supported hglibc h hn hret
  list hgives hanswer := by
    obtain rfl := (gives_some_iff h.hints_ne hn _).mp hgives
    obtain ⟨l, hl, _⟩ := hglibc.success hanswer
    exact ⟨l.length, _, sameList_mapOn hl, ret_chain hn hanswer hl⟩

end Faithful

/-- The translation is faithful precisely with hints that are not null and that a
failed lookup does not convert along with an earlier list. -/
theorem faithful_iff_supported (glibc : Glibc) (hglibc : Documented glibc) (heap : AddrHeap)
    (hostname servname hints res : Ptr) (hhints : Permitted heap hints) :
    Faithful glibc heap hostname servname hints res ↔
      Supported glibc heap hostname servname hints res := by
  obtain ⟨hnull, hn⟩ | ⟨hnull, n, hn⟩ := hhints.cases
  · exact iff_of_false (not_faithful_of_none hn) (fun h => h.hints_ne hnull)
  · constructor
    · intro h
      exact ⟨hnull, fun hn' hfails hl hmem => apart_of_faithful hglibc h hn' hfails hl hmem⟩
    · intro h
      exact faithful_of_supported hglibc h hn

def noHints : Addrinfo := ⟨0, 0, 0, 0, 0, 0, 0, 0⟩

def resolver : Glibc := fun hostname servname given heap res =>
  if heap 64 = none ∧ heap 128 = none then
    twoResults hostname servname (given.getD noHints) heap res
  else (-10, heap, res)

theorem documented_resolver : Documented resolver where
  success {hostname servname given heap res heap' p} h := by
    rw [resolver] at h
    split at h
    · next hroom =>
      obtain ⟨rfl, rfl⟩ := Prod.mk.inj (Prod.mk.inj h).2
      have hsecond : (128 : Ptr) ≠ 0 := by decide
      refine ⟨[64, 128], .cons (by decide) rfl (.cons hsecond rfl .nil), ?_, ?_⟩
      · intro a ha
        obtain rfl | ha := List.mem_cons.mp ha
        · exact hroom.1
        · rw [List.mem_singleton.mp ha]
          exact hroom.2
      · intro a ha
        rw [List.mem_cons, List.mem_singleton, not_or] at ha
        exact (Function.update_of_ne ha.2 _ _).trans (Function.update_of_ne ha.1 _ _)
    · cases h
  failure {hostname servname given heap res} h := by
    rw [resolver] at h ⊢
    split
    · next hroom =>
      rw [if_pos hroom] at h
      exact absurd rfl h
    · rfl

theorem permitted_callerHeap (hints : Ptr) (h : hints = 0 ∨ hints = 8) :
    Permitted callerHeap hints := by
  obtain rfl | rfl := h
  · exact ⟨rfl, fun hne => absurd rfl hne⟩
  · exact ⟨rfl, fun _ => rfl⟩

theorem faithful_iff_supported_resolver :
    Faithful resolver callerHeap 24 32 8 0 ↔ Supported resolver callerHeap 24 32 8 0 :=
  faithful_iff_supported resolver documented_resolver callerHeap 24 32 8 0
    (permitted_callerHeap 8 (.inr rfl))

/-- Without hints the program ends before the lookup. -/
theorem not_faithful_null_hints :
    Permitted callerHeap 0 ∧ ¬ Faithful resolver callerHeap 24 32 0 0 :=
  ⟨permitted_callerHeap 0 (.inl rfl), not_faithful_of_none rfl⟩

/-- A failed lookup touches nothing precisely when there are hints and `*res` was
null before. -/
theorem untouched_iff_null (glibc : Glibc) (heap : AddrHeap) (hostname servname hints res : Ptr)
    (code : Int) (hhints : Permitted heap hints)
    (hfails : Fails glibc heap hostname servname hints res code) :
    Untouched glibc heap hostname servname hints res code ↔ hints ≠ 0 ∧ res = 0 := by
  obtain ⟨hnull, hn⟩ | ⟨hnull, n, hn⟩ := hhints.cases
  · refine iff_of_false (fun h => ?_) (fun h => h.1 hnull)
    obtain ⟨fuel, heap', hret⟩ := h.returns
    rw [getaddrinfo_none fuel hn] at hret
    cases hret
  · have hanswer := hfails.answer ((gives_some_iff hnull hn _).mpr rfl)
    have hvisits := visits_eq_nil_iff Addrinfo.aiNext 0 swap heap res
    constructor
    · intro h
      refine ⟨hnull, hvisits.mp fun fuel => ?_⟩
      have hnone := h.visits fuel
      rw [getaddrinfo_some fuel hn hanswer] at hnone
      exact hnone
    · rintro ⟨_, rfl⟩
      refine ⟨⟨0, heap, ?_⟩, fun fuel => ?_, fun _ hreaches => ?_⟩
      · rw [getaddrinfo_some 0 hn hanswer]
        rfl
      · rw [getaddrinfo_some fuel hn hanswer]
        exact hvisits.mpr rfl fuel
      · exact absurd hreaches (not_reaches_null heap _)

def tryAgain : Glibc := fun _ _ _ heap res => (-3, heap, res)

theorem fails_tryAgain (heap : AddrHeap) (hints res : Ptr) :
    Fails tryAgain heap 24 32 hints res (-3) := ⟨by decide, fun _ => rfl⟩

theorem untouched_iff_null_tryAgain :
    Untouched tryAgain callerHeap 24 32 8 0 (-3) ↔ 8 ≠ 0 ∧ 0 = 0 :=
  untouched_iff_null tryAgain callerHeap 24 32 8 0 (-3) (permitted_callerHeap 8 (.inr rfl))
    (fails_tryAgain callerHeap 8 0)

/-- The list of an earlier call is converted again, and a pointer that was never
set is followed. -/
theorem not_untouched_earlier_unset :
    ¬ Untouched tryAgain twoResultsHeap 24 32 8 64 (-3) ∧
      ¬ Untouched tryAgain callerHeap 24 32 8 4096 (-3) := by
  constructor
  · intro h
    exact absurd (h.visits 1) (by decide)
  · intro h
    exact absurd (h.visits 1) (by decide)

end FakeLibc.AddrInfoCalls

import FakeLibc.Lib.Linked

namespace FakeLibc.AddrInfo

open FakeLibc.Lib.Linked

abbrev Ptr := Nat

structure Addrinfo where
  aiFlags : Int
  aiFamily : Int
  aiSocktype : Int
  aiProtocol : Int
  aiAddrlen : Int
  aiAddr : Ptr
  aiCanonname : Ptr
  aiNext : Ptr
deriving DecidableEq

abbrev AddrHeap := Heap Ptr Addrinfo

abbrev AddrChain := Chain Addrinfo.aiNext 0

/-- glibc's function, from the two names, the hints it is given, the heap and
the old `*res` to its code, the heap and `*res` afterwards. -/
abbrev GlibcGetaddrinfo := Ptr → Ptr → Addrinfo → AddrHeap → Ptr → Int × AddrHeap × Ptr

/-- The two fields whose order differs between bionic and glibc. -/
def swap (n : Addrinfo) : Addrinfo := { n with aiAddr := n.aiCanonname, aiCanonname := n.aiAddr }

/-- The hints are copied before the swap, and the loop runs over `*res`
whatever code glibc returned. -/
def myGetaddrinfo (glibc : GlibcGetaddrinfo) (fuel : Nat) (heap : AddrHeap)
    (hostname servname hints res : Ptr) : Except Fault (Int × AddrHeap × Ptr) := do
  let fixedHints ← load heap hints
  let (result, heap, res) := glibc hostname servname (swap fixedHints) heap res
  let heap ← forEach Addrinfo.aiNext 0 swap fuel heap res
  return (result, heap, res)

/-- The heap and the pointer that glibc's `freeaddrinfo` is handed. -/
def myFreeaddrinfo (heap : AddrHeap) (ai : Ptr) : Except Fault (AddrHeap × Ptr) := do
  let n ← load heap ai
  return (Function.update heap ai (some (swap n)), ai)

theorem swap_swap (n : Addrinfo) : swap (swap n) = n := rfl

theorem swap_aiNext (n : Addrinfo) : (swap n).aiNext = n.aiNext := rfl

theorem swap_eq_self_iff (n : Addrinfo) : swap n = n ↔ n.aiAddr = n.aiCanonname := by
  cases n
  simp only [swap, Addrinfo.mk.injEq, true_and, and_true]
  constructor
  · intro h
    exact h.2
  · intro h
    exact ⟨h.symm, h⟩

theorem myGetaddrinfo_chain {glibc : GlibcGetaddrinfo} {fuel : Nat} {heap heap' : AddrHeap}
    {hostname servname hints res p : Ptr} {n : Addrinfo} {result : Int} {l : List Ptr}
    (hhints : heap hints = some n)
    (hglibc : glibc hostname servname (swap n) heap res = (result, heap', p))
    (hl : AddrChain heap' p l) (hfuel : l.length ≤ fuel) :
    myGetaddrinfo glibc fuel heap hostname servname hints res =
      .ok (result, mapOn swap l heap', p) := by
  have hload : load heap hints = .ok n := by rw [load, hhints]
  have hloop := forEach_chain swap_aiNext hl hfuel
  simp only [myGetaddrinfo, hload, bind, Except.bind, hglibc, hloop, pure, Except.pure]

/-- The head is swapped back; the nodes after it stay swapped. -/
theorem myFreeaddrinfo_mapOn {heap : AddrHeap} {p : Ptr} {l : List Ptr}
    (hl : AddrChain heap p (p :: l)) :
    myFreeaddrinfo (mapOn swap (p :: l) heap) p = .ok (mapOn swap l heap, p) := by
  obtain ⟨n, hn⟩ := hl.eq_some List.mem_cons_self
  have hp : p ∉ l := (List.nodup_cons.mp hl.nodup).1
  have hload : load (mapOn swap (p :: l) heap) p = .ok (swap n) := by simp [load, mapOn, hn]
  have hheap : Function.update (mapOn swap (p :: l) heap) p (some (swap (swap n))) =
      mapOn swap l heap := by
    funext a
    by_cases ha : a = p
    · subst a
      simp [mapOn, hp, hn, swap_swap]
    · simp [mapOn, ha]
  simp only [myFreeaddrinfo, hload, bind, Except.bind, hheap, pure, Except.pure]

theorem mapOn_swap_eq_iff (l : List Ptr) (heap : AddrHeap) (a : Ptr) :
    mapOn swap l heap a = heap a ↔
      (a ∈ l → ∀ n, heap a = some n → n.aiAddr = n.aiCanonname) := by
  by_cases ha : a ∈ l
  · cases hn : heap a with
    | none => simp [mapOn, hn]
    | some n => simp [mapOn, ha, hn, swap_eq_self_iff]
  · simp [mapOn, ha]

/-- What glibc gets back is the list it produced precisely when the nodes
after the head have equal pointers in the two swapped fields. -/
theorem freed_list_eq_iff (glibc : GlibcGetaddrinfo) (fuel : Nat) (heap heap' : AddrHeap)
    (hostname servname hints res p : Ptr) (n : Addrinfo) (result : Int) (l : List Ptr)
    (hhints : heap hints = some n)
    (hglibc : glibc hostname servname (swap n) heap res = (result, heap', p))
    (hl : AddrChain heap' p l) (hne : l ≠ []) (hfuel : l.length ≤ fuel) :
    ∃ converted freed,
      myGetaddrinfo glibc fuel heap hostname servname hints res = .ok (result, converted, p) ∧
      myFreeaddrinfo converted p = .ok (freed, p) ∧
      ((∀ a ∈ l, freed a = heap' a) ↔
        ∀ a ∈ l.tail, ∀ n, heap' a = some n → n.aiAddr = n.aiCanonname) := by
  have hget := myGetaddrinfo_chain hhints hglibc hl hfuel
  obtain ⟨l, rfl⟩ : ∃ l', l = p :: l' := by
    cases hl with
    | nil => exact absurd rfl hne
    | cons _ _ _ => exact ⟨_, rfl⟩
  refine ⟨_, _, hget, myFreeaddrinfo_mapOn hl, ?_⟩
  simp only [mapOn_swap_eq_iff, List.mem_cons, List.tail_cons]
  constructor
  · intro h a ha
    exact h a (.inr ha) ha
  · intro h a _ ha
    exact h a ha

def twoResults : GlibcGetaddrinfo := fun _ _ hints heap _ =>
  (0, Function.update (Function.update heap 64
    (some { hints with aiAddrlen := 16, aiAddr := 96, aiCanonname := 112, aiNext := 128 })) 128
    (some { hints with aiAddrlen := 16, aiAddr := 160, aiCanonname := 0, aiNext := 0 }), 64)

def callerHeap : AddrHeap := fun a => if a = 8 then some ⟨0, 0, 1, 0, 0, 0, 0, 0⟩ else none

def twoResultsHeap : AddrHeap := (twoResults 0 0 (swap ⟨0, 0, 1, 0, 0, 0, 0, 0⟩) callerHeap 0).2.1

theorem twoResults_chain : AddrChain twoResultsHeap 64 [64, 128] :=
  .cons (by decide) rfl (.cons (by decide) rfl .nil)

theorem freed_list_eq_iff_twoResults :
    ∃ converted freed,
      myGetaddrinfo twoResults 2 callerHeap 0 0 8 0 = .ok (0, converted, 64) ∧
      myFreeaddrinfo converted 64 = .ok (freed, 64) ∧
      ((∀ a ∈ [64, 128], freed a = twoResultsHeap a) ↔
        ∀ a ∈ [128], ∀ n, twoResultsHeap a = some n → n.aiAddr = n.aiCanonname) :=
  freed_list_eq_iff twoResults 2 callerHeap twoResultsHeap 0 0 8 0 64 _ 0 [64, 128]
    rfl rfl twoResults_chain (by decide) (by decide)

/-- The second node reaches glibc with its two pointers still exchanged. -/
theorem freed_list_ne_twoResults :
    ∃ converted freed,
      myGetaddrinfo twoResults 2 callerHeap 0 0 8 0 = .ok (0, converted, 64) ∧
      myFreeaddrinfo converted 64 = .ok (freed, 64) ∧
      ¬ ∀ a ∈ [64, 128], freed a = twoResultsHeap a := by
  refine ⟨_, _, rfl, rfl, fun h => ?_⟩
  have h128 := h 128 (by decide)
  exact absurd h128 (by decide)

end FakeLibc.AddrInfo

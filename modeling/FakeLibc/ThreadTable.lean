import Mathlib.Data.List.Basic

namespace FakeLibc.ThreadTable

abbrev PthreadT := Nat

abbrev PidT := Int

/-- One slot of the table. A slot with both fields zero is free. -/
structure ThreadToTid where
  tid : PidT
  t : PthreadT
deriving DecidableEq

def free : ThreadToTid := ⟨0, 0⟩

/-- The static array of 512 slots. Its mutex makes each of the three
functions below one atomic step. -/
@[ext] structure Table where
  slots : List ThreadToTid
  length_eq : slots.length = 512

def Table.mapSlots (tab : Table) (f : ThreadToTid → ThreadToTid) : Table :=
  ⟨tab.slots.map f, by rw [List.length_map, tab.length_eq]⟩

def fill (e : ThreadToTid) : Table := ⟨List.replicate 512 e, List.length_replicate⟩

def threadToTid : Table := fill free

/-- The loop has no `break`, so the pair goes into every free slot. -/
def mySettidToThread (tab : Table) (t : PthreadT) (tid : PidT) : Table :=
  tab.mapSlots (fun e => if e.tid = 0 ∧ e.t = 0 then ⟨tid, t⟩ else e)

def myGettidFromThread (tab : Table) (t : PthreadT) : PidT :=
  ((tab.slots.find? (fun e => e.t = t)).map (·.tid)).getD 0

def myRemtid (tab : Table) (t : PthreadT) : Table :=
  tab.mapSlots (fun e => if e.t = t then free else e)

/-- The exported `pthread_gettid_np`, once its two lock pointers are loaded. -/
def pthreadGettidNp (tab : Table) (t : PthreadT) : PidT := myGettidFromThread tab t

theorem eq_free_iff (e : ThreadToTid) : e = free ↔ e.tid = 0 ∧ e.t = 0 := by
  cases e
  simp [free]

theorem mem_mySettidToThread {tab : Table} {t : PthreadT} {tid : PidT} {e : ThreadToTid}
    (h : e ∈ (mySettidToThread tab t tid).slots) : e ∈ tab.slots ∨ e = ⟨tid, t⟩ := by
  obtain ⟨e', he', rfl⟩ := List.mem_map.mp h
  by_cases hf : e'.tid = 0 ∧ e'.t = 0
  · exact .inr (if_pos hf)
  · exact .inl (by rwa [if_neg hf])

theorem mem_myRemtid {tab : Table} {t : PthreadT} {e : ThreadToTid}
    (h : e ∈ (myRemtid tab t).slots) : (e ∈ tab.slots ∧ e.t ≠ t) ∨ e = free := by
  obtain ⟨e', he', rfl⟩ := List.mem_map.mp h
  by_cases ht : e'.t = t
  · exact .inr (if_pos ht)
  · apply Or.inl
    rw [if_neg ht]
    exact ⟨he', ht⟩

theorem myGettidFromThread_cases (tab : Table) (t : PthreadT) :
    myGettidFromThread tab t = 0 ∨ ⟨myGettidFromThread tab t, t⟩ ∈ tab.slots := by
  unfold myGettidFromThread
  cases hf : tab.slots.find? (fun e => decide (e.t = t)) with
  | none => exact .inl rfl
  | some e =>
    have ht : e.t = t := by simpa using List.find?_some hf
    apply Or.inr
    rw [Option.map_some, Option.getD_some, ← ht]
    exact List.mem_of_find?_eq_some hf

theorem mapSlots_fill (f : ThreadToTid → ThreadToTid) (e : ThreadToTid) :
    (fill e).mapSlots f = fill (f e) := by
  ext1
  exact List.map_replicate

theorem mySettidToThread_fill_free (t : PthreadT) (tid : PidT) :
    mySettidToThread (fill free) t tid = fill ⟨tid, t⟩ := by
  rw [mySettidToThread, mapSlots_fill, if_pos ⟨rfl, rfl⟩]

theorem mySettidToThread_fill {e : ThreadToTid} (he : e ≠ free) (t : PthreadT) (tid : PidT) :
    mySettidToThread (fill e) t tid = fill e := by
  rw [mySettidToThread, mapSlots_fill, if_neg (fun h => he ((eq_free_iff e).mpr h))]

theorem myRemtid_fill (e : ThreadToTid) (t : PthreadT) :
    myRemtid (fill e) t = if e.t = t then fill free else fill e := by
  rw [myRemtid, mapSlots_fill]
  split <;> rfl

theorem myGettidFromThread_fill (e : ThreadToTid) (t : PthreadT) :
    myGettidFromThread (fill e) t = if e.t = t then e.tid else 0 := by
  rw [myGettidFromThread, fill, List.find?_replicate, if_neg (by decide)]
  by_cases ht : e.t = t <;> simp [ht]

end FakeLibc.ThreadTable

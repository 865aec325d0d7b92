import FakeLibc.Lib.Run
import FakeLibc.ThreadTable
import Mathlib.Data.Finmap

namespace FakeLibc.ThreadRegistry

open FakeLibc.Lib.Run FakeLibc.ThreadTable

/-- What the table stands for: a finite map from registered threads to tids. -/
abbrev Registry := Finmap (fun _ : PthreadT => PidT)

inductive Op
  | settid (t : PthreadT) (tid : PidT)
  | remtid (t : PthreadT)
deriving DecidableEq

/-- A thread registers with nonzero ids, only while it is not registered and
fewer than 512 threads are. -/
def register (reg : Registry) : Op → Option Registry
  | .settid t tid =>
    if t ≠ 0 ∧ tid ≠ 0 ∧ t ∉ reg ∧ reg.keys.card < 512 then some (reg.insert t tid) else none
  | .remtid t => some (reg.erase t)

def apply (tab : Table) : Op → Table
  | .settid t tid => mySettidToThread tab t tid
  | .remtid t => myRemtid tab t

structure State where
  tab : Table
  reg : Registry

def start : State := ⟨threadToTid, ∅⟩

def step (s : State) (op : Op) : Option State :=
  (register s.reg op).map (fun reg => ⟨apply s.tab op, reg⟩)

def Op.thread : Op → PthreadT
  | .settid t _ => t
  | .remtid t => t

/-- The table answers as the map does, for every thread. -/
def Refines (s : State) : Prop :=
  ∀ t, t ≠ 0 → myGettidFromThread s.tab t = (s.reg.lookup t).getD 0

/-- The operation leaves the answers for all other threads as they were. -/
def Frames (s : State) (op : Op) : Prop :=
  ∀ t, t ≠ 0 → t ≠ op.thread →
    myGettidFromThread (apply s.tab op) t = myGettidFromThread s.tab t

/-- A thread registers only while no thread is registered. -/
def Alone (s : State) : Op → Prop
  | .settid _ _ => s.reg = ∅
  | .remtid _ => True

def Inv (s : State) : Prop :=
  (s.tab = fill free ∧ s.reg = ∅) ∨
    ∃ t tid, t ≠ 0 ∧ tid ≠ 0 ∧ s.tab = fill ⟨tid, t⟩ ∧ s.reg = Finmap.singleton t tid

theorem step_settid {s u : State} {t : PthreadT} {tid : PidT}
    (h : step s (.settid t tid) = some u) :
    t ≠ 0 ∧ tid ≠ 0 ∧ t ∉ s.reg ∧ u = ⟨mySettidToThread s.tab t tid, s.reg.insert t tid⟩ := by
  obtain ⟨reg, hreg, rfl⟩ := Option.map_eq_some_iff.mp h
  rw [register, Option.ite_none_right_eq_some, Option.some.injEq] at hreg
  obtain ⟨⟨ht, htid, hm, _⟩, rfl⟩ := hreg
  exact ⟨ht, htid, hm, rfl⟩

theorem step_remtid {s u : State} {t : PthreadT} (h : step s (.remtid t) = some u) :
    u = ⟨myRemtid s.tab t, s.reg.erase t⟩ := by
  rw [step, register, Option.map_some, Option.some.injEq] at h
  exact h.symm

theorem erase_eq_self {reg : Registry} {t : PthreadT} (h : t ∉ reg) : reg.erase t = reg := by
  apply Finmap.ext_lookup
  intro x
  by_cases hx : x = t
  · subst x
    rw [Finmap.lookup_erase, Finmap.lookup_eq_none.mpr h]
  · exact Finmap.lookup_erase_ne hx

theorem erase_singleton (t : PthreadT) (tid : PidT) :
    (Finmap.singleton t tid : Registry).erase t = ∅ := by
  apply Finmap.ext_lookup
  intro x
  rw [Finmap.lookup_empty, Finmap.lookup_eq_none, Finmap.mem_erase, Finmap.mem_singleton]
  exact fun hx => hx.1 hx.2

theorem inv_refines {s : State} (h : Inv s) : Refines s := by
  intro t ht
  obtain ⟨htab, hreg⟩ | ⟨t', tid, _, _, htab, hreg⟩ := h <;>
    rw [htab, hreg, myGettidFromThread_fill]
  · rw [if_neg (show free.t ≠ t from Ne.symm ht), Finmap.lookup_empty, Option.getD_none]
  · by_cases ht : t' = t
    · subst t'
      simp
    · have hl : (Finmap.singleton t' tid : Registry).lookup t = none :=
        Finmap.lookup_eq_none.mpr (fun hm => ht ((Finmap.mem_singleton t t' tid).mp hm).symm)
      simp [ht, hl]

theorem inv_settid {s u : State} {t : PthreadT} {tid : PidT} (hs : Inv s)
    (he : s.reg = ∅) (h : step s (.settid t tid) = some u) : Inv u := by
  obtain ⟨ht, htid, _, rfl⟩ := step_settid h
  obtain ⟨htab, _⟩ | ⟨t', tid', _, _, _, hreg⟩ := hs
  · refine .inr ⟨t, tid, ht, htid, ?_, ?_⟩
    · rw [htab, mySettidToThread_fill_free]
    · rw [he]
      rfl
  · have hm : t' ∈ (∅ : Registry) := by rw [← he, hreg, Finmap.mem_singleton]
    exact absurd hm Finmap.notMem_empty

theorem inv_remtid {s u : State} {t : PthreadT} (hs : Inv s)
    (h : step s (.remtid t) = some u) : Inv u := by
  obtain rfl := step_remtid h
  obtain ⟨htab, hreg⟩ | ⟨t', tid', ht', htid', htab, hreg⟩ := hs
  · refine .inl ⟨?_, ?_⟩
    · rw [htab, myRemtid_fill, ite_self]
    · rw [hreg, erase_eq_self Finmap.notMem_empty]
  · by_cases ht : t' = t
    · subst t'
      exact .inl ⟨by rw [htab, myRemtid_fill, if_pos rfl], by rw [hreg, erase_singleton]⟩
    · have hm : t ∉ (Finmap.singleton t' tid' : Registry) := fun hm =>
        ht ((Finmap.mem_singleton t t' tid').mp hm).symm
      exact .inr ⟨t', tid', ht', htid', by rw [htab, myRemtid_fill, if_neg ht],
        by rw [hreg, erase_eq_self hm]⟩

theorem inv_step {s u : State} {op : Op} (hs : Inv s) (hc : Alone s op)
    (h : step s op = some u) : Inv u := by
  cases op with
  | settid t tid => exact inv_settid hs hc h
  | remtid t => exact inv_remtid hs h

/-- A second registration finds no free slot and is lost. -/
theorem not_refines_of_second {s u : State} {op : Op} (hs : Inv s) (hc : ¬ Alone s op)
    (h : step s op = some u) : ¬ Refines u := by
  cases op with
  | remtid t => exact absurd trivial hc
  | settid t tid =>
    obtain ⟨ht, htid, hm, rfl⟩ := step_settid h
    obtain ⟨_, hreg⟩ | ⟨t', tid', ht', htid', htab, hreg⟩ := hs
    · exact absurd hreg hc
    · have hne : t' ≠ t := fun hx => hm (by rw [hreg, hx, Finmap.mem_singleton])
      have hfree : (⟨tid', t'⟩ : ThreadToTid) ≠ free := fun hx =>
        ht' ((eq_free_iff _).mp hx).2
      intro hr
      have hlook := hr t ht
      rw [htab, mySettidToThread_fill hfree, myGettidFromThread_fill, if_neg hne,
        Finmap.lookup_insert, Option.getD_some] at hlook
      exact htid hlook.symm

/-- While the table refines the map before and after, no other answer moves. -/
theorem frames_of_refines {s u : State} {op : Op} (hs : Refines s) (hu : Refines u)
    (h : step s op = some u) : Frames s op := by
  intro t ht hne
  have hreg : u.reg.lookup t = s.reg.lookup t ∧ u.tab = apply s.tab op := by
    cases op with
    | settid t' tid =>
      obtain ⟨_, _, _, rfl⟩ := step_settid h
      exact ⟨Finmap.lookup_insert_of_ne s.reg hne, rfl⟩
    | remtid t' =>
      obtain rfl := step_remtid h
      exact ⟨Finmap.lookup_erase_ne hne, rfl⟩
  rw [← hreg.2, hu t ht, hs t ht, hreg.1]

/-- The table answers as the map does throughout the run, and no operation
moves the answer for another thread. -/
def Faithful (ops : List Op) : Prop :=
  Always step Refines start ops ∧ Guarded step Frames start ops

theorem inv_start : Inv start := .inl ⟨rfl, rfl⟩

theorem faithful_iff_alone (ops : List Op) (hrun : (exec step start ops).isSome) :
    Faithful ops ↔ Guarded step Alone start ops := by
  have hiff : Always step Refines start ops ↔ Guarded step Alone start ops :=
    always_iff_guarded (fun s => inv_refines) (fun s op u => inv_step)
      (fun s op u => not_refines_of_second) inv_start hrun
  constructor
  · intro h
    exact hiff.mp h.1
  · intro h
    have hr := hiff.mpr h
    exact ⟨hr, guarded_of_always (fun s op u => frames_of_refines) hrun hr⟩

theorem faithful_iff_alone_reuse :
    Faithful [.settid 1 100, .remtid 1, .settid 2 200] ↔
      Guarded step Alone start [.settid 1 100, .remtid 1, .settid 2 200] :=
  faithful_iff_alone _ (by decide)

/-- The first registration takes all 512 slots and the second thread gets none. -/
theorem not_faithful_two_threads :
    (exec step start [.settid 1 100, .settid 2 200]).isSome ∧
      ¬ Faithful [.settid 1 100, .settid 2 200] := by
  refine ⟨by decide, fun h => ?_⟩
  have h2 := h.1 [.settid 1 100, .settid 2 200]
    ⟨mySettidToThread (mySettidToThread threadToTid 1 100) 2 200,
      ((∅ : Registry).insert 1 100).insert 2 200⟩ List.prefix_rfl rfl 2 (by decide)
  rw [threadToTid, mySettidToThread_fill_free, mySettidToThread_fill (by decide),
    myGettidFromThread_fill, Finmap.lookup_insert] at h2
  exact absurd h2 (by decide)

end FakeLibc.ThreadRegistry

import Mathlib.Data.List.Nodup
import Mathlib.Data.List.Induction

namespace FakeLibc.Lib.Designated

variable {α : Type*} {zero : α}

/-- The initialiser `[i] = v`. The array grows as far as it must, with zeros. -/
def put (zero : α) (array : List α) (i : Nat) (v : α) : List α :=
  (array ++ List.replicate (i + 1 - array.length) zero).set i v

def initialise (zero : α) (inits : List (Nat × α)) : List α :=
  inits.foldl (fun array init => put zero array init.1 init.2) []

theorem initialise_concat (inits : List (Nat × α)) (i : Nat) (v : α) :
    initialise zero (inits ++ [(i, v)]) = put zero (initialise zero inits) i v := by
  rw [initialise, List.foldl_append]
  rfl

theorem getElem?_put_self (array : List α) (i : Nat) (v : α) :
    (put zero array i v)[i]? = some v := by
  refine List.getElem?_set_self ?_
  rw [List.length_append, List.length_replicate]
  omega

theorem getElem?_put_of_some {array : List α} {i j : Nat} {w : α} (v : α) (hij : i ≠ j)
    (h : array[j]? = some w) : (put zero array i v)[j]? = some w := by
  obtain ⟨hj, _⟩ := List.getElem?_eq_some_iff.mp h
  rw [put, List.getElem?_set_ne hij, List.getElem?_append_left hj, h]

theorem getElem?_put_of_none {array : List α} {i j : Nat} {v w : α} (hij : i ≠ j)
    (h : array[j]? = none) (hw : (put zero array i v)[j]? = some w) : w = zero := by
  have hj := List.getElem?_eq_none_iff.mp h
  rw [put, List.getElem?_set_ne hij, List.getElem?_append_right hj] at hw
  exact (List.mem_replicate.mp (List.mem_of_getElem? hw)).2

theorem getElem?_initialise_of_mem {inits : List (Nat × α)} (hnd : (inits.map Prod.fst).Nodup)
    {i : Nat} {v : α} (h : (i, v) ∈ inits) : (initialise zero inits)[i]? = some v := by
  induction inits using List.reverseRecOn with
  | nil => exact absurd h List.not_mem_nil
  | append_singleton inits init ih =>
    obtain ⟨j, w⟩ := init
    rw [List.map_append, List.nodup_append] at hnd
    obtain ⟨hnd, _, hapart⟩ := hnd
    rw [initialise_concat]
    obtain h | h := List.mem_append.mp h
    · have hij : i ≠ j := hapart i (List.mem_map_of_mem h) j List.mem_cons_self
      exact getElem?_put_of_some w hij.symm (ih hnd h)
    · obtain ⟨rfl, rfl⟩ := Prod.mk.inj (List.mem_singleton.mp h)
      exact getElem?_put_self _ i v

theorem getElem?_initialise_of_notMem {inits : List (Nat × α)} {j : Nat} {w : α}
    (hj : j ∉ inits.map Prod.fst) (h : (initialise zero inits)[j]? = some w) : w = zero := by
  induction inits using List.reverseRecOn generalizing w with
  | nil => cases h
  | append_singleton inits init ih =>
    obtain ⟨i, v⟩ := init
    rw [List.map_append, List.mem_append, not_or] at hj
    have hij : i ≠ j := fun he => hj.2 (List.mem_singleton.mpr he.symm)
    rw [initialise_concat] at h
    cases hold : (initialise zero inits)[j]? with
    | none => exact getElem?_put_of_none hij hold h
    | some w' =>
      rw [getElem?_put_of_some v hij hold] at h
      obtain rfl := Option.some.inj h
      exact ih hj.1 hold

end FakeLibc.Lib.Designated

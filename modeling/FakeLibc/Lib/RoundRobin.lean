import Mathlib.Data.List.Rotate
import Mathlib.Data.Nat.ModEq

namespace FakeLibc.Lib.RoundRobin

variable {α : Type*} {l out : List α} {start : Nat} {a : α}

def advance (n i : Nat) : Nat := if n ≤ i + 1 then 0 else i + 1

theorem advance_eq_mod {n i : Nat} (h : i < n) : advance n i = (i + 1) % n := by
  rw [advance]
  split
  · have hn : i + 1 = n := by omega
    rw [hn, Nat.mod_self]
  · exact (Nat.mod_eq_of_lt (by omega)).symm

theorem advance_lt {n i : Nat} (h : i < n) : advance n i < n := by
  rw [advance_eq_mod h]
  exact Nat.mod_lt _ (by omega)

/-- `out` was taken from `l` in turn, from the index `start` on. -/
def InTurn (l : List α) (start : Nat) (out : List α) : Prop :=
  ∀ j, j < out.length → out[j]? = l[(start + j) % l.length]?

theorem inTurn_nil : InTurn l start [] := fun j hj => absurd hj (Nat.not_lt_zero j)

theorem InTurn.concat (h : InTurn l start out)
    (ha : l[(start + out.length) % l.length]? = some a) : InTurn l start (out ++ [a]) := by
  intro j hj
  rw [List.length_append, List.length_singleton] at hj
  obtain hlt | heq := Nat.lt_or_eq_of_le (Nat.le_of_lt_succ hj)
  · rw [List.getElem?_append_left hlt]
    exact h j hlt
  · rw [heq, List.getElem?_concat_length, ha]

theorem InTurn.getElem?_sub (h : InTurn l start out) (hl : l ≠ [])
    (hle : l.length ≤ out.length) :
    out[out.length - l.length]? = l[(start + out.length) % l.length]? := by
  have hpos := List.length_pos_of_ne_nil hl
  rw [h _ (by omega), ← Nat.add_mod_right, Nat.add_assoc, Nat.sub_add_cancel hle]

theorem InTurn.next_mem_iff (h : InTurn l start out) (hnodup : l.Nodup)
    (ha : l[(start + out.length) % l.length]? = some a) : a ∈ out ↔ l.length ≤ out.length := by
  have hl : l ≠ [] := by
    rintro rfl
    cases ha
  constructor
  · intro hmem
    obtain ⟨j, hj⟩ := List.mem_iff_getElem?.mp hmem
    have hlt : j < out.length := (List.getElem?_eq_some_iff.mp hj).1
    have hmod : start + j ≡ start + out.length [MOD l.length] :=
      (List.getElem?_inj (Nat.mod_lt _ (List.length_pos_of_ne_nil hl)) hnodup).mp
        (((h j hlt).symm.trans hj).trans ha.symm)
    have hdvd := (Nat.modEq_iff_dvd' (by omega)).mp hmod
    rw [Nat.add_sub_add_left] at hdvd
    have hle := Nat.le_of_dvd (by omega) hdvd
    omega
  · intro hle
    exact List.mem_of_getElem? ((h.getElem?_sub hl hle).trans ha)

end FakeLibc.Lib.RoundRobin

import Mathlib.Data.List.Count
import Mathlib.Logic.Function.Basic

namespace FakeLibc.Lib.Places

variable {R α : Type*} [DecidableEq R]

/-- How often `r` lies in one of the first `n` places of a table, where `read`
gives what an entry holds. -/
def held (read : α → List R) (table : Nat → α) (r : R) : Nat → Nat
  | 0 => 0
  | n + 1 => held read table r n + (read (table n)).count r

variable (read : α → List R) (table : Nat → α)

theorem held_congr {table' : Nat → α} {n : Nat} (h : ∀ j < n, table' j = table j) (r : R) :
    held read table' r n = held read table r n := by
  induction n with
  | zero => rfl
  | succ n ih =>
    have hsame := ih (fun j hj => h j (Nat.lt_succ_of_lt hj))
    simp only [held, hsame, h n (Nat.lt_succ_self n)]

theorem held_update {n k : Nat} (hk : k < n) (x : α) (r : R) :
    held read (Function.update table k x) r n + (read (table k)).count r =
      held read table r n + (read x).count r := by
  induction n with
  | zero => exact absurd hk (Nat.not_lt_zero k)
  | succ n ih =>
    by_cases hkn : k = n
    · subst k
      have hsame : held read (Function.update table n x) r n = held read table r n :=
        held_congr read table (fun j hj => Function.update_of_ne (Nat.ne_of_lt hj) x table) r
      simp only [held, hsame, Function.update_self]
      omega
    · have hrest := ih (by omega)
      simp only [held, Function.update_of_ne (Ne.symm hkn)]
      omega

theorem held_insert (n : Nat) (x : α) (r : R) :
    held read (Function.update table n x) r (n + 1) =
      held read table r n + (read x).count r := by
  rw [held, Function.update_self]
  apply congrArg (· + (read x).count r)
  exact held_congr read table (fun j hj => Function.update_of_ne (Nat.ne_of_lt hj) x table) r

end FakeLibc.Lib.Places

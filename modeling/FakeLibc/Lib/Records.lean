import Mathlib.Data.List.Basic
import Mathlib.Algebra.BigOperators.Group.List.Basic

namespace FakeLibc.Lib.Records

/-- Records lie one behind the other from `a` to `b`, and `l` has where each
of them starts. A record says at its start how long it is. -/
inductive Tiles (size : Nat → Nat) (b : Nat) : Nat → List Nat → Prop
  | nil : Tiles size b b []
  | cons {a : Nat} {l : List Nat} (h : Tiles size b (a + size a) l) : Tiles size b a (a :: l)

/-- A reader stands at `a` and at the places of `l` after it, and it stops at
the first place that is not before `b`. -/
inductive Pass (size : Nat → Nat) (b : Nat) : Nat → List Nat → Prop
  | stop {a : Nat} (h : b ≤ a) : Pass size b a []
  | next {a : Nat} {l : List Nat} (hlt : a < b) (h : Pass size b (a + size a) l) :
    Pass size b a (a :: l)

variable {size : Nat → Nat} {a b : Nat} {l : List Nat}

theorem Tiles.le (h : Tiles size b a l) : a ≤ b := by
  induction h with
  | nil => exact Nat.le_refl b
  | cons _ ih => exact Nat.le_trans (Nat.le_add_right _ _) ih

theorem Tiles.add_size_le (h : Tiles size b a l) : ∀ c ∈ l, c + size c ≤ b := by
  induction h with
  | nil => simp
  | cons h ih =>
    intro c hc
    rcases List.mem_cons.mp hc with rfl | hc
    · exact h.le
    · exact ih c hc

/-- A reader that stays inside has seen records without a gap. -/
theorem Pass.tiles (h : Pass size b a l) (hab : a ≤ b) (hin : ∀ c ∈ l, c + size c ≤ b) :
    Tiles size b a l := by
  induction h with
  | stop hba =>
    have : _ = b := Nat.le_antisymm hab hba
    subst this
    exact Tiles.nil
  | @next a l _ _ ih =>
    apply Tiles.cons
    exact ih (hin a List.mem_cons_self) (fun c hc => hin c (List.mem_cons_of_mem a hc))

end FakeLibc.Lib.Records

import Mathlib.Data.Option.Basic
import Mathlib.Logic.Function.Basic

namespace FakeLibc.Lib.MutualLinks

variable {A B : Type*} {f : A → Option B} {g : B → Option A} {a : A} {b c : B}

/-- Objects of two kinds that point at each other: what one table says of a
pair, the other says too. -/
def Paired (f : A → Option B) (g : B → Option A) : Prop := ∀ a b, f a = some b ↔ g b = some a

theorem paired_none : Paired (fun _ : A => (none : Option B)) (fun _ => none) :=
  fun _ _ => iff_of_false (Option.some_ne_none _).symm (Option.some_ne_none _).symm

variable [DecidableEq A] [DecidableEq B]

theorem Paired.join (h : Paired f g) (ha : f a = none) (hb : g b = none) :
    Paired (Function.update f a (some b)) (Function.update g b (some a)) := by
  intro x y
  by_cases hx : x = a
  · subst hx
    by_cases hy : y = b
    · subst hy
      rw [Function.update_self, Function.update_self]
      exact iff_of_true rfl rfl
    · rw [Function.update_self, Function.update_of_ne hy, ← h x y, ha]
      exact iff_of_false (fun he => hy (Option.some.inj he).symm) (Option.some_ne_none _).symm
  · by_cases hy : y = b
    · subst hy
      rw [Function.update_of_ne hx, Function.update_self, h x y, hb]
      exact iff_of_false (Option.some_ne_none _).symm (fun he => hx (Option.some.inj he).symm)
    · rw [Function.update_of_ne hx, Function.update_of_ne hy]
      exact h x y

theorem Paired.part (h : Paired f g) (hab : f a = some b) :
    Paired (Function.update f a none) (Function.update g b none) := by
  intro x y
  by_cases hx : x = a
  · subst hx
    by_cases hy : y = b
    · subst hy
      rw [Function.update_self, Function.update_self]
      exact iff_of_false (Option.some_ne_none _).symm (Option.some_ne_none _).symm
    · rw [Function.update_self, Function.update_of_ne hy, ← h x y]
      exact iff_of_false (Option.some_ne_none _).symm
        (fun he => hy (Option.some.inj (he.symm.trans hab)))
  · by_cases hy : y = b
    · subst hy
      have hya : g y = some a := (h a y).mp hab
      rw [Function.update_of_ne hx, Function.update_self, h x y]
      exact iff_of_false (fun he => hx (Option.some.inj (he.symm.trans hya)))
        (Option.some_ne_none _).symm
    · rw [Function.update_of_ne hx, Function.update_of_ne hy]
      exact h x y

theorem Paired.not_join (h : Paired f g) (hc : f a = some c) (hb : g b = none) :
    ¬ Paired (Function.update f a (some b)) (Function.update g b (some a)) := by
  intro hp
  have hga : g c = some a := (h a c).mp hc
  have hne : c ≠ b := by
    rintro rfl
    rw [hb] at hga
    cases hga
  have hfa := (hp a c).mpr (by rw [Function.update_of_ne hne, hga])
  rw [Function.update_self] at hfa
  exact hne (Option.some.inj hfa).symm

end FakeLibc.Lib.MutualLinks

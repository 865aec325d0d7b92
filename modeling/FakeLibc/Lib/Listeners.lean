import Mathlib.Logic.Function.Basic

namespace FakeLibc.Lib.Listeners

variable {ι τ : Type*} {pending : ι → Option τ} {slot : τ → Option ι} {i : ι} {x : τ}

/-- Each pending listener writes to a target, and each target knows the listener
that writes to it. -/
def Paired (pending : ι → Option τ) (slot : τ → Option ι) : Prop :=
  ∀ i x, pending i = some x ↔ slot x = some i

def Safe (pending : ι → Option τ) (alive : τ → Prop) : Prop :=
  ∀ i x, pending i = some x → alive x

theorem paired_none : Paired (fun _ : ι => (none : Option τ)) (fun _ => none) := by
  intro i x
  constructor <;> exact nofun

theorem Paired.safe (h : Paired pending slot) {alive : τ → Prop}
    (ha : ∀ x, (slot x).isSome → alive x) : Safe pending alive := by
  intro i x hi
  refine ha x ?_
  rw [(h i x).mp hi]
  rfl

theorem Paired.not_safe (h : Paired pending slot) {alive : τ → Prop} (hx : (slot x).isSome)
    (ha : ¬ alive x) : ¬ Safe pending alive := by
  obtain ⟨i, hi⟩ := Option.isSome_iff_exists.mp hx
  exact fun hs => ha (hs i x ((h i x).mpr hi))

variable [DecidableEq τ]

theorem Paired.untouched (h : Paired pending slot) (hx : slot x = none) :
    Paired pending (Function.update slot x none) := by
  have hsame : Function.update slot x none = slot := by
    rw [← hx, Function.update_eq_self]
  rw [hsame]
  exact h

variable [DecidableEq ι]

theorem Paired.register (h : Paired pending slot) (hi : pending i = none) (hx : slot x = none) :
    Paired (Function.update pending i (some x)) (Function.update slot x (some i)) := by
  intro j y
  have hfree : slot y ≠ some i := fun hs => by
    rw [(h i y).mpr hs] at hi
    cases hi
  have hnone : pending j ≠ some x := fun hs => by
    rw [(h j x).mp hs] at hx
    cases hx
  by_cases hj : j = i <;> by_cases hy : y = x
  · simp [hj, hy]
  · simp [hj, hy, hfree, Ne.symm hy]
  · simp [hj, hy, hnone, Ne.symm hj]
  · simp [hj, hy, h j y]

theorem Paired.remove (h : Paired pending slot) (hx : slot x = some i) :
    Paired (Function.update pending i none) (Function.update slot x none) := by
  intro j y
  have hi := (h i x).mpr hx
  by_cases hj : j = i <;> by_cases hy : y = x
  · simp [hj, hy]
  · have hother : slot y ≠ some i := fun hs => by
      rw [(h i y).mpr hs] at hi
      exact hy (Option.some.inj hi)
    simp [hj, hy, hother]
  · have hother : pending j ≠ some x := fun hs => by
      rw [(h j x).mp hs] at hx
      exact hj (Option.some.inj hx)
    simp [hj, hy, hother]
  · simp [hj, hy, h j y]

end FakeLibc.Lib.Listeners

import Mathlib.Data.Option.Basic

namespace FakeLibc.Lib.Loop

variable {σ ρ : Type*} {next : σ → σ ⊕ ρ}

/-- Go on from one state to the next until there is a result. Where it does not
come within `fuel` passes, the loop has none. -/
def loop (next : σ → σ ⊕ ρ) : Nat → σ → Option ρ
  | 0, _ => none
  | fuel + 1, s =>
    match next s with
    | .inl t => loop next fuel t
    | .inr r => some r

theorem loop_inl {s t : σ} (h : next s = .inl t) (fuel : Nat) :
    loop next (fuel + 1) s = loop next fuel t := by
  rw [loop, h]

theorem loop_inr {s : σ} {r : ρ} (h : next s = .inr r) (fuel : Nat) :
    loop next (fuel + 1) s = some r := by
  rw [loop, h]

theorem loop_mono {s : σ} {r : ρ} {fuel fuel' : Nat} (h : loop next fuel s = some r)
    (hle : fuel ≤ fuel') : loop next fuel' s = some r := by
  induction fuel generalizing s fuel' with
  | zero => cases h
  | succ fuel ih =>
    obtain ⟨n, rfl⟩ := Nat.exists_eq_add_of_le' (Nat.le_of_lt_succ (Nat.lt_succ_of_le hle))
    rw [← Nat.add_assoc]
    cases hs : next s with
    | inl t =>
      rw [loop_inl hs] at h ⊢
      exact ih h (Nat.le_add_left fuel n)
    | inr q =>
      rw [loop_inr hs] at h ⊢
      exact h

theorem loop_unique {s : σ} {r r' : ρ} {fuel fuel' : Nat} (h : loop next fuel s = some r)
    (h' : loop next fuel' s = some r') : r = r' := by
  have hmax := loop_mono h (Nat.le_max_left fuel fuel')
  have hmax' := loop_mono h' (Nat.le_max_right fuel fuel')
  exact Option.some.inj (hmax.symm.trans hmax')

/-- States from which no pass leaves are never left, whatever the fuel. -/
theorem loop_eq_none (Stuck : σ → Prop)
    (hstuck : ∀ s, Stuck s → ∃ t, next s = .inl t ∧ Stuck t)
    {s : σ} (hs : Stuck s) (fuel : Nat) : loop next fuel s = none := by
  induction fuel generalizing s with
  | zero => rfl
  | succ fuel ih =>
    obtain ⟨t, ht, hstuck⟩ := hstuck s hs
    rw [loop_inl ht]
    exact ih hstuck

end FakeLibc.Lib.Loop

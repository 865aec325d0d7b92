import FakeLibc.Lib.Run
import Mathlib.Data.Option.Basic

namespace FakeLibc.Lib.Observe

open FakeLibc.Lib.Run

variable {σ τ α γ β : Type*}

/-- What the calls `as` return one after another. A call that does not return
is the last one. -/
def observe (step : σ → α → Option (σ × β)) : σ → List α → List (Option β)
  | _, [] => []
  | s, a :: as =>
    match step s a with
    | none => [none]
    | some r => some r.2 :: observe step r.1 as

def advance (step : σ → α → Option (σ × β)) (s : σ) (a : α) : Option σ := (step s a).map Prod.fst

variable {step : σ → α → Option (σ × β)} {spec : τ → γ → Option (τ × β)} {f : α → γ}
  {R : σ → τ → Prop} {C : σ → α → Prop}

/-- A simulation whose steps return the same. The steps of the concrete machine
may ask for the condition `C`. -/
def Simulation (step : σ → α → Option (σ × β)) (spec : τ → γ → Option (τ × β)) (f : α → γ)
    (C : σ → α → Prop) (R : σ → τ → Prop) : Prop :=
  ∀ s t a, R s t → C s a →
    Option.Rel (fun x y => R x.1 y.1 ∧ x.2 = y.2) (step s a) (spec t (f a))

theorem observe_eq (h : Simulation step spec f C R) {s : σ} {t : τ} {as : List α} (hs : R s t)
    (hc : Guarded (advance step) C s as) : observe step s as = observe spec t (as.map f) := by
  induction as generalizing s t with
  | nil => rfl
  | cons a as ih =>
    obtain ⟨ha, has⟩ := (guarded_cons C s a as).mp hc
    have hrel := h s t a hs ha
    unfold observe
    cases hstep : step s a with
    | none =>
      rw [hstep] at hrel
      cases hspec : spec t (f a) with
      | none => simp [hspec]
      | some y =>
        rw [hspec] at hrel
        cases hrel
    | some x =>
      rw [hstep] at hrel
      cases hspec : spec t (f a) with
      | none =>
        rw [hspec] at hrel
        cases hrel
      | some y =>
        rw [hspec] at hrel
        obtain ⟨hxy, hret⟩ := Option.rel_some_some.mp hrel
        have hadvance : advance step s a = some x.1 := by rw [advance, hstep, Option.map_some]
        simp only [List.map_cons, hspec, hret, ih hxy (has x.1 hadvance)]

end FakeLibc.Lib.Observe

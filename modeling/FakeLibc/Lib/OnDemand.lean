import Mathlib.Data.List.Basic
import Mathlib.Logic.Function.Basic

namespace FakeLibc.Lib.OnDemand

variable {S : Type*}

inductive Event (S : Type*)
  | load (s : S)
  | use (s : S)
deriving DecidableEq

/-- `missed` collects the null pointers that were called. -/
structure Table (S : Type*) where
  resolved : S → Bool
  missed : List S

def Table.call (t : Table S) (s : S) : Table S :=
  if t.resolved s then t else { t with missed := s :: t.missed }

theorem call_resolved (t : Table S) (s : S) : (t.call s).resolved = t.resolved := by
  unfold Table.call
  split <;> rfl

theorem call_of_resolved {t : Table S} {s : S} (h : t.resolved s = true) : t.call s = t := if_pos h

variable [DecidableEq S]

/-- A null pointer is filled by a call of the resolver, itself a pointer. -/
def Table.resolve (resolver : S) (t : Table S) (s : S) : Table S :=
  if t.resolved s then t
  else { t.call resolver with resolved := Function.update t.resolved s true }

def Table.perform (resolver : S) (t : Table S) : Event S → Table S
  | .load s => t.resolve resolver s
  | .use s => t.call s

def Table.run (resolver : S) (t : Table S) (es : List (Event S)) : Table S :=
  es.foldl (Table.perform resolver) t

/-- The pointers that a routine calls without having loaded them. -/
def unmet : List (Event S) → List S
  | [] => []
  | .load s :: es => (unmet es).filter (· ≠ s)
  | .use s :: es => s :: unmet es

theorem use_mem_of_mem_unmet {es : List (Event S)} {s : S} (h : s ∈ unmet es) : .use s ∈ es := by
  induction es with
  | nil => exact absurd h List.not_mem_nil
  | cons e es ih =>
    cases e with
    | load a => exact List.mem_cons_of_mem _ (ih (List.mem_filter.mp h).1)
    | use a =>
      obtain rfl | h := List.mem_cons.mp h
      · exact List.mem_cons_self
      · exact List.mem_cons_of_mem _ (ih h)

theorem mem_unmet_append {es fs : List (Event S)} {s : S} (h : s ∈ unmet (es ++ fs)) :
    s ∈ unmet es ∨ (s ∈ unmet fs ∧ .load s ∉ es) := by
  induction es with
  | nil => exact .inr ⟨h, List.not_mem_nil⟩
  | cons e es ih =>
    cases e with
    | load a =>
      obtain ⟨h, hne⟩ := List.mem_filter.mp h
      have hne : s ≠ a := of_decide_eq_true hne
      obtain h | ⟨h, hes⟩ := ih h
      · exact .inl (List.mem_filter.mpr ⟨h, decide_eq_true hne⟩)
      · exact .inr ⟨h, by simp [hne, hes]⟩
    | use a =>
      obtain rfl | h := List.mem_cons.mp h
      · exact .inl List.mem_cons_self
      · obtain h | ⟨h, hes⟩ := ih h
        · exact .inl (List.mem_cons_of_mem _ h)
        · exact .inr ⟨h, by simp [hes]⟩

variable {resolver s : S} {t : Table S} {e : Event S} {es : List (Event S)}

theorem resolve_resolved (resolver : S) (t : Table S) (s : S) :
    (t.resolve resolver s).resolved = Function.update t.resolved s true := by
  unfold Table.resolve
  split
  · rename_i h
    rw [← h, Function.update_eq_self]
  · rfl

theorem resolve_missed (h : t.resolved resolver = true) (s : S) :
    (t.resolve resolver s).missed = t.missed := by
  unfold Table.resolve
  split
  · rfl
  · rw [call_of_resolved h]

theorem run_resolved (resolver : S) (t : Table S) (es : List (Event S)) (s : S) :
    (t.run resolver es).resolved s = true ↔ t.resolved s = true ∨ .load s ∈ es := by
  induction es generalizing t with
  | nil => simp [Table.run]
  | cons e es ih =>
    have hrun : t.run resolver (e :: es) = (t.perform resolver e).run resolver es := rfl
    rw [hrun, ih]
    cases e with
    | load a =>
      rw [Table.perform, resolve_resolved]
      by_cases hs : s = a <;> simp [hs]
    | use a => simp [Table.perform, call_resolved]

theorem run_missed_of_ne_nil (h : t.missed ≠ []) (es : List (Event S)) :
    (t.run resolver es).missed ≠ [] := by
  induction es generalizing t with
  | nil => exact h
  | cons e es ih =>
    apply ih
    cases e with
    | load a =>
      simp only [Table.perform, Table.resolve, Table.call]
      split
      · exact h
      · split
        · exact h
        · exact List.cons_ne_nil _ _
    | use a =>
      simp only [Table.perform, Table.call]
      split
      · exact h
      · exact List.cons_ne_nil _ _

/-- A routine calls no null pointer precisely when those it does not load are
resolved beforehand. -/
theorem run_missed_eq_nil_iff (hr : t.resolved resolver = true) (hm : t.missed = []) :
    (t.run resolver es).missed = [] ↔ ∀ s ∈ unmet es, t.resolved s = true := by
  induction es generalizing t with
  | nil => simpa [Table.run, unmet] using hm
  | cons e es ih =>
    have hrun : t.run resolver (e :: es) = (t.perform resolver e).run resolver es := rfl
    rw [hrun]
    cases e with
    | load a =>
      have hr' : (t.resolve resolver a).resolved resolver = true := by
        rw [resolve_resolved]
        by_cases ha : resolver = a <;> simp [ha, hr]
      have hm' : (t.resolve resolver a).missed = [] := by rw [resolve_missed hr, hm]
      rw [Table.perform, ih hr' hm', resolve_resolved]
      simp only [unmet, List.mem_filter, decide_eq_true_eq, and_imp]
      refine forall₂_congr (fun s _ => ?_)
      by_cases hs : s = a <;> simp [hs]
    | use a =>
      simp only [unmet, List.forall_mem_cons]
      by_cases ha : t.resolved a = true
      · rw [Table.perform, call_of_resolved ha, ih hr hm, and_iff_right ha]
      · refine iff_of_false ?_ (fun h => ha h.1)
        apply run_missed_of_ne_nil
        rw [Table.perform, Table.call, if_neg ha]
        exact List.cons_ne_nil _ _

end FakeLibc.Lib.OnDemand

import Mathlib.Data.List.Count
import Mathlib.Data.List.Nodup

namespace FakeLibc.Lib.Counting

variable {α : Type*} {l : List α} {a : α} {i : Nat} {p q : α → Bool}

theorem split_of_getElem? (h : l[i]? = some a) :
    ∃ l₁ l₂, l = l₁ ++ a :: l₂ ∧ l.eraseIdx i = l₁ ++ l₂ := by
  obtain ⟨hi, rfl⟩ := List.getElem?_eq_some_iff.mp h
  refine ⟨l.take i, l.drop (i + 1), ?_, List.eraseIdx_eq_take_drop_succ l i⟩
  rw [← List.drop_eq_getElem_cons hi, List.take_append_drop]

theorem countP_eraseIdx_add (h : l[i]? = some a) :
    (l.eraseIdx i).countP p + (if p a then 1 else 0) = l.countP p := by
  obtain ⟨l₁, l₂, hl, herase⟩ := split_of_getElem? h
  rw [herase, hl]
  simp only [List.countP_append, List.countP_cons]
  omega

variable [DecidableEq α] {b : α}

theorem countP_change (hl : l.Nodup) (hb : b ∈ l) (h : ∀ c, c ≠ b → p c = q c) :
    l.countP q + (if p b then 1 else 0) = l.countP p + (if q b then 1 else 0) := by
  have hperm := List.perm_cons_erase hb
  have hrest : (l.erase b).countP p = (l.erase b).countP q := by
    apply List.countP_congr
    intro c hc
    rw [h c (fun hcb => hl.not_mem_erase (hcb ▸ hc))]
  rw [hperm.countP_eq, hperm.countP_eq, List.countP_cons, List.countP_cons]
  omega

theorem countP_le_add (hl : l.Nodup) (h : ∀ c, c ≠ b → p c = q c) :
    l.countP q ≤ l.countP p + (if q b then 1 else 0) := by
  by_cases hb : b ∈ l
  · have hchange := countP_change hl hb h
    omega
  · have hsame : l.countP p = l.countP q := by
      apply List.countP_congr
      intro c hc
      rw [h c (fun hcb => hb (hcb ▸ hc))]
    omega

theorem countP_erase_add (hb : b ∈ l) :
    (l.erase b).countP p + (if p b then 1 else 0) = l.countP p := by
  rw [(List.perm_cons_erase hb).countP_eq p, List.countP_cons]

end FakeLibc.Lib.Counting

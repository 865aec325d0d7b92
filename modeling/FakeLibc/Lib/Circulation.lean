import Mathlib.Data.List.Count
import Mathlib.Data.List.Nodup
import Mathlib.Data.List.Perm.Basic

namespace FakeLibc.Lib.Circulation

variable {α : Type*} {pool held pending given : List α} {busy busy' : α → Bool} {b : α}

/-- The items of a pool go round: a free one is handed out and held, handed
back it is pending, then it is given away until it is released. The busy ones
are those that are somewhere on their way, and each of them is at one place. -/
structure Rounds (pool : List α) (busy : α → Bool) (held pending given : List α) : Prop where
  nodup : (held ++ (pending ++ given)).Nodup
  busy_iff : ∀ b ∈ pool, busy b = true ↔ b ∈ held ++ (pending ++ given)
  listed : ∀ b ∈ held ++ (pending ++ given), b ∈ pool

namespace Rounds

theorem nil (busy : α → Bool) : Rounds [] busy [] [] [] :=
  ⟨List.nodup_nil, fun _ h => absurd h List.not_mem_nil, fun _ h => absurd h List.not_mem_nil⟩

theorem busy_of_mem (h : Rounds pool busy held pending given)
    (hb : b ∈ held ++ (pending ++ given)) : busy b = true :=
  (h.busy_iff b (h.listed b hb)).mpr hb

theorem notMem_of_free (h : Rounds pool busy held pending given) (hb : busy b = false) :
    b ∉ held ++ (pending ++ given) := by
  intro hm
  rw [h.busy_of_mem hm] at hb
  cases hb

theorem nodup_given (h : Rounds pool busy held pending given) : given.Nodup :=
  (List.nodup_append.mp (List.nodup_append.mp h.nodup).2.1).2.1

theorem of_perm {held' pending' given' : List α} (h : Rounds pool busy held pending given)
    (hp : (held' ++ (pending' ++ given')).Perm (held ++ (pending ++ given))) :
    Rounds pool busy held' pending' given' where
  nodup := hp.nodup_iff.mpr h.nodup
  busy_iff b hb := (h.busy_iff b hb).trans hp.mem_iff.symm
  listed b hb := h.listed b (hp.mem_iff.mp hb)

theorem congr (h : Rounds pool busy held pending given)
    (hbusy : ∀ b ∈ pool, busy' b = busy b) : Rounds pool busy' held pending given where
  nodup := h.nodup
  busy_iff b hb := by
    rw [hbusy b hb]
    exact h.busy_iff b hb
  listed := h.listed

theorem back (h : Rounds pool busy (b :: held) pending given) :
    Rounds pool busy held (pending ++ [b]) given := by
  apply h.of_perm
  rw [List.append_assoc]
  exact (List.Perm.append_left held List.perm_middle).trans List.perm_middle

theorem give (h : Rounds pool busy held (b :: pending) given) :
    Rounds pool busy held pending (given ++ [b]) := by
  apply h.of_perm
  apply List.Perm.append_left held
  rw [← List.append_assoc]
  exact List.perm_append_singleton b (pending ++ given)

/-- A new item, which is free. -/
theorem add (h : Rounds pool busy held pending given) (hb : b ∉ pool)
    (hfree : busy b = false) : Rounds (pool ++ [b]) busy held pending given where
  nodup := h.nodup
  busy_iff c hc := by
    obtain hc | hc := List.mem_append.mp hc
    · exact h.busy_iff c hc
    · obtain rfl := List.mem_singleton.mp hc
      rw [hfree]
      exact iff_of_false Bool.false_ne_true (fun hm => hb (h.listed c hm))
  listed c hc := List.mem_append_left _ (h.listed c hc)

theorem length_eq (h : Rounds pool busy held pending given) (hpool : pool.Nodup) :
    pool.length =
      pool.countP (fun b => !busy b) + held.length + pending.length + given.length := by
  have hperm : (pool.filter busy).Perm (held ++ (pending ++ given)) := by
    rw [List.perm_ext_iff_of_nodup (hpool.filter busy) h.nodup]
    intro c
    rw [List.mem_filter]
    constructor
    · rintro ⟨hc, hb⟩
      exact (h.busy_iff c hc).mp hb
    · intro hc
      exact ⟨h.listed c hc, h.busy_of_mem hc⟩
  have hlen := hperm.length_eq
  rw [← List.countP_eq_length_filter, List.length_append, List.length_append] at hlen
  have hsplit := List.length_eq_countP_add_countP busy (l := pool)
  have hnot : pool.countP (fun b => !busy b) = pool.countP (fun b => ¬ busy b = true) := by
    apply List.countP_congr
    intro c _
    cases busy c <;> simp
  omega

variable [DecidableEq α]

theorem discard (h : Rounds pool busy held pending given) (hfree : busy b = false) :
    Rounds (pool.erase b) busy held pending given where
  nodup := h.nodup
  busy_iff c hc := h.busy_iff c (List.mem_of_mem_erase hc)
  listed c hc := by
    have hne : c ≠ b := by
      rintro rfl
      exact h.notMem_of_free hfree hc
    exact (List.mem_erase_of_ne hne).mpr (h.listed c hc)

theorem handOut (h : Rounds pool busy held pending given) (hb : b ∈ pool)
    (hfree : busy b = false) (hbusy : ∀ c, busy' c = if c = b then true else busy c) :
    Rounds pool busy' (held ++ [b]) pending given := by
  have hperm : ((held ++ [b]) ++ (pending ++ given)).Perm (b :: (held ++ (pending ++ given))) := by
    rw [List.append_assoc]
    exact List.perm_middle
  constructor
  · rw [hperm.nodup_iff]
    exact List.nodup_cons.mpr ⟨h.notMem_of_free hfree, h.nodup⟩
  · intro c hc
    rw [hperm.mem_iff, List.mem_cons, hbusy]
    by_cases hcb : c = b
    · rw [if_pos hcb]
      exact iff_of_true rfl (.inl hcb)
    · rw [if_neg hcb, h.busy_iff c hc]
      exact (or_iff_right hcb).symm
  · intro c hc
    rw [hperm.mem_iff, List.mem_cons] at hc
    obtain rfl | hc := hc
    · exact hb
    · exact h.listed c hc

theorem release (h : Rounds pool busy held pending given) (hb : b ∈ given)
    (hbusy : ∀ c, busy' c = if c = b then false else busy c) :
    Rounds pool busy' held pending (given.erase b) := by
  have hgiven : (held ++ (pending ++ given)).Perm (b :: (held ++ (pending ++ given.erase b))) := by
    have hback := (List.perm_cons_erase hb).append_left (held ++ pending)
    rw [List.append_assoc, List.append_assoc] at hback
    refine hback.trans ?_
    rw [← List.append_assoc, ← List.append_assoc]
    exact List.perm_middle
  have hnodup := List.nodup_cons.mp (hgiven.nodup_iff.mp h.nodup)
  constructor
  · exact hnodup.2
  · intro c hc
    rw [hbusy]
    by_cases hcb : c = b
    · rw [if_pos hcb, hcb]
      exact iff_of_false Bool.false_ne_true hnodup.1
    · rw [if_neg hcb, h.busy_iff c hc, hgiven.mem_iff, List.mem_cons]
      exact or_iff_right hcb
  · intro c hc
    exact h.listed c (hgiven.mem_iff.mpr (List.mem_cons_of_mem b hc))

end Rounds

end FakeLibc.Lib.Circulation

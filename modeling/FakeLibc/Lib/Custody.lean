import Mathlib.Data.List.Nodup

namespace FakeLibc.Lib.Custody

variable {α : Type*}

/-- Two parties share a pool: one holds the items in `held`, the other was given
those in `given`. Both count as busy, apart from the items in `early`, which
were given when they counted as free. -/
structure Owned (busy : α → Bool) (held given early : List α) : Prop where
  nodup : held.Nodup
  busyHeld : ∀ b ∈ held, busy b = true
  disjoint : ∀ b ∈ held, b ∉ given
  busyGiven : ∀ b ∈ given, busy b = true ∨ b ∈ early
  earlyGiven : ∀ b ∈ early, b ∈ given

variable {busy busy' : α → Bool} {held given early : List α} {b : α}

theorem owned_nil (busy : α → Bool) : Owned busy [] [] [] where
  nodup := List.nodup_nil
  busyHeld := by simp
  disjoint := by simp
  busyGiven := by simp
  earlyGiven := by simp

theorem Owned.not_held (h : Owned busy held given early) (hb : busy b = false) : b ∉ held := by
  intro hh
  rw [h.busyHeld b hh] at hb
  cases hb

theorem Owned.not_given (h : Owned busy held given early) (hb : busy b = false)
    (he : b ∉ early) : b ∉ given := by
  intro hg
  rw [(h.busyGiven b hg).resolve_right he] at hb
  cases hb

theorem owned_congr (h : Owned busy held given early)
    (hbusy : ∀ c, c ∈ held ∨ c ∈ given → busy' c = busy c) : Owned busy' held given early where
  nodup := h.nodup
  busyHeld := fun c hc => (hbusy c (.inl hc)).trans (h.busyHeld c hc)
  disjoint := h.disjoint
  busyGiven := fun c hc => by
    rw [hbusy c (.inr hc)]
    exact h.busyGiven c hc
  earlyGiven := h.earlyGiven

theorem owned_attach (h : Owned busy held given early) (hb : b ∉ held) :
    Owned busy held (given ++ [b]) (if busy b then early else early ++ [b]) where
  nodup := h.nodup
  busyHeld := h.busyHeld
  disjoint := fun c hc hg => by
    obtain hg | hg := List.mem_append.mp hg
    · exact h.disjoint c hc hg
    · exact hb (List.mem_singleton.mp hg ▸ hc)
  busyGiven := fun c hc => by
    obtain hc | hc := List.mem_append.mp hc
    · split
      · exact h.busyGiven c hc
      · exact (h.busyGiven c hc).imp_right (List.mem_append_left _)
    · rw [List.mem_singleton.mp hc]
      split
      next hbusy => exact .inl hbusy
      next => exact .inr (List.mem_append_right _ (List.mem_singleton_self b))
  earlyGiven := fun c hc => by
    split at hc
    · exact List.mem_append_left _ (h.earlyGiven c hc)
    · obtain hc | hc := List.mem_append.mp hc
      · exact List.mem_append_left _ (h.earlyGiven c hc)
      · exact List.mem_append_right _ hc

variable [DecidableEq α]

theorem owned_handOut (h : Owned busy held given early) (hh : b ∉ held) (hg : b ∉ given)
    (hbusy : ∀ c, busy' c = if c = b then true else busy c) :
    Owned busy' (held ++ [b]) given early where
  nodup := List.nodup_append.mpr ⟨h.nodup, List.nodup_singleton b, fun c hc d hd hcd => by
    rw [List.mem_singleton.mp hd] at hcd
    exact hh (hcd ▸ hc)⟩
  busyHeld := fun c hc => by
    rw [hbusy]
    split
    next => rfl
    next hne =>
      obtain hc | hc := List.mem_append.mp hc
      · exact h.busyHeld c hc
      · exact absurd (List.mem_singleton.mp hc) hne
  disjoint := fun c hc => by
    obtain hc | hc := List.mem_append.mp hc
    · exact h.disjoint c hc
    · exact List.mem_singleton.mp hc ▸ hg
  busyGiven := fun c hc => by
    have hne : c ≠ b := fun hcb => hg (hcb ▸ hc)
    rw [hbusy, if_neg hne]
    exact h.busyGiven c hc
  earlyGiven := h.earlyGiven

theorem owned_return (h : Owned busy held given early) (b : α) :
    Owned busy (held.erase b) given early where
  nodup := h.nodup.erase b
  busyHeld := fun c hc => h.busyHeld c (List.mem_of_mem_erase hc)
  disjoint := fun c hc => h.disjoint c (List.mem_of_mem_erase hc)
  busyGiven := h.busyGiven
  earlyGiven := h.earlyGiven

theorem owned_cancel (h : Owned busy held given early) (hb : b ∈ held)
    (hbusy : ∀ c, busy' c = if c = b then false else busy c) :
    Owned busy' (held.erase b) given early := by
  refine owned_congr (owned_return h b) (fun c hc => ?_)
  have hne : c ≠ b := by
    rintro rfl
    obtain hc | hc := hc
    · exact h.nodup.not_mem_erase hc
    · exact h.disjoint c hb hc
  rw [hbusy, if_neg hne]

theorem owned_release (h : Owned busy held given early) (hb : b ∈ given)
    (hbusy : ∀ c, busy' c = if c = b then false else busy c) :
    Owned busy' held (given.filter (· ≠ b)) (early.filter (· ≠ b)) where
  nodup := h.nodup
  busyHeld := fun c hc => by
    have hne : c ≠ b := fun hcb => h.disjoint c hc (hcb ▸ hb)
    rw [hbusy, if_neg hne]
    exact h.busyHeld c hc
  disjoint := fun c hc hg => h.disjoint c hc (List.mem_filter.mp hg).1
  busyGiven := fun c hc => by
    obtain ⟨hc, hne⟩ := List.mem_filter.mp hc
    rw [hbusy, if_neg (of_decide_eq_true hne)]
    exact (h.busyGiven c hc).imp_right (fun he => List.mem_filter.mpr ⟨he, hne⟩)
  earlyGiven := fun c hc => by
    obtain ⟨hc, hne⟩ := List.mem_filter.mp hc
    exact List.mem_filter.mpr ⟨h.earlyGiven c hc, hne⟩

theorem owned_take (h : Owned busy held given early)
    (hbusy : ∀ c, busy' c = if c = b then true else busy c) : Owned busy' held given early where
  nodup := h.nodup
  busyHeld := fun c hc => by
    rw [hbusy]
    split
    · rfl
    · exact h.busyHeld c hc
  disjoint := h.disjoint
  busyGiven := fun c hc => by
    rw [hbusy]
    split
    · exact .inl rfl
    · exact h.busyGiven c hc
  earlyGiven := h.earlyGiven

end FakeLibc.Lib.Custody

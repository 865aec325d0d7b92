import Mathlib.Data.List.DropRight

namespace FakeLibc.Lib.Names

variable {α : Type*} [DecidableEq α] {sep : α} {s : List α}

/-- The names in a text in which they are separated by `sep`. -/
def names (sep : α) (s : List α) : List (List α) := (s.splitOn sep).filter (fun n => n ≠ [])

/-- The text up to its last separator. -/
def front (sep : α) (s : List α) : List α := s.rdropWhile (fun a => a ≠ sep)

/-- The name that ends where the text ends, if there is one. -/
def last (sep : α) (s : List α) : List α := s.rtakeWhile (fun a => a ≠ sep)

/-- What a limit of `k` leaves of a text in whole names. -/
def kept (sep : α) (k : Nat) (s : List α) : List α := front sep (s.take k)

def unsure (sep : α) (k : Nat) (s : List α) : List α := s.drop (kept sep k s).length

def room (sep : α) (k : Nat) (s t : List α) : List α :=
  (unsure sep k s ++ t).take (k - (kept sep k s).length)

/-- Within the limit the appended text adds its names and no others. -/
def Adds (sep : α) (k : Nat) (s t : List α) : Prop :=
  ∀ n, n ∈ names sep ((s ++ t).take k) ↔ n ∈ names sep s ∨ n ∈ names sep t

/-- A name that is cut or joined stands among the whole ones as well, and so does
what is left of it. -/
structure Spared (sep : α) (k : Nat) (s t : List α) : Prop where
  lost : ∀ n, n ∈ names sep (unsure sep k s) ∨ n ∈ names sep t →
    n ∉ names sep (room sep k s t) → n ∈ names sep (kept sep k s)
  made : ∀ n ∈ names sep (room sep k s t),
    n ∉ names sep (unsure sep k s) → n ∉ names sep t → n ∈ names sep (kept sep k s)

theorem names_append_sep (s t : List α) :
    names sep (s ++ sep :: t) = names sep s ++ names sep t := by
  rw [names, List.splitOn_append_cons_self, List.filter_append, names, names]

theorem names_nil : names sep [] = [] := rfl

theorem names_of_notMem (h : sep ∉ s) (hne : s ≠ []) : names sep s = [s] := by
  simp [names, List.splitOn_eq_singleton h, hne]

theorem front_append_last (sep : α) (s : List α) : front sep s ++ last sep s = s :=
  List.rdropWhile_append_rtakeWhile

theorem front_isPrefix (sep : α) (s : List α) : front sep s <+: s := List.rdropWhile_prefix _ _

theorem notMem_last (sep : α) (s : List α) : sep ∉ last sep s := by
  intro h
  have hne := List.mem_rtakeWhile_imp h
  exact of_decide_eq_true hne rfl

theorem last_eq_nil_iff (s : List α) : last sep s = [] ↔ ∀ a ∈ s.getLast?, a = sep := by
  obtain rfl | ⟨t, a, rfl⟩ := List.eq_nil_or_concat' s
  · simp [last]
  · simp [last, List.rtakeWhile_concat]

theorem front_cases (sep : α) (s : List α) :
    front sep s = [] ∨ ∃ t, front sep s = t ++ [sep] := by
  by_cases hne : front sep s = []
  · exact .inl hne
  · have hnot := List.rdropWhile_last_not (fun a => decide (a ≠ sep)) s hne
    have hlast : (front sep s).getLast hne = sep := by
      by_contra hsep
      exact hnot (decide_eq_true hsep)
    refine .inr ⟨(front sep s).dropLast, ?_⟩
    conv_lhs => rw [← List.dropLast_append_getLast hne, hlast]

theorem names_front_append (s t : List α) :
    names sep (front sep s ++ t) = names sep (front sep s) ++ names sep t := by
  obtain h | ⟨u, h⟩ := front_cases sep s
  · rw [h, names_nil]
    rfl
  · rw [h, List.append_assoc, List.singleton_append, names_append_sep, names_append_sep, names_nil,
      List.append_nil]

section Limit

variable (sep) (k : Nat) (s t : List α)

theorem kept_isPrefix : kept sep k s <+: s := (front_isPrefix sep _).trans (List.take_prefix k s)

theorem length_kept_le : (kept sep k s).length ≤ k :=
  (front_isPrefix sep (s.take k)).length_le.trans (List.length_take_le k s)

theorem kept_append_unsure : kept sep k s ++ unsure sep k s = s := by
  obtain ⟨rest, hrest⟩ := kept_isPrefix sep k s
  have hunsure := congrArg (List.drop (kept sep k s).length) hrest
  rw [List.drop_left] at hunsure
  rw [unsure, ← hunsure, hrest]

theorem take_append_eq : (s ++ t).take k = kept sep k s ++ room sep k s t :=
  calc (s ++ t).take k
      = (kept sep k s ++ (unsure sep k s ++ t)).take k := by
        rw [← List.append_assoc, kept_append_unsure]
    _ = kept sep k s ++ room sep k s t := by
        rw [List.take_append, List.take_of_length_le (length_kept_le sep k s), room]

/-- The names of the text are added, neither more nor less, precisely when every
name that the limit or the joint spoils is spared. -/
theorem adds_iff_spared : Adds sep k s t ↔ Spared sep k s t := by
  have hs : names sep s = names sep (kept sep k s) ++ names sep (unsure sep k s) := by
    rw [kept, ← names_front_append, ← kept, kept_append_unsure]
  have hout : names sep ((s ++ t).take k) =
      names sep (kept sep k s) ++ names sep (room sep k s t) := by
    rw [take_append_eq sep, kept, names_front_append]
  simp only [Adds, hs, hout, List.mem_append]
  constructor
  · intro h
    refine ⟨fun n hn hroom => ?_, fun n hroom hunsure ht => ?_⟩
    · have hin := (h n).mpr (hn.elim (fun hunsure => .inl (.inr hunsure)) .inr)
      exact hin.resolve_right hroom
    · obtain (hkept | hin) | hin := (h n).mp (.inr hroom)
      · exact hkept
      · exact absurd hin hunsure
      · exact absurd hin ht
  · rintro ⟨hlost, hmade⟩ n
    constructor
    · rintro (hkept | hroom)
      · exact .inl (.inl hkept)
      · by_cases hunsure : n ∈ names sep (unsure sep k s)
        · exact .inl (.inr hunsure)
        · by_cases ht : n ∈ names sep t
          · exact .inr ht
          · exact .inl (.inl (hmade n hroom hunsure ht))
    · intro hn
      by_cases hroom : n ∈ names sep (room sep k s t)
      · exact .inr hroom
      · obtain (hkept | hunsure) | ht := hn
        · exact .inl hkept
        · exact .inl (hlost n (.inl hunsure) hroom)
        · exact .inl (hlost n (.inr ht) hroom)

end Limit

end FakeLibc.Lib.Names

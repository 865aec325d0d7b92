import Mathlib.Data.List.Infix
import Mathlib.Data.List.TakeWhile

namespace FakeLibc.Lib.CString

variable {α : Type*} [DecidableEq α] {nul : α}

abbrev Text (nul : α) := { s : List α // nul ∉ s }

omit [DecidableEq α] in
theorem nul_notMem_nil : nul ∉ ([] : List α) := List.not_mem_nil

def empty : Text nul := ⟨[], nul_notMem_nil⟩

/-- The string that starts at the first character of a piece of memory. -/
def cstr (nul : α) (mem : List α) : Text nul :=
  ⟨mem.takeWhile (· ≠ nul), fun h => by simpa using List.mem_takeWhile_imp h⟩

def strlen (s : Text nul) : Nat := s.1.length

def strcpy (dst : List α) (src : Text nul) : List α :=
  src.1 ++ nul :: dst.drop (strlen src + 1)

/-- The index of the first occurrence of `needle`. -/
def strstr (needle : List α) : List α → Option Nat
  | [] => if needle = [] then some 0 else none
  | b :: hay =>
    if needle.isPrefixOf (b :: hay) then some 0 else (strstr needle hay).map (· + 1)

/-- `hay` falls into `pre`, the first occurrence of `needle`, and `post`. -/
structure FirstAt (needle hay pre post : List α) : Prop where
  split : hay = pre ++ (needle ++ post)
  first : ∀ pre' post', hay = pre' ++ (needle ++ post') → pre.length ≤ pre'.length

theorem cstr_append {s : List α} (hs : nul ∉ s) (t : List α) :
    (cstr nul (s ++ t)).1 = s ++ (cstr nul t).1 :=
  List.takeWhile_append_of_pos (fun a ha => decide_eq_true (fun h : a = nul => hs (h ▸ ha)))

theorem cstr_append_nul {s : List α} (hs : nul ∉ s) (t : List α) :
    (cstr nul (s ++ nul :: t)).1 = s := by
  rw [cstr_append hs]
  simp [cstr]

theorem cstr_cons {a : α} (ha : a ≠ nul) (t : List α) :
    (cstr nul (a :: t)).1 = a :: (cstr nul t).1 := by
  simp [cstr, ha]

theorem takeWhile_append_cons {c : α} {l : List α} (h : c ∈ l) :
    l.takeWhile (· ≠ c) ++ c :: (l.dropWhile (· ≠ c)).tail = l := by
  induction l with
  | nil => simp at h
  | cons a l ih =>
    by_cases ha : a = c
    · simp [ha]
    · have hl : c ∈ l := (List.mem_cons.mp h).resolve_left (Ne.symm ha)
      simpa [ha] using ih hl

theorem cstr_append_nul_eq (s t : List α) :
    (cstr nul (s ++ nul :: t)).1 = s.takeWhile (· ≠ nul) := by
  induction s with
  | nil => simp [cstr]
  | cons a s ih =>
    by_cases ha : a = nul
    · simp [cstr, ha]
    · rw [List.cons_append, cstr_cons ha, ih, List.takeWhile_cons_of_pos (by simpa using ha)]

theorem strlen_cstr_append_nul_le (s t : List α) :
    strlen (cstr nul (s ++ nul :: t)) ≤ s.length := by
  rw [strlen, cstr_append_nul_eq]
  exact (List.takeWhile_prefix _).length_le

theorem cstr_append_nul_eq_iff (s t : List α) : (cstr nul (s ++ nul :: t)).1 = s ↔ nul ∉ s := by
  constructor
  · intro h
    rw [← h]
    exact (cstr nul (s ++ nul :: t)).2
  · intro h
    exact cstr_append_nul h t

theorem cstr_strcpy (dst : List α) (src : Text nul) : cstr nul (strcpy dst src) = src :=
  Subtype.ext (cstr_append_nul src.2 _)

omit [DecidableEq α] in
theorem prefix_strcpy_iff (text dst : List α) (src : Text nul) :
    (text ++ [nul] <+: strcpy dst src ∧ strlen src = text.length) ↔ src.1 = text := by
  constructor
  · rintro ⟨⟨rest, h⟩, hlen⟩
    rw [strcpy, List.append_assoc] at h
    exact (List.append_inj_left h hlen.symm).symm
  · rintro rfl
    refine ⟨⟨dst.drop (strlen src + 1), ?_⟩, rfl⟩
    rw [strcpy, List.append_assoc, List.singleton_append]

theorem strstr_isPrefix {needle hay : List α} (h : needle <+: hay) :
    strstr needle hay = some 0 := by
  cases hay with
  | nil => rw [strstr, if_pos (List.prefix_nil.mp h)]
  | cons b hay => rw [strstr, if_pos (List.isPrefixOf_iff_prefix.mpr h)]

theorem strstr_cons_ne {needle hay : List α} {b : α} (h : ¬ needle <+: b :: hay) :
    strstr needle (b :: hay) = (strstr needle hay).map (· + 1) := by
  rw [strstr, if_neg (fun hp => h (List.isPrefixOf_iff_prefix.mp hp))]

omit [DecidableEq α] in
theorem FirstAt.unique {needle hay pre post pre' post' : List α} (h : FirstAt needle hay pre post)
    (h' : FirstAt needle hay pre' post') : pre = pre' ∧ post = post' := by
  have hlen := Nat.le_antisymm (h.first pre' post' h'.split) (h'.first pre post h.split)
  obtain ⟨rfl, hrest⟩ := List.append_inj (h.split.symm.trans h'.split) hlen
  exact ⟨rfl, List.append_cancel_left hrest⟩

omit [DecidableEq α] in
theorem FirstAt.cons {needle hay pre post : List α} {b : α} (h : FirstAt needle hay pre post)
    (hb : ¬ needle <+: b :: hay) : FirstAt needle (b :: hay) (b :: pre) post := by
  refine ⟨congrArg (b :: ·) h.split, fun pre' post' hs => ?_⟩
  cases pre' with
  | nil => exact absurd ⟨post', hs.symm⟩ hb
  | cons c pre' => exact Nat.succ_le_succ (h.first pre' post' (List.cons.inj hs).2)

omit [DecidableEq α] in
theorem FirstAt.of_cons {needle hay pre post : List α} {b c : α}
    (h : FirstAt needle (b :: hay) (c :: pre) post) : FirstAt needle hay pre post := by
  refine ⟨(List.cons.inj h.split).2, fun pre' post' hs => ?_⟩
  exact Nat.le_of_succ_le_succ (h.first (b :: pre') post' (congrArg (b :: ·) hs))

theorem strstr_firstAt {needle hay pre post : List α} (h : FirstAt needle hay pre post) :
    strstr needle hay = some pre.length := by
  induction pre generalizing hay with
  | nil => exact strstr_isPrefix ⟨post, h.split.symm⟩
  | cons b pre ih =>
    obtain ⟨hay, rfl⟩ : ∃ hay', hay = b :: hay' := ⟨_, h.split⟩
    have hb : ¬ needle <+: b :: hay := by
      rintro ⟨post', hs⟩
      exact Nat.not_succ_le_zero _ (h.first [] post' hs.symm)
    rw [strstr_cons_ne hb, ih h.of_cons]
    rfl

theorem exists_firstAt {needle hay : List α} {i : Nat} (h : strstr needle hay = some i) :
    ∃ pre post, FirstAt needle hay pre post ∧ pre.length = i := by
  induction hay generalizing i with
  | nil =>
    rw [strstr, Option.ite_none_right_eq_some] at h
    obtain ⟨rfl, h⟩ := h
    obtain rfl := Option.some.inj h
    exact ⟨[], [], ⟨rfl, fun _ _ _ => Nat.zero_le _⟩, rfl⟩
  | cons b hay ih =>
    by_cases hp : needle <+: b :: hay
    · rw [strstr_isPrefix hp] at h
      obtain rfl := Option.some.inj h
      obtain ⟨post, hpost⟩ := hp
      exact ⟨[], post, ⟨hpost.symm, fun _ _ _ => Nat.zero_le _⟩, rfl⟩
    · rw [strstr_cons_ne hp] at h
      obtain ⟨j, hj, rfl⟩ := Option.map_eq_some_iff.mp h
      obtain ⟨pre, post, hat, rfl⟩ := ih hj
      exact ⟨b :: pre, post, hat.cons hp, rfl⟩

theorem strstr_isSome_iff (needle hay : List α) : (strstr needle hay).isSome ↔ needle <:+: hay := by
  induction hay with
  | nil => simp [strstr]
  | cons b hay ih =>
    rw [List.infix_cons_iff]
    by_cases hp : needle <+: b :: hay
    · simp [strstr_isPrefix hp, hp]
    · rw [strstr_cons_ne hp, Option.isSome_map, ih]
      simp [hp]

/-- Where a needle without `nul` is first found in a string is where it first
stands in the memory, unless a `nul` comes before it there. -/
theorem strstr_cstr_eq_some_iff {needle : List α} (hn : nul ∉ needle) (mem t : List α) (i : Nat) :
    strstr needle (cstr nul (mem ++ nul :: t)).1 = some i ↔
      ∃ pre post, FirstAt needle mem pre post ∧ nul ∉ pre ∧ pre.length = i := by
  have hcut : (cstr nul (mem ++ nul :: t)).1 ++ mem.dropWhile (· ≠ nul) = mem := by
    rw [cstr_append_nul_eq, List.takeWhile_append_dropWhile]
  constructor
  · intro h
    obtain ⟨pre, post, hat, rfl⟩ := exists_firstAt h
    have hnul : nul ∉ pre := by
      intro hmem
      apply (cstr nul (mem ++ nul :: t)).2
      rw [hat.split]
      exact List.mem_append_left _ hmem
    refine ⟨pre, post ++ mem.dropWhile (· ≠ nul), ⟨?_, fun pre' post' hs => ?_⟩, hnul, rfl⟩
    · rw [hat.split] at hcut
      simpa using hcut.symm
    · by_contra hlt
      -- an earlier occurrence would lie within the string
      have hocc : pre' ++ needle <+: mem := ⟨post', by rw [hs, List.append_assoc]⟩
      have hstr : (cstr nul (mem ++ nul :: t)).1 <+: mem := ⟨_, hcut⟩
      have hpre : pre' ++ needle <+: (cstr nul (mem ++ nul :: t)).1 := by
        apply List.prefix_of_prefix_length_le hocc hstr
        rw [hat.split]
        simp only [List.length_append]
        omega
      obtain ⟨rest, hrest⟩ := hpre
      exact hlt (hat.first pre' rest (by rw [← hrest, List.append_assoc]))
  · rintro ⟨pre, post, hat, hnul, rfl⟩
    have hstr : (cstr nul (mem ++ nul :: t)).1 =
        pre ++ (needle ++ (cstr nul (post ++ nul :: t)).1) := by
      rw [hat.split, List.append_assoc, cstr_append hnul, List.append_assoc, cstr_append hn]
    refine strstr_firstAt ⟨hstr, fun pre' post' hs => ?_⟩
    apply hat.first pre' (post' ++ mem.dropWhile (· ≠ nul))
    rw [hs, List.append_assoc, List.append_assoc] at hcut
    exact hcut.symm

end FakeLibc.Lib.CString

import FakeLibc.Lib.CString

namespace FakeLibc.StringCopies

open FakeLibc.Lib.CString

abbrev Str := Text (0 : UInt8)

/-- The memory from `dst` on, and the offsets that were written. -/
structure Dest where
  bytes : Nat → UInt8
  written : List Nat

def Dest.write (dest : Dest) (d : Nat) (b : UInt8) : Dest :=
  ⟨Function.update dest.bytes d b, d :: dest.written⟩

/-- `while (--n != 0)`, with the count that is left after the decrement. It stops
early behind the nul. -/
def copyLoop : Nat → List UInt8 → Nat → Dest → Nat × List UInt8 × Nat × Dest
  | 0, s, d, dest => (0, s, d, dest)
  | n + 1, [], d, dest => (n + 1, [], d + 1, dest.write d 0)
  | n + 1, b :: s, d, dest => copyLoop n s (d + 1) (dest.write d b)

/-- `s` is as far from `src` as `d` is from `dst`, until the rest of `src` is
traversed. -/
def strlcpy (bytes : Nat → UInt8) (src : Str) (siz : Nat) : Dest × Nat :=
  let (n, s, d, dest) :=
    if siz ≠ 0 then copyLoop (siz - 1) src.1 0 ⟨bytes, []⟩ else (0, src.1, 0, ⟨bytes, []⟩)
  if n = 0 then (if siz ≠ 0 then dest.write d 0 else dest, d + s.length)
  else (dest, d - 1)

/-- `while (n-- != 0 && *d != '\0') d++` -/
def findEnd (bytes : Nat → UInt8) : Nat → Nat → Nat
  | 0, d => d
  | n + 1, d => if bytes d ≠ 0 then findEnd bytes n (d + 1) else d

/-- `while (*s != '\0')`, and the nul behind it. -/
def appendLoop : List UInt8 → Nat → Nat → Dest → Dest
  | [], _, d, dest => dest.write d 0
  | b :: s, n, d, dest =>
    if n ≠ 1 then appendLoop s (n - 1) (d + 1) (dest.write d b) else appendLoop s n d dest

def strlcat (bytes : Nat → UInt8) (src : Str) (siz : Nat) : Dest × Nat :=
  let dlen := findEnd bytes siz 0
  let n := siz - dlen
  if n = 0 then (⟨bytes, []⟩, dlen + strlen src)
  else (appendLoop src.1 n dlen ⟨bytes, []⟩, dlen + strlen src)

inductive Outcome
  | stopped (dest : Dest)
  | returned (dest : Dest) (ret : Nat)

def strlcpyChk (bytes : Nat → UInt8) (src : Str) (size _c : Nat) : Outcome :=
  .returned (strlcpy bytes src size).1 (strlcpy bytes src size).2

def strlcatChk (bytes : Nat → UInt8) (src : Str) (size _c : Nat) : Outcome :=
  .returned (strlcat bytes src size).1 (strlcat bytes src size).2

/-- Either nothing was written and the program is stopped, or all is as without the
check and within the object of `c` bytes. -/
def Respects (c : Nat) (unchecked : Dest × Nat) : Outcome → Prop
  | .stopped dest => dest.written = []
  | .returned dest ret =>
    (∀ i ∈ dest.written, i < c) ∧ dest.bytes = unchecked.1.bytes ∧ ret = unchecked.2

/-- A string of this length starts at `dst`. -/
def Ends (bytes : Nat → UInt8) (dlen : Nat) : Prop := bytes dlen = 0 ∧ ∀ i < dlen, bytes i ≠ 0

def Dest.writes (dest : Dest) (d : Nat) : List UInt8 → Dest
  | [] => dest
  | b :: text => (dest.write d b).writes (d + 1) text

theorem writes_concat (dest : Dest) (d : Nat) (text : List UInt8) (b : UInt8) :
    dest.writes d (text ++ [b]) = (dest.writes d text).write (d + text.length) b := by
  induction text generalizing dest d with
  | nil => rfl
  | cons a text ih =>
    have hlength : d + (a :: text).length = d + 1 + text.length := by
      rw [List.length_cons]
      omega
    rw [hlength]
    exact ih (dest.write d a) (d + 1)

theorem mem_written_writes (dest : Dest) (d : Nat) (text : List UInt8) (i : Nat) :
    i ∈ (dest.writes d text).written ↔
      i ∈ dest.written ∨ (d ≤ i ∧ i < d + text.length) := by
  induction text generalizing dest d with
  | nil =>
    have hnone : ¬ (d ≤ i ∧ i < d + 0) := by omega
    exact (or_iff_left hnone).symm
  | cons b text ih =>
    have hfirst : (d ≤ i ∧ i < d + (b :: text).length) ↔
        i = d ∨ (d + 1 ≤ i ∧ i < d + 1 + text.length) := by
      rw [List.length_cons]
      omega
    rw [Dest.writes, ih, Dest.write, List.mem_cons, hfirst, or_comm (a := i = d), or_assoc]

theorem forall_written_iff (bytes : Nat → UInt8) (d c : Nat) (text : List UInt8) :
    (∀ i ∈ ((⟨bytes, []⟩ : Dest).writes d (text ++ [0])).written, i < c) ↔
      d + text.length < c := by
  constructor
  · intro h
    apply h
    rw [mem_written_writes, List.length_append, List.length_singleton]
    omega
  · intro hlt i hi
    rw [mem_written_writes, List.length_append, List.length_singleton] at hi
    obtain hi | hi := hi
    · exact absurd hi List.not_mem_nil
    · omega

section Loops

variable {n : Nat} {s : List UInt8}

theorem copyLoop_room (h : s.length < n) (d : Nat) (dest : Dest) :
    copyLoop n s d dest =
      (n - s.length, [], d + s.length + 1, dest.writes d (s ++ [0])) := by
  induction n generalizing s d dest with
  | zero => exact absurd h (Nat.not_lt_zero _)
  | succ n ih =>
    cases s with
    | nil => rfl
    | cons b s =>
      rw [copyLoop, ih (Nat.lt_of_succ_lt_succ h), List.length_cons, Nat.add_sub_add_right,
        Nat.add_assoc d 1, Nat.add_comm 1]
      rfl

theorem copyLoop_full (h : n ≤ s.length) (d : Nat) (dest : Dest) :
    copyLoop n s d dest = (0, s.drop n, d + n, dest.writes d (s.take n)) := by
  induction n generalizing s d dest with
  | zero => rfl
  | succ n ih =>
    cases s with
    | nil => exact absurd h (Nat.not_succ_le_zero n)
    | cons b s =>
      rw [copyLoop, ih (Nat.le_of_succ_le_succ h), Nat.add_assoc d 1, Nat.add_comm 1]
      rfl

theorem appendLoop_eq (n : Nat) (s : List UInt8) (d : Nat) (dest : Dest) :
    appendLoop s (n + 1) d dest = dest.writes d (s.take n ++ [0]) := by
  induction s generalizing n d dest with
  | nil => rw [List.take_nil]; rfl
  | cons b s ih =>
    cases n with
    | zero =>
      rw [appendLoop, if_neg (fun h => h rfl), ih 0]
      rfl
    | succ n =>
      rw [appendLoop, if_pos (by omega), Nat.add_sub_cancel, ih n]
      rfl

theorem findEnd_eq {bytes : Nat → UInt8} {dlen : Nat} (hend : Ends bytes dlen) {d : Nat}
    (hd : d ≤ dlen) (n : Nat) : findEnd bytes n d = min dlen (d + n) := by
  induction n generalizing d with
  | zero => exact (Nat.min_eq_right hd).symm
  | succ n ih =>
    by_cases he : d = dlen
    · subst d
      rw [findEnd, if_neg (fun h => h hend.1), Nat.min_eq_left (Nat.le_add_right _ _)]
    · have hlt : d < dlen := by omega
      rw [findEnd, if_pos (hend.2 d hlt), ih hlt, Nat.succ_add_eq_add_succ]

end Loops

section Functions

variable (bytes : Nat → UInt8) (src : Str) (siz : Nat)

theorem strlcpy_zero : strlcpy bytes src 0 = (⟨bytes, []⟩, strlen src) := by
  simp [strlcpy, strlen]

theorem strlcpy_succ : strlcpy bytes src (siz + 1) =
    ((⟨bytes, []⟩ : Dest).writes 0 (src.1.take siz ++ [0]), strlen src) := by
  rw [strlcpy, if_pos (Nat.succ_ne_zero siz), Nat.add_sub_cancel]
  by_cases hroom : src.1.length < siz
  · have hn : siz - src.1.length ≠ 0 := by omega
    rw [copyLoop_room hroom]
    simp only [if_neg hn, List.take_of_length_le (Nat.le_of_lt hroom), Nat.zero_add,
      Nat.add_sub_cancel, strlen]
  · have hsiz : siz ≤ src.1.length := Nat.not_lt.mp hroom
    rw [copyLoop_full hsiz]
    simp only [if_true, if_pos (Nat.succ_ne_zero siz), writes_concat, List.length_take,
      Nat.min_eq_left hsiz, Nat.zero_add, List.length_drop, strlen, Nat.add_sub_cancel' hsiz]

theorem strlcat_eq {dlen : Nat} (hend : Ends bytes dlen) : strlcat bytes src siz =
    if siz ≤ dlen then (⟨bytes, []⟩, siz + strlen src)
    else ((⟨bytes, []⟩ : Dest).writes dlen (src.1.take (siz - dlen - 1) ++ [0]),
      dlen + strlen src) := by
  rw [strlcat, findEnd_eq hend (Nat.zero_le dlen), Nat.zero_add]
  by_cases hsiz : siz ≤ dlen
  · rw [if_pos hsiz, Nat.min_eq_right hsiz]
    simp only [Nat.sub_self, if_true]
  · have hlt : dlen < siz := Nat.not_le.mp hsiz
    have hn : siz - dlen = siz - dlen - 1 + 1 := by omega
    rw [if_neg hsiz, Nat.min_eq_left (Nat.le_of_lt hlt)]
    simp only [if_neg (Nat.sub_ne_zero_of_lt hlt)]
    rw [hn, appendLoop_eq, Nat.add_sub_cancel]

end Functions

section Fortified

variable {bytes : Nat → UInt8} {src : Str} {size c : Nat}

theorem respects_strlcpyChk_iff :
    Respects c (strlcpy bytes src size) (strlcpyChk bytes src size c) ↔
      size = 0 ∨ min (size - 1) (strlen src) < c := by
  rw [strlcpyChk, Respects, and_iff_left ⟨rfl, rfl⟩]
  cases size with
  | zero =>
    rw [strlcpy_zero]
    exact iff_of_true (fun i hi => absurd hi List.not_mem_nil) (.inl rfl)
  | succ size =>
    rw [strlcpy_succ, forall_written_iff, or_iff_right (Nat.succ_ne_zero size), List.length_take,
      Nat.zero_add, Nat.add_sub_cancel, strlen]

theorem respects_strlcatChk_iff {dlen : Nat} (hend : Ends bytes dlen) :
    Respects c (strlcat bytes src size) (strlcatChk bytes src size c) ↔
      size ≤ dlen ∨ dlen + min (size - dlen - 1) (strlen src) < c := by
  rw [strlcatChk, Respects, and_iff_left ⟨rfl, rfl⟩, strlcat_eq bytes src size hend]
  by_cases hsize : size ≤ dlen
  · rw [if_pos hsize]
    exact iff_of_true (fun i hi => absurd hi List.not_mem_nil) (.inl hsize)
  · rw [if_neg hsize, forall_written_iff, or_iff_right hsize, List.length_take, strlen]

end Fortified

/-- The object is respected precisely when nothing is copied or the last byte of
the copy, which is its nul, lies in the object. -/
theorem respects_iff_fits (bytes : Nat → UInt8) (src : Str) (size c : Nat) :
    (Respects c (strlcpy bytes src size) (strlcpyChk bytes src size c) ↔
        size = 0 ∨ min (size - 1) (strlen src) < c) ∧
      ∀ dlen, Ends bytes dlen → dlen < c →
        (Respects c (strlcat bytes src size) (strlcatChk bytes src size c) ↔
          size ≤ dlen ∨ dlen + min (size - dlen - 1) (strlen src) < c) :=
  ⟨respects_strlcpyChk_iff, fun _ hend _ => respects_strlcatChk_iff hend⟩

theorem ends_zero : Ends (fun _ => 0) 0 := ⟨rfl, fun _ h => absurd h (Nat.not_lt_zero _)⟩

/-- A text of two bytes, for an empty string in an object of four. -/
theorem respects_iff_fits_two :
    (Respects 4 (strlcpy (fun _ => 0) ⟨[97, 98], by decide⟩ 8)
        (strlcpyChk (fun _ => 0) ⟨[97, 98], by decide⟩ 8 4) ↔
      8 = 0 ∨ min (8 - 1) (strlen (⟨[97, 98], by decide⟩ : Str)) < 4) ∧
    (Respects 4 (strlcat (fun _ => 0) ⟨[97, 98], by decide⟩ 8)
        (strlcatChk (fun _ => 0) ⟨[97, 98], by decide⟩ 8 4) ↔
      8 ≤ 0 ∨ 0 + min (8 - 0 - 1) (strlen (⟨[97, 98], by decide⟩ : Str)) < 4) :=
  ⟨(respects_iff_fits _ _ 8 4).1, (respects_iff_fits _ _ 8 4).2 0 ends_zero (by decide)⟩

/-- Five bytes and their nul are written into an object of four, for which the
argument was eight. -/
theorem not_respects_five :
    ¬ Respects 4 (strlcpy (fun _ => 0) ⟨[97, 98, 99, 100, 101], by decide⟩ 8)
        (strlcpyChk (fun _ => 0) ⟨[97, 98, 99, 100, 101], by decide⟩ 8 4) ∧
      ¬ Respects 4 (strlcat (fun _ => 0) ⟨[97, 98, 99, 100, 101], by decide⟩ 8)
        (strlcatChk (fun _ => 0) ⟨[97, 98, 99, 100, 101], by decide⟩ 8 4) := by
  rw [respects_strlcpyChk_iff, respects_strlcatChk_iff ends_zero]
  decide

end FakeLibc.StringCopies

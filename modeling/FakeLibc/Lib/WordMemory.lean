import Mathlib.Data.List.Basic
import Mathlib.Algebra.Group.Nat.Defs

namespace FakeLibc.Lib.WordMemory

abbrev Word := BitVec 32

/-- A memory of words. Its cells are at the addresses that four divides. -/
abbrev Memory := Word → Word

def Aligned (a : Word) : Prop := a.toNat % 4 = 0

instance (a : Word) : Decidable (Aligned a) := inferInstanceAs (Decidable (_ = _))

def cell (a : Word) (i : Nat) : Word := a + BitVec.ofNat 32 (4 * i)

/-- `x` is among the `n` words from `a` on. Addresses wrap around. -/
def Inside (a : Word) (n : Nat) (x : Word) : Prop := (x - a).toNat < 4 * n

instance (a : Word) (n : Nat) (x : Word) : Decidable (Inside a n x) :=
  inferInstanceAs (Decidable (_ < _))

def below (a : Word) (n : Nat) : Word := a - BitVec.ofNat 32 (4 * n)

def store (m : Memory) (a : Word) (ws : List Word) : Memory := fun x =>
  if (x - a).toNat % 4 = 0 then (ws[(x - a).toNat / 4]?).getD (m x) else m x

def Apart (a : Word) (n : Nat) (b : Word) (k : Nat) : Prop := ∀ x, Inside a n x → ¬ Inside b k x

@[simp] theorem cell_zero (a : Word) : cell a 0 = a := by
  simp [cell]

theorem cell_cell (a : Word) (i j : Nat) : cell (cell a i) j = cell a (i + j) := by
  unfold cell
  rw [BitVec.add_assoc, ← BitVec.ofNat_add, Nat.mul_add]

theorem toNat_cell_sub (a : Word) {i : Nat} (hi : i < 2 ^ 30) : (cell a i - a).toNat = 4 * i := by
  have h : cell a i - a = BitVec.ofNat 32 (4 * i) := by
    rw [cell, BitVec.add_comm, BitVec.add_sub_cancel]
  rw [h, BitVec.toNat_ofNat, Nat.mod_eq_of_lt (by omega)]

theorem toNat_cell_sub_cell (a : Word) {i j : Nat} (hi : i < 2 ^ 30) (hj : j ≤ 2 ^ 30) :
    (cell a i - cell a j).toNat = if j ≤ i then 4 * (i - j) else 2 ^ 32 - 4 * (j - i) := by
  by_cases hij : j ≤ i
  · have h := toNat_cell_sub (cell a j) (i := i - j) (by omega)
    rw [cell_cell, Nat.add_sub_cancel' hij] at h
    rw [h, if_pos hij]
  · rw [if_neg hij, cell, cell, BitVec.toNat_sub, BitVec.toNat_add, BitVec.toNat_add,
      BitVec.toNat_ofNat, BitVec.toNat_ofNat]
    omega

theorem aligned_cell {a : Word} (h : Aligned a) (i : Nat) : Aligned (cell a i) := by
  unfold Aligned cell at *
  rw [BitVec.toNat_add, BitVec.toNat_ofNat]
  omega

theorem cell_below (a : Word) (n : Nat) : cell (below a n) n = a :=
  BitVec.sub_add_cancel a _

theorem below_below (a : Word) (i j : Nat) : below (below a i) j = below a (i + j) := by
  unfold below
  rw [BitVec.sub_sub, ← BitVec.ofNat_add, Nat.mul_add]

theorem aligned_below {a : Word} (h : Aligned a) (n : Nat) : Aligned (below a n) := by
  unfold Aligned below at *
  rw [BitVec.toNat_sub, BitVec.toNat_ofNat]
  omega

theorem inside_cell (a : Word) {i n : Nat} (hi : i < n) (hn : n ≤ 2 ^ 30) :
    Inside a n (cell a i) := by
  rw [Inside, toNat_cell_sub a (by omega)]
  omega

theorem Inside.mono {a x : Word} {n k : Nat} (h : Inside a n x) (hnk : n ≤ k) : Inside a k x := by
  unfold Inside at *
  omega

theorem Inside.of_part {a x : Word} {i n k : Nat} (h : Inside (cell a i) n x) (hk : i + n ≤ k)
    (hb : k ≤ 2 ^ 30) : Inside a k x := by
  unfold Inside cell at *
  rw [BitVec.toNat_sub] at *
  rw [BitVec.toNat_add, BitVec.toNat_ofNat] at h
  omega

theorem not_inside_below {a : Word} {n i : Nat} (h : n + i < 2 ^ 30) :
    ¬ Inside (below a n) n (cell a i) := by
  have hc : cell a i = cell (below a n) (n + i) := by rw [← cell_cell, cell_below]
  rw [hc, Inside, toNat_cell_sub _ h]
  omega

theorem Inside.of_below {a x : Word} {i n k : Nat} (h : Inside (below a (i + n)) n x)
    (hk : i + n ≤ k) (hb : k ≤ 2 ^ 30) : Inside (below a k) k x := by
  have hc : below a (i + n) = cell (below a k) (k - (i + n)) := by
    have hb : below a k = below (below a (i + n)) (k - (i + n)) := by
      rw [below_below, Nat.add_sub_cancel' hk]
    rw [hb, cell_below]
  rw [hc] at h
  exact h.of_part (by omega) hb

theorem store_outside {m : Memory} {a x : Word} {ws : List Word}
    (h : ¬ Inside a ws.length x) : store m a ws x = m x := by
  unfold Inside at h
  unfold store
  split
  · rw [List.getElem?_eq_none (by omega), Option.getD_none]
  · rfl

theorem store_cell (m : Memory) (a : Word) (ws : List Word) {j k : Nat}
    (hk : k < 2 ^ 30) (hj : j + ws.length ≤ 2 ^ 30) :
    store m (cell a j) ws (cell a k) =
      if j ≤ k then (ws[k - j]?).getD (m (cell a k)) else m (cell a k) := by
  have hd := toNat_cell_sub_cell a hk (show j ≤ 2 ^ 30 by omega)
  unfold store
  rw [hd]
  by_cases hjk : j ≤ k
  · simp only [if_pos hjk]
    rw [if_pos (by omega), Nat.mul_div_cancel_left _ (by omega)]
  · simp only [if_neg hjk]
    have hlen : ws.length ≤ (2 ^ 32 - 4 * (k.succ + (j - k.succ) - k)) / 4 := by omega
    split
    · rw [List.getElem?_eq_none (by omega), Option.getD_none]
    · rfl

theorem store_at_cell (m : Memory) (a : Word) (ws : List Word) {i : Nat} (hi : i < ws.length)
    (hw : ws.length ≤ 2 ^ 30) : store m a ws (cell a i) = ws[i] := by
  have h := store_cell m a ws (j := 0) (k := i) (by omega) (by omega)
  rw [cell_zero] at h
  rw [h, if_pos (Nat.zero_le i), Nat.sub_zero, List.getElem?_eq_getElem hi, Option.getD_some]

end FakeLibc.Lib.WordMemory

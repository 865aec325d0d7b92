import Mathlib.Data.List.Basic
import Mathlib.Data.List.GetD

namespace FakeLibc.Lib.Words

variable {α β : Type*}

/-- Words of one size that are kept in memory as cells of type `β`. -/
structure Codec (α β : Type*) where
  size : Nat
  encode : α → List β
  decode : List β → α
  size_pos : 0 < size
  length_encode : ∀ a, (encode a).length = size
  decode_encode : ∀ a, decode (encode a) = a

def slice (mem : List β) (start len : Nat) : List β := (mem.drop start).take len

/-- Copy `src` over the cells of `dst` from `start` on. It is `none` where a
cell beyond the end would be written. -/
def memcpy (dst : List β) (start : Nat) (src : List β) : Option (List β) :=
  if start + src.length ≤ dst.length then
    some (dst.take start ++ src ++ dst.drop (start + src.length))
  else none

def load (mem : List β) (start len : Nat) : Option (List β) :=
  if start + len ≤ mem.length then some (slice mem start len) else none

namespace Codec

variable (c : Codec α β)

def word (mem : List β) (i : Nat) : α := c.decode (slice mem (c.size * i) c.size)

def words (mem : List β) (n : Nat) : List α := (List.range n).map (c.word mem)

def pack (l : List α) : List β := l.flatMap c.encode

@[simp] theorem length_words (mem : List β) (n : Nat) : (c.words mem n).length = n := by
  simp [words]

@[simp] theorem pack_nil : c.pack [] = [] := rfl

@[simp] theorem pack_cons (a : α) (l : List α) : c.pack (a :: l) = c.encode a ++ c.pack l := rfl

theorem pack_append (l m : List α) : c.pack (l ++ m) = c.pack l ++ c.pack m :=
  List.flatMap_append

@[simp] theorem length_pack (l : List α) : (c.pack l).length = c.size * l.length := by
  induction l with
  | nil => rfl
  | cons a l ih => simp [ih, c.length_encode, Nat.mul_succ, Nat.add_comm]

theorem word_append_zero {pre : List β} (hpre : pre.length = c.size) (mem : List β) :
    c.word (pre ++ mem) 0 = c.decode pre := by
  have hs : slice (pre ++ mem) (c.size * 0) c.size = pre := by
    rw [slice, Nat.mul_zero, List.drop_zero, ← hpre, List.take_left]
  rw [word, hs]

theorem word_append_succ {pre : List β} (hpre : pre.length = c.size) (mem : List β) (i : Nat) :
    c.word (pre ++ mem) (i + 1) = c.word mem i := by
  have hd : (pre ++ mem).drop (c.size * (i + 1)) = mem.drop (c.size * i) := by
    rw [Nat.mul_succ, Nat.add_comm, ← hpre, List.drop_length_add_append]
  rw [word, word, slice, slice, hd]

theorem words_zero (mem : List β) : c.words mem 0 = [] := rfl

theorem words_append_succ {pre : List β} (hpre : pre.length = c.size) (mem : List β) (n : Nat) :
    c.words (pre ++ mem) (n + 1) = c.decode pre :: c.words mem n := by
  rw [words, List.range_succ_eq_map, List.map_cons, List.map_map, c.word_append_zero hpre]
  congr 1
  exact List.map_congr_left (fun i _ => c.word_append_succ hpre mem i)

theorem words_pack_append (l : List α) (mem : List β) :
    c.words (c.pack l ++ mem) l.length = l := by
  induction l with
  | nil => exact c.words_zero _
  | cons a l ih =>
    rw [pack_cons, List.append_assoc, List.length_cons, c.words_append_succ (c.length_encode a),
      c.decode_encode, ih]

end Codec

theorem memcpy_eq {dst src : List β} {start : Nat} (h : start + src.length ≤ dst.length) :
    memcpy dst start src = some (dst.take start ++ src ++ dst.drop (start + src.length)) :=
  if_pos h

theorem memcpy_eq_none {dst src : List β} {start : Nat} (h : ¬ start + src.length ≤ dst.length) :
    memcpy dst start src = none := if_neg h

theorem memcpy_some {dst src mem : List β} {start : Nat} (h : memcpy dst start src = some mem) :
    start + src.length ≤ dst.length ∧ mem.length = dst.length ∧
      mem.take start = dst.take start := by
  obtain ⟨hle, h⟩ := Option.ite_none_right_eq_some.mp h
  obtain rfl := Option.some.inj h
  have hstart : (dst.take start).length = start := List.length_take_of_le (by omega)
  refine ⟨hle, ?_, ?_⟩
  · simp only [List.length_append, hstart, List.length_drop]
    omega
  · rw [List.append_assoc, List.take_left' hstart]

theorem load_eq {mem : List β} {start len : Nat} (h : start + len ≤ mem.length) :
    load mem start len = some (slice mem start len) := if_pos h

theorem memcpy_start {dst src : List β} (h : src.length ≤ dst.length) :
    memcpy dst 0 src = some (src ++ dst.drop src.length) := by
  rw [memcpy_eq (by omega), List.take_zero, List.nil_append, Nat.zero_add]

theorem load_start (mem rest : List β) : load (mem ++ rest) 0 mem.length = some mem := by
  rw [load_eq (by rw [List.length_append]; omega), slice, List.drop_zero, List.take_left]

theorem memcpy_memcpy (dst src src' : List β) (h : dst.length = src.length + src'.length) :
    (memcpy dst 0 src).bind (fun mem => memcpy mem src.length src') = some (src ++ src') := by
  rw [memcpy_start (by omega), Option.bind_some, memcpy_eq (by simp; omega)]
  have hd : (src ++ dst.drop src.length).drop (src.length + src'.length) = [] := by
    rw [List.drop_eq_nil_iff]
    simp
    omega
  rw [hd, List.append_nil, List.take_left]

theorem memcpy_all {dst src : List β} (h : dst.length = src.length) :
    memcpy dst 0 src = some src := by
  rw [memcpy_start (Nat.le_of_eq h.symm), ← h, List.drop_length, List.append_nil]

end FakeLibc.Lib.Words

import Mathlib.Data.List.Count
import Mathlib.Logic.Function.Basic

namespace FakeLibc.Lib.RefCount

/-- A container of counted objects, which are numbered as they are made.
`refs` counts the references that the container has on each. -/
structure Pool where
  list : List Nat
  refs : Nat → Nat
  next : Nat

def Pool.empty : Pool := ⟨[], fun _ => 0, 0⟩

def incRef (refs : Nat → Nat) (b : Nat) : Nat → Nat := Function.update refs b (refs b + 1)

def decRef (refs : Nat → Nat) (b : Nat) : Nat → Nat := Function.update refs b (refs b - 1)

def Pool.push (p : Pool) : Pool := ⟨p.list ++ [p.next], incRef p.refs p.next, p.next + 1⟩

def Pool.clear (p : Pool) : Pool := { p with list := [], refs := p.list.foldl decRef p.refs }

/-- Make `n` objects, of which only `k` come up well: the next one is given up
again, and the loop ends. -/
def Pool.fill (p : Pool) : Nat → Nat → Pool
  | 0, _ => p
  | _ + 1, 0 => { p with refs := decRef (incRef p.refs p.next) p.next, next := p.next + 1 }
  | n + 1, k + 1 => p.push.fill n k

/-- One reference for each place in the list, and no object from the future. -/
structure Pool.Sound (p : Pool) : Prop where
  counts : ∀ b, p.refs b = p.list.count b
  old : ∀ b ∈ p.list, b < p.next

variable {p : Pool} {b : Nat}

theorem sound_empty : Pool.empty.Sound := ⟨fun _ => rfl, by simp [Pool.empty]⟩

theorem Pool.Sound.pos_iff (hp : p.Sound) : 0 < p.refs b ↔ b ∈ p.list := by
  rw [hp.counts, List.count_pos_iff]

theorem Pool.Sound.push (hp : p.Sound) : p.push.Sound := by
  constructor
  · intro b
    by_cases hb : b = p.next
    · simp [Pool.push, incRef, hb, hp.counts]
    · simp [Pool.push, incRef, hb, hp.counts, Ne.symm hb]
  · intro b hb
    obtain hb | hb := List.mem_append.mp hb
    · exact Nat.lt_succ_of_lt (hp.old b hb)
    · rw [List.mem_singleton.mp hb]
      exact Nat.lt_succ_self _

theorem foldl_decRef (l : List Nat) (refs : Nat → Nat) (b : Nat) :
    l.foldl decRef refs b = refs b - l.count b := by
  induction l generalizing refs with
  | nil => rfl
  | cons c l ih =>
    rw [List.foldl_cons, ih]
    by_cases hb : b = c
    · simp only [decRef, hb, Function.update_self, List.count_cons_self]
      omega
    · simp [decRef, hb, Ne.symm hb]

theorem Pool.Sound.refs_clear (hp : p.Sound) (b : Nat) : p.clear.refs b = 0 := by
  have h : p.clear.refs b = p.refs b - p.list.count b := foldl_decRef p.list p.refs b
  rw [h, hp.counts, Nat.sub_self]

theorem Pool.Sound.clear (hp : p.Sound) : p.clear.Sound :=
  ⟨fun b => hp.refs_clear b, by simp [Pool.clear]⟩

theorem decRef_incRef (refs : Nat → Nat) (b : Nat) : decRef (incRef refs b) b = refs := by
  funext c
  by_cases hc : c = b <;> simp [decRef, incRef, hc]

theorem Pool.Sound.fill (hp : p.Sound) (n k : Nat) : (p.fill n k).Sound := by
  induction n generalizing p k with
  | zero => exact hp
  | succ n ih =>
    cases k with
    | zero =>
      refine ⟨fun b => ?_, fun b hb => Nat.lt_succ_of_lt (hp.old b hb)⟩
      rw [Pool.fill, decRef_incRef]
      exact hp.counts b
    | succ k => exact ih hp.push k

theorem next_le_fill (p : Pool) (n k : Nat) : p.next ≤ (p.fill n k).next := by
  induction n generalizing p k with
  | zero => exact Nat.le_refl _
  | succ n ih =>
    cases k with
    | zero => exact Nat.le_succ _
    | succ k => exact Nat.le_of_succ_le (ih p.push k)

theorem mem_fill {n k : Nat} (h : b ∈ (p.fill n k).list) : b ∈ p.list ∨ p.next ≤ b := by
  induction n generalizing p k with
  | zero => exact .inl h
  | succ n ih =>
    cases k with
    | zero => exact .inl h
    | succ k =>
      obtain h | h := ih h
      · obtain h | h := List.mem_append.mp h
        · exact .inl h
        · exact .inr (Nat.le_of_eq (List.mem_singleton.mp h).symm)
      · exact .inr (Nat.le_of_succ_le h)

theorem list_fill (n k : Nat) : (p.fill n k).list = p.list ++ List.range' p.next (min n k) := by
  induction n generalizing p k with
  | zero => simp [Pool.fill]
  | succ n ih =>
    cases k with
    | zero => simp [Pool.fill]
    | succ k =>
      rw [Pool.fill, ih, Nat.succ_min_succ, List.range'_succ]
      simp [Pool.push]

theorem Pool.Sound.refs_fill_clear (hp : p.Sound) (hb : b ∈ p.list) (n k : Nat) :
    (p.clear.fill n k).refs b = 0 := by
  rw [(hp.clear.fill n k).counts, List.count_eq_zero]
  intro h
  obtain h | h := mem_fill h
  · simp [Pool.clear] at h
  · exact absurd (hp.old b hb) (Nat.not_lt.mpr h)

end FakeLibc.Lib.RefCount

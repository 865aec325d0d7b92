import Mathlib.Data.Option.Basic
import Mathlib.Logic.Function.Basic

namespace FakeLibc.Lib.Boxed

/-- Values that lie in blocks, and the block that each name refers to. Blocks
are numbered as they are made. -/
structure Store (N V : Type*) where
  ref : N → Option Nat
  block : Nat → Option V
  next : Nat

namespace Store

variable {N V : Type*}

def empty : Store N V := ⟨fun _ => none, fun _ => none, 0⟩

def value (s : Store N V) (n : N) : Option V := (s.ref n).bind s.block

def put (s : Store N V) (b : Nat) (v : Option V) : Store N V :=
  { s with block := Function.update s.block b v }

/-- No two names share a block, and every block that was not given up is that
of a name. -/
structure Tidy (s : Store N V) : Prop where
  old : ∀ n b, s.ref n = some b → b < s.next
  alone : ∀ m n b, s.ref m = some b → s.ref n = some b → m = n
  owned : ∀ b, (s.block b).isSome → ∃ n, s.ref n = some b

variable {s : Store N V} {n : N} {b : Nat} {v : V} {o : Option V}

theorem tidy_empty : (empty : Store N V).Tidy :=
  ⟨(fun _ _ h => by cases h), (fun _ _ _ h => by cases h), fun _ h => by cases h⟩

theorem exists_block (h : s.value n = some v) : ∃ b, s.ref n = some b ∧ s.block b = some v :=
  Option.bind_eq_some_iff.mp h

theorem block_put : (s.put b o).block = Function.update s.block b o := rfl

theorem Tidy.put (h : s.Tidy) (hb : (s.block b).isSome) : (s.put b o).Tidy := by
  refine ⟨h.old, h.alone, fun c hc => ?_⟩
  by_cases hcb : c = b
  · rw [hcb]
    exact h.owned b hb
  · apply h.owned c
    rwa [block_put, Function.update_of_ne hcb] at hc

variable [DecidableEq N]

def make (s : Store N V) (n : N) (v : V) : Store N V :=
  ⟨Function.update s.ref n (some s.next), Function.update s.block s.next (some v), s.next + 1⟩

theorem ref_make : (s.make n v).ref = Function.update s.ref n (some s.next) := rfl

theorem block_make : (s.make n v).block = Function.update s.block s.next (some v) := rfl

theorem Tidy.value_make (h : s.Tidy) (n : N) (v : V) :
    (s.make n v).value = Function.update s.value n (some v) := by
  funext m
  by_cases hm : m = n
  · subst hm
    rw [Function.update_self]
    simp [value, make]
  · rw [Function.update_of_ne hm]
    simp only [value, make, Function.update_of_ne hm]
    cases hb : s.ref m with
    | none => rfl
    | some b => exact Function.update_of_ne (Nat.ne_of_lt (h.old m b hb)) ..

theorem Tidy.value_put (h : s.Tidy) (hb : s.ref n = some b) (o : Option V) :
    (s.put b o).value = Function.update s.value n o := by
  funext m
  by_cases hm : m = n
  · subst hm
    simp [value, Store.put, hb]
  · rw [Function.update_of_ne hm]
    simp only [value, Store.put]
    cases hc : s.ref m with
    | none => rfl
    | some c =>
      have hcb : c ≠ b := by
        rintro rfl
        exact hm (h.alone m n c hc hb)
      exact Function.update_of_ne hcb ..

theorem Tidy.make_iff (h : s.Tidy) : (s.make n v).Tidy ↔ s.value n = none := by
  constructor
  · intro ht
    rw [Option.eq_none_iff_forall_ne_some]
    intro x hx
    obtain ⟨b, hb, hv⟩ := exists_block hx
    have hold : b ≠ s.next := Nat.ne_of_lt (h.old n b hb)
    have hkept : (s.make n v).block b = some x := (Function.update_of_ne hold ..).trans hv
    obtain ⟨m, hm⟩ := ht.owned b (hkept ▸ rfl)
    by_cases hmn : m = n
    · rw [hmn] at hm
      exact hold (Option.some.inj (hm.symm.trans (Function.update_self ..)))
    · rw [ref_make, Function.update_of_ne hmn] at hm
      exact hmn (h.alone m n b hm hb)
  · intro hn
    refine ⟨fun m c hc => ?_, fun m m' c hc hc' => ?_, fun c hc => ?_⟩
    · by_cases hm : m = n
      · simp only [ref_make, hm, Function.update_self, Option.some.injEq] at hc
        exact hc ▸ Nat.lt_succ_self _
      · simp only [ref_make, Function.update_of_ne hm] at hc
        exact Nat.lt_succ_of_lt (h.old m c hc)
    · by_cases hm : m = n <;> by_cases hm' : m' = n
      · rw [hm, hm']
      · simp only [ref_make, hm, Function.update_self, Option.some.injEq] at hc
        simp only [ref_make, Function.update_of_ne hm', ← hc] at hc'
        exact absurd (h.old m' _ hc') (Nat.lt_irrefl _)
      · simp only [ref_make, hm', Function.update_self, Option.some.injEq] at hc'
        simp only [ref_make, Function.update_of_ne hm, ← hc'] at hc
        exact absurd (h.old m _ hc) (Nat.lt_irrefl _)
      · simp only [ref_make, Function.update_of_ne hm] at hc
        simp only [ref_make, Function.update_of_ne hm'] at hc'
        exact h.alone m m' c hc hc'
    · by_cases hnew : c = s.next
      · exact ⟨n, hnew ▸ Function.update_self ..⟩
      · simp only [block_make, Function.update_of_ne hnew] at hc
        obtain ⟨m, hm⟩ := h.owned c hc
        have hmn : m ≠ n := by
          rintro rfl
          rw [value, hm, Option.bind_some] at hn
          rw [hn] at hc
          cases hc
        exact ⟨m, (Function.update_of_ne hmn ..).trans hm⟩

end Store

end FakeLibc.Lib.Boxed

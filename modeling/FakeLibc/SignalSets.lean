import Mathlib.Data.Set.Insert
import Mathlib.Algebra.Group.Nat.Defs

namespace FakeLibc.SignalSets

def einval : Int := 22

/-- The words of memory from a `sigset_t` on, of `LONG_BIT` bits each. The set
itself is the first of them. -/
abbrev Words (longBit : Nat) := Nat → BitVec longBit

structure Outcome (longBit : Nat) where
  ret : Int
  errno : Option Int
  set : Option (Words longBit)

variable {longBit : Nat} (size : Nat)

/-- `set == NULL || bit < 0 || bit >= 8 * sizeof(sigset_t)` for a set of `size`
words leads to `EINVAL`, and the rest works on the word and the bit. -/
def withBit (set : Option (Words longBit)) (signum : Int)
    (body : Words longBit → Nat → Int × Words longBit) : Outcome longBit :=
  let bit := signum - 1
  match set with
  | none => ⟨-1, some einval, none⟩
  | some localSet =>
    if bit < 0 ∨ bit ≥ longBit * size then ⟨-1, some einval, some localSet⟩
    else
      let r := body localSet bit.toNat
      ⟨r.1, none, some r.2⟩

def mySigaddset (set : Option (Words longBit)) (signum : Int) : Outcome longBit :=
  withBit size set signum (fun localSet bit =>
    (0, Function.update localSet (bit / longBit)
      (localSet (bit / longBit) ||| 1#(longBit) <<< (bit % longBit))))

def mySigdelset (set : Option (Words longBit)) (signum : Int) : Outcome longBit :=
  withBit size set signum (fun localSet bit =>
    (0, Function.update localSet (bit / longBit)
      (localSet (bit / longBit) &&& ~~~(1#(longBit) <<< (bit % longBit)))))

def mySigismember (set : Option (Words longBit)) (signum : Int) : Outcome longBit :=
  withBit size set signum (fun localSet bit =>
    (((localSet (bit / longBit) >>> (bit % longBit)) &&& 1#(longBit)).toNat, localSet))

def memset (set : Option (Words longBit)) (word : BitVec longBit) : Outcome longBit :=
  match set with
  | none => ⟨-1, some einval, none⟩
  | some localSet => ⟨0, none, some (fun i => if i < size then word else localSet i)⟩

def mySigemptyset (set : Option (Words longBit)) : Outcome longBit := memset size set 0#(longBit)

def mySigfillset (set : Option (Words longBit)) : Outcome longBit :=
  memset size set (BitVec.allOnes longBit)

inductive Op
  | emptyset
  | fillset
  | addset (signum : Int)
  | delset (signum : Int)

def call (set : Option (Words longBit)) : Op → Outcome longBit
  | .emptyset => mySigemptyset size set
  | .fillset => mySigfillset size set
  | .addset signum => mySigaddset size set signum
  | .delset signum => mySigdelset size set signum

def calls (set : Option (Words longBit)) (ops : List Op) : Option (Words longBit) :=
  ops.foldl (fun s op => (call size s op).set) set

def Signals (bits : Nat) : Set Int := {k | 1 ≤ k ∧ k ≤ bits}

/-- What the calls mean for a set of signals. -/
def Op.meaning (bits : Nat) (s : Set Int) : Op → Set Int
  | .emptyset => ∅
  | .fillset => Signals bits
  | .addset signum => s ∪ ({signum} ∩ Signals bits)
  | .delset signum => s \ {signum}

def test (s : Words longBit) (bit : Nat) : Bool := (s (bit / longBit)).getLsbD (bit % longBit)

def members (s : Words longBit) : Set Int :=
  {k | k ∈ Signals (longBit * size) ∧ test s (k - 1).toNat = true}

theorem mem_signals {k : Int} {bits : Nat} :
    k ∈ Signals bits ↔ ¬ (k - 1 < 0 ∨ k - 1 ≥ bits) := by
  unfold Signals
  rw [Set.mem_ofPred_eq]
  omega

theorem getLsbD_bit {i j : Nat} (hi : i < longBit) :
    (1#(longBit) <<< i).getLsbD j = decide (j = i) := by
  rw [BitVec.getLsbD_shiftLeft, BitVec.getLsbD_one]
  by_cases h : j = i
  · subst h
    simp [hi, Nat.lt_of_le_of_lt (Nat.zero_le _) hi]
  · have hlt : j < longBit → ¬ j < i → ¬ j - i = 0 := by omega
    by_cases h1 : j < longBit <;> by_cases h2 : j < i <;> simp_all

theorem eq_iff_div_mod (w i j : Nat) : i = j ↔ i / w = j / w ∧ i % w = j % w := by
  constructor
  · rintro rfl
    exact ⟨rfl, rfl⟩
  · rintro ⟨hd, hm⟩
    rw [← Nat.div_add_mod i w, ← Nat.div_add_mod j w, hd, hm]

theorem test_or (h : 0 < longBit) (s : Words longBit) (bit j : Nat) :
    test (Function.update s (bit / longBit)
      (s (bit / longBit) ||| 1#(longBit) <<< (bit % longBit))) j =
      (decide (j = bit) || test s j) := by
  have hm := Nat.mod_lt bit h
  have hiff := eq_iff_div_mod longBit j bit
  unfold test
  by_cases hd : j / longBit = bit / longBit
  · rw [hd, Function.update_self, BitVec.getLsbD_or, getLsbD_bit hm, Bool.or_comm]
    congr 1
    rw [decide_eq_decide, hiff]
    exact ⟨fun hj => ⟨hd, hj⟩, fun hj => hj.2⟩
  · have hne : j ≠ bit := fun he => hd (he ▸ rfl)
    rw [Function.update_of_ne hd, decide_eq_false hne, Bool.false_or]

theorem test_and_not (h : 0 < longBit) (s : Words longBit) (bit j : Nat) :
    test (Function.update s (bit / longBit)
      (s (bit / longBit) &&& ~~~(1#(longBit) <<< (bit % longBit)))) j =
      (!decide (j = bit) && test s j) := by
  have hm := Nat.mod_lt bit h
  have hiff := eq_iff_div_mod longBit j bit
  unfold test
  by_cases hd : j / longBit = bit / longBit
  · have hj := Nat.mod_lt j h
    rw [hd, Function.update_self, BitVec.getLsbD_and, BitVec.getLsbD_not, getLsbD_bit hm,
      decide_eq_true hj, Bool.true_and, Bool.and_comm]
    congr 2
    rw [decide_eq_decide, hiff]
    exact ⟨fun hj => ⟨hd, hj⟩, fun hj => hj.2⟩
  · have hne : j ≠ bit := fun he => hd (he ▸ rfl)
    rw [Function.update_of_ne hd, decide_eq_false hne, Bool.not_false, Bool.true_and]

theorem withBit_of_mem {signum : Int} (h : signum ∈ Signals (longBit * size))
    (s : Words longBit) (body : Words longBit → Nat → Int × Words longBit) :
    withBit size (some s) signum body =
      ⟨(body s (signum - 1).toNat).1, none, some (body s (signum - 1).toNat).2⟩ :=
  if_neg (by simpa using mem_signals.mp h)

theorem withBit_of_not_mem {signum : Int} (h : signum ∉ Signals (longBit * size))
    (s : Words longBit) (body : Words longBit → Nat → Int × Words longBit) :
    withBit size (some s) signum body = ⟨-1, some einval, some s⟩ :=
  if_pos (by simpa using not_not.mp (mem_signals.not.mp h))

theorem toNat_sub_one_inj {k l : Int} {bits : Nat} (hk : k ∈ Signals bits) (hl : l ∈ Signals bits) :
    (k - 1).toNat = (l - 1).toNat ↔ k = l := by
  obtain ⟨hk, -⟩ := hk
  obtain ⟨hl, -⟩ := hl
  omega

theorem mySigismember_eq (h : 0 < longBit) {signum : Int}
    (hs : signum ∈ Signals (longBit * size)) (s : Words longBit) :
    mySigismember size (some s) signum =
      ⟨if test s (signum - 1).toNat then 1 else 0, none, some s⟩ := by
  rw [mySigismember, withBit_of_mem size hs]
  congr 1
  generalize (signum - 1).toNat = bit
  have hbit : (s (bit / longBit) >>> (bit % longBit)) &&& 1#(longBit) =
      if test s bit then 1#(longBit) else 0#(longBit) := by
    apply BitVec.eq_of_getLsbD_eq
    intro i hi
    rw [BitVec.getLsbD_and, BitVec.getLsbD_one, BitVec.getLsbD_ushiftRight]
    by_cases h0 : i = 0
    · subst h0
      unfold test
      cases hb : (s (bit / longBit)).getLsbD (bit % longBit) <;> simp [h]
    · cases test s bit <;> simp [h0, h, BitVec.getLsbD_one]
  rw [hbit]
  cases test s bit with
  | false => simp
  | true =>
    have h1 : 1 % 2 ^ longBit = 1 := Nat.mod_eq_of_lt (Nat.one_lt_two_pow (by omega))
    simp [h1]

/-- One call is what it means, and writes nothing behind the set. -/
theorem call_spec (h : 0 < longBit) (s : Words longBit) (op : Op) :
    ∃ t, (call size (some s) op).set = some t ∧
      members size t = op.meaning (longBit * size) (members size s) ∧
      ∀ i, size ≤ i → t i = s i := by
  have hword : ∀ {k : Int}, k ∈ Signals (longBit * size) → (k - 1).toNat / longBit < size := by
    rintro k ⟨h1, h2⟩
    exact Nat.div_lt_of_lt_mul (by push_cast at h2; omega)
  cases op with
  | emptyset =>
    refine ⟨_, rfl, ?_, fun i hi => if_neg (by omega)⟩
    ext k
    simp only [Op.meaning, members, Set.mem_ofPred_eq, Set.mem_empty_iff_false, iff_false, not_and]
    intro hk
    simp only [test, if_pos (hword hk), BitVec.getLsbD_zero]
    exact Bool.false_ne_true
  | fillset =>
    refine ⟨_, rfl, ?_, fun i hi => if_neg (by omega)⟩
    ext k
    simp only [Op.meaning, members, Set.mem_ofPred_eq, and_iff_left_iff_imp]
    intro hk
    simp only [test, if_pos (hword hk), BitVec.getLsbD_allOnes, Nat.mod_lt _ h, decide_true]
  | addset signum =>
    by_cases hs : signum ∈ Signals (longBit * size)
    · refine ⟨_, by rw [call, mySigaddset, withBit_of_mem size hs], ?_, fun i hi => ?_⟩
      · ext k
        simp only [Op.meaning, members, Set.mem_ofPred_eq, test_or h, Set.mem_union,
          Set.mem_inter_iff, Set.mem_singleton_iff, Bool.or_eq_true, decide_eq_true_iff]
        constructor
        · rintro ⟨hk, heq | ht⟩
          · exact .inr ⟨(toNat_sub_one_inj hk hs).mp heq, hk⟩
          · exact .inl ⟨hk, ht⟩
        · rintro (⟨hk, ht⟩ | ⟨rfl, hk⟩)
          · exact ⟨hk, .inr ht⟩
          · exact ⟨hk, .inl rfl⟩
      · exact Function.update_of_ne (by have := hword hs; omega) _ _
    · refine ⟨s, by rw [call, mySigaddset, withBit_of_not_mem size hs], ?_, fun _ _ => rfl⟩
      ext k
      simp only [Op.meaning, Set.mem_union, Set.mem_inter_iff, Set.mem_singleton_iff]
      constructor
      · exact .inl
      · rintro (hk | ⟨rfl, hk⟩)
        · exact hk
        · exact absurd hk hs
  | delset signum =>
    by_cases hs : signum ∈ Signals (longBit * size)
    · refine ⟨_, by rw [call, mySigdelset, withBit_of_mem size hs], ?_, fun i hi => ?_⟩
      · ext k
        simp only [Op.meaning, members, Set.mem_ofPred_eq, test_and_not h, Set.mem_sdiff,
          Set.mem_singleton_iff, Bool.and_eq_true, Bool.not_eq_true', decide_eq_false_iff_not]
        constructor
        · rintro ⟨hk, hne, ht⟩
          exact ⟨⟨hk, ht⟩, fun he => hne ((toNat_sub_one_inj hk hs).mpr he)⟩
        · rintro ⟨⟨hk, ht⟩, hne⟩
          exact ⟨hk, fun he => hne ((toNat_sub_one_inj hk hs).mp he), ht⟩
      · exact Function.update_of_ne (by have := hword hs; omega) _ _
    · refine ⟨s, by rw [call, mySigdelset, withBit_of_not_mem size hs], ?_, fun _ _ => rfl⟩
      ext k
      simp only [Op.meaning, Set.mem_sdiff, Set.mem_singleton_iff, iff_self_and]
      rintro hk rfl
      exact hs hk.1

theorem calls_spec (h : 0 < longBit) (s : Words longBit) (ops : List Op) :
    ∃ t, calls size (some s) ops = some t ∧
      members size t = ops.foldl (Op.meaning (longBit * size)) (members size s) ∧
      ∀ i, size ≤ i → t i = s i := by
  induction ops generalizing s with
  | nil => exact ⟨s, rfl, rfl, fun _ _ => rfl⟩
  | cons op ops ih =>
    obtain ⟨u, hu, hmu, hfu⟩ := call_spec size h s op
    obtain ⟨t, ht, hmt, hft⟩ := ih u
    refine ⟨t, ?_, ?_, fun i hi => (hft i hi).trans (hfu i hi)⟩
    · rw [calls, List.foldl_cons, hu]
      exact ht
    · rw [List.foldl_cons, ← hmu]
      exact hmt

/-- After any calls with a set, `my_sigismember` tells of each signal whether
the calls, taken as operations on a set of signals, have left it in; a number
that is no signal is refused. Nothing behind the set is written. -/
theorem sigismember_after_calls (longBit size : Nat) (h : 0 < longBit) (s : Words longBit)
    (ops : List Op) :
    ∃ t, calls size (some s) ops = some t ∧ (∀ i, size ≤ i → t i = s i) ∧
      ∀ signum : Int,
        (signum ∈ ops.foldl (Op.meaning (longBit * size)) (members size s) →
          mySigismember size (some t) signum = ⟨1, none, some t⟩) ∧
        (signum ∈ Signals (longBit * size) →
          signum ∉ ops.foldl (Op.meaning (longBit * size)) (members size s) →
          mySigismember size (some t) signum = ⟨0, none, some t⟩) ∧
        (signum ∉ Signals (longBit * size) →
          mySigismember size (some t) signum = ⟨-1, some einval, some t⟩) := by
  obtain ⟨t, ht, hm, hf⟩ := calls_spec size h s ops
  refine ⟨t, ht, hf, fun signum => ⟨?_, ?_, ?_⟩⟩
  · rw [← hm]
    rintro ⟨hs, hbit⟩
    rw [mySigismember_eq size h hs, if_pos hbit]
  · rw [← hm]
    intro hs hno
    have hbit : ¬ test t (signum - 1).toNat = true := fun hb => hno ⟨hs, hb⟩
    rw [mySigismember_eq size h hs, if_neg hbit]
  · intro hs
    exact withBit_of_not_mem size hs t _

theorem sigismember_after_calls_arm :
    ∃ t, calls 1 (some fun _ => 0#32) [.fillset, .delset 9, .addset 40] = some t ∧
      (∀ i, 1 ≤ i → t i = 0#32) ∧ mySigismember 1 (some t) 9 = ⟨0, none, some t⟩ := by
  obtain ⟨t, ht, hf, hm⟩ := sigismember_after_calls 32 1 (by decide) (fun _ => 0#32)
    [.fillset, .delset 9, .addset 40]
  refine ⟨t, ht, hf, (hm 9).2.1 ⟨by decide, by decide⟩ ?_⟩
  simp [Op.meaning]

end FakeLibc.SignalSets

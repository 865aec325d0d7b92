import FakeLibc.PthreadWords
import Mathlib.Algebra.Group.Nat.Defs
import Mathlib.Algebra.Ring.Int.Defs

namespace FakeLibc.CondTimeouts

open FakeLibc.PthreadWords

def Normalised (t : Timespec) : Prop := 0 ≤ t.nsec.toInt ∧ t.nsec.toInt < 1000000000

instance (t : Timespec) : Decidable (Normalised t) := inferInstanceAs (Decidable (_ ∧ _))

def nanos (t : Timespec) : Int := t.sec.toInt * 1000000000 + t.nsec.toInt

def latest : Timespec := ⟨Int32.maxValue, 999999999⟩

def Representable (n : Int) : Prop := ∃ t, Normalised t ∧ nanos t = n

/-- What it means for `t` to be `reltime` after `now`. -/
structure Meets (now reltime t : Timespec) : Prop where
  normalised : Normalised t
  exact : Representable (nanos now + nanos reltime) → nanos t = nanos now + nanos reltime
  saturated : ¬ Representable (nanos now + nanos reltime) → t = latest
  notPast : nanos now ≤ nanos t

def seconds (now reltime : Timespec) : Int :=
  now.sec.toInt + reltime.sec.toInt +
    if now.nsec.toInt + reltime.nsec.toInt ≥ 1000000000 then 1 else 0

section Deadline

variable {now reltime : Timespec}

theorem toInt_add_of_lt {a b : Int32} (hlo : -2 ^ 31 ≤ a.toInt + b.toInt)
    (hhi : a.toInt + b.toInt < 2 ^ 31) : (a + b).toInt = a.toInt + b.toInt := by
  rw [Int32.toInt_add, Int.bmod_def]
  omega

theorem nsec_add (hnow : Normalised now) (hrel : Normalised reltime) :
    (now.nsec + reltime.nsec).toInt = now.nsec.toInt + reltime.nsec.toInt := by
  obtain ⟨h₀, h₁⟩ := hnow
  obtain ⟨h₂, h₃⟩ := hrel
  apply toInt_add_of_lt <;> omega

theorem carry_iff (hnow : Normalised now) (hrel : Normalised reltime) :
    now.nsec + reltime.nsec ≥ 1000000000 ↔
      now.nsec.toInt + reltime.nsec.toInt ≥ 1000000000 := by
  rw [ge_iff_le, Int32.le_iff_toInt_le, nsec_add hnow hrel]
  rfl

theorem nsec_deadline (hnow : Normalised now) (hrel : Normalised reltime) :
    (deadline now reltime).nsec.toInt = now.nsec.toInt + reltime.nsec.toInt -
      if now.nsec.toInt + reltime.nsec.toInt ≥ 1000000000 then 1000000000 else 0 := by
  have hadd := nsec_add hnow hrel
  have hge := carry_iff hnow hrel
  obtain ⟨h₀, h₁⟩ := hnow
  obtain ⟨h₂, h₃⟩ := hrel
  by_cases hc : now.nsec.toInt + reltime.nsec.toInt ≥ 1000000000
  · have hbillion : (1000000000 : Int32).toInt = 1000000000 := rfl
    simp only [deadline, hge, hc, ↓reduceIte]
    rw [Int32.toInt_sub, hadd, hbillion, Int.bmod_def]
    omega
  · simp only [deadline, hge, hc, ↓reduceIte, hadd]
    omega

theorem sec_deadline (hnow : Normalised now) (hrel : Normalised reltime) :
    (deadline now reltime).sec.toInt = (seconds now reltime).bmod (2 ^ 32) := by
  have hge := carry_iff hnow hrel
  by_cases hc : now.nsec.toInt + reltime.nsec.toInt ≥ 1000000000
  · have hone : (1 : Int32).toInt = 1 := rfl
    simp only [deadline, seconds, hge, hc, ↓reduceIte]
    rw [Int32.toInt_add, Int32.toInt_add, hone, Int.bmod_add_bmod]
  · simp only [deadline, seconds, hge, hc, ↓reduceIte, Int32.toInt_add, Int.add_zero]

theorem normalised_deadline (hnow : Normalised now) (hrel : Normalised reltime) :
    Normalised (deadline now reltime) := by
  have hn := nsec_deadline hnow hrel
  obtain ⟨h₀, h₁⟩ := hnow
  obtain ⟨h₂, h₃⟩ := hrel
  unfold Normalised
  omega

theorem nanos_lt {t : Timespec} (h : Normalised t) : nanos t < 2 ^ 31 * 1000000000 := by
  have hsec := Int32.toInt_lt t.sec
  obtain ⟨h₀, h₁⟩ := h
  unfold nanos
  omega

theorem seconds_mul (hnow : Normalised now) (hrel : Normalised reltime) :
    nanos now + nanos reltime =
      seconds now reltime * 1000000000 + (deadline now reltime).nsec.toInt := by
  rw [nsec_deadline hnow hrel]
  unfold nanos seconds
  split <;> omega

theorem nanos_deadline (hnow : Normalised now) (hrel : Normalised reltime)
    (hpos : 0 ≤ reltime.sec.toInt) (hlt : nanos now + nanos reltime < 2 ^ 31 * 1000000000) :
    nanos (deadline now reltime) = nanos now + nanos reltime := by
  have hmul := seconds_mul hnow hrel
  obtain ⟨h₀, h₁⟩ := normalised_deadline hnow hrel
  have hlo : -2 ^ 31 ≤ seconds now reltime := by
    have := Int32.le_toInt now.sec
    unfold seconds
    split <;> omega
  have hhi : seconds now reltime < 2 ^ 31 := by omega
  have hsec : (deadline now reltime).sec.toInt = seconds now reltime := by
    rw [sec_deadline hnow hrel, Int.bmod_def]
    omega
  rw [hmul, nanos, hsec]

theorem sec_deadline_neg (hnow : Normalised now) (hrel : Normalised reltime)
    (hge : 2 ^ 31 * 1000000000 ≤ nanos now + nanos reltime) :
    (deadline now reltime).sec.toInt < 0 := by
  have hmul := seconds_mul hnow hrel
  obtain ⟨h₀, h₁⟩ := normalised_deadline hnow hrel
  have hlo : 2 ^ 31 ≤ seconds now reltime := by omega
  have hhi : seconds now reltime < 2 ^ 32 := by
    have h₂ := Int32.toInt_lt now.sec
    have h₃ := Int32.toInt_lt reltime.sec
    unfold seconds
    split <;> omega
  rw [sec_deadline hnow hrel, Int.bmod_def]
  omega

theorem meets_deadline_iff (hnow : Normalised now) (hrel : Normalised reltime)
    (hpos : 0 ≤ reltime.sec.toInt) :
    Meets now reltime (deadline now reltime) ↔
      nanos now + nanos reltime < 2 ^ 31 * 1000000000 := by
  constructor
  · intro h
    by_contra hge
    have hneg := sec_deadline_neg hnow hrel (Int.not_lt.mp hge)
    have hlatest : deadline now reltime = latest := by
      refine h.saturated ?_
      rintro ⟨t, ht, hsum⟩
      exact hge (hsum ▸ nanos_lt ht)
    rw [hlatest] at hneg
    exact absurd hneg (by decide)
  · intro hlt
    have hexact := nanos_deadline hnow hrel hpos hlt
    have hnorm := normalised_deadline hnow hrel
    refine ⟨hnorm, fun _ => hexact, fun hrep => ?_, ?_⟩
    · exact absurd ⟨deadline now reltime, hnorm, hexact⟩ hrep
    · have h₂ := hrel.1
      rw [hexact]
      unfold nanos
      omega

end Deadline

/-- The call that reaches glibc last has this deadline. -/
def PassesDeadline (m : Machine) (t : Timespec) : Prop :=
  ∃ args, m.calls.getLast? = some ⟨.condTimedwait t, args⟩

theorem passesDeadline_iff (m : Machine) (cond mutex : Nat) (now reltime t : Timespec)
    (pc pm : Option Nat) (ret : Int) :
    PassesDeadline (pthreadCondTimedwaitRelativeNp m cond mutex now reltime pc pm ret).1 t ↔
      t = deadline now reltime := by
  simp [PassesDeadline, pthreadCondTimedwaitRelativeNp, condWaitWith, Machine.call, eq_comm]

/-- The deadline that glibc gets is right as long as it is before the end of
time. -/
theorem deadline_meets_iff_inTime {now reltime : Timespec} (hnow : Normalised now)
    (hrel : Normalised reltime) (hpos : 0 ≤ reltime.sec.toInt) (m : Machine) (cond mutex : Nat)
    (pc pm : Option Nat) (ret : Int) :
    (∃ t, PassesDeadline
        (pthreadCondTimedwaitRelativeNp m cond mutex now reltime pc pm ret).1 t ∧
          Meets now reltime t) ↔
      nanos now + nanos reltime < 2 ^ 31 * 1000000000 := by
  simp only [passesDeadline_iff, exists_eq_left]
  exact meets_deadline_iff hnow hrel hpos

def fresh : Machine := ⟨fun _ => 0, fun _ => none, []⟩

theorem deadline_meets_iff_inTime_oneSecond :
    (∃ t, PassesDeadline (pthreadCondTimedwaitRelativeNp fresh 1 2 ⟨1700000000, 999999999⟩
        ⟨1, 1⟩ (some 0x10000) (some 0x20000) 0).1 t ∧ Meets ⟨1700000000, 999999999⟩ ⟨1, 1⟩ t) ↔
      (1700000002000000000 : Int) < 2 ^ 31 * 1000000000 := by
  have hnow : Normalised ⟨1700000000, 999999999⟩ := by decide
  have hrel : Normalised ⟨1, 1⟩ := by decide
  exact deadline_meets_iff_inTime hnow hrel (by decide) fresh 1 2 (some 0x10000) (some 0x20000) 0

/-- A wait of 2 ^ 31 - 1 seconds, which stands for one without end, has its
deadline in the past. -/
theorem forever_ends_in_the_past :
    ¬ ∃ t, PassesDeadline (pthreadCondTimedwaitRelativeNp fresh 1 2 ⟨1700000000, 0⟩
        ⟨2147483647, 0⟩ (some 0x10000) (some 0x20000) 0).1 t ∧
      Meets ⟨1700000000, 0⟩ ⟨2147483647, 0⟩ t := by
  simp only [passesDeadline_iff, exists_eq_left]
  intro h
  exact absurd h.notPast (by decide)

end FakeLibc.CondTimeouts

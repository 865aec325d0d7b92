import FakeLibc.Lib.WordMemory

namespace FakeLibc.SignalMask

open FakeLibc.Lib.WordMemory

/-- The kernel's set of 64 signals. Signal `n` is bit `n - 1`. -/
abbrev KernelSet := BitVec 64

/-- `SIGKILL` and `SIGSTOP`, which the kernel never blocks. -/
def unmaskable : KernelSet := 1 <<< 8 ||| 1 <<< 18

structure Blocked where
  set : KernelSet
  maskable : set &&& unmaskable = 0#64

/-- What is used of `kernel_sigset_t`: it lies over the `sigset_t` of the C
library, which is one word here, and is cleared before that is copied in. -/
structure KernelSigset where
  set : Word → KernelSet
  bionic : KernelSet → Word
  bionic_eq : ∀ k, bionic k = k.setWidth 32
  set_low : ∀ w, (set w).setWidth 32 = w
  set_high : ∀ w i, 32 ≤ i → (set w).getLsbD i = false

def sigBlock : Nat := 0
def sigUnblock : Nat := 1
def sigSetmask : Nat := 2

def Blocked.drop (s : KernelSet) : Blocked where
  set := s &&& ~~~unmaskable
  maskable := by
    rw [BitVec.and_assoc, BitVec.not_and_self]
    exact BitVec.and_zero

/-- The system call. It yields the set blocked before, and fails for a `how`
that there is not. -/
def rtSigprocmask (how : Nat) (newSet : Option KernelSet) (b : Blocked) :
    Option (KernelSet × Blocked) :=
  match newSet with
  | none => some (b.set, b)
  | some n =>
    if how = sigBlock then some (b.set, .drop (b.set ||| n))
    else if how = sigUnblock then some (b.set, .drop (b.set &&& ~~~n))
    else if how = sigSetmask then some (b.set, .drop n)
    else none

variable (ks : KernelSigset)

/-- `my_sigprocmask` with a place for the old set: what it returns, the old
set it has put there, if any, and what is blocked after it. -/
def mySigprocmask (how : Nat) (bionicNewSet : Option Word) (b : Blocked) :
    Int × Option Word × Blocked :=
  match rtSigprocmask how (bionicNewSet.map ks.set) b with
  | none => (-1, none, b)
  | some (oldSet, b') => (0, some (ks.bionic oldSet), b')

def ofInt (n : Int) : Word := BitVec.ofInt 32 n

/-- The union of the mask and the set: both are the same word. -/
def maskCall (how : Nat) (mask : Word) (b : Blocked) : Word × Blocked :=
  match mySigprocmask ks how (some mask) b with
  | (0, out, b') => (out.getD 0, b')
  | (n, _, b') => (ofInt n, b')

def mySigblock (mask : Word) (b : Blocked) : Word × Blocked := maskCall ks sigBlock mask b

def mySigsetmask (mask : Word) (b : Blocked) : Word × Blocked := maskCall ks sigSetmask mask b

theorem drop_of_maskable {s : KernelSet} (h : s &&& unmaskable = 0#64) :
    (Blocked.drop s).set = s := by
  apply BitVec.eq_of_getLsbD_eq
  intro i hi
  have hbit := congrArg (fun v : KernelSet => v.getLsbD i) h
  simp only [BitVec.getLsbD_and, BitVec.getLsbD_zero] at hbit
  simp only [Blocked.drop, BitVec.getLsbD_and, BitVec.getLsbD_not, hi, decide_true, Bool.true_and]
  cases hs : s.getLsbD i with
  | false => rfl
  | true => rw [hs, Bool.true_and] at hbit; rw [hbit]; rfl

theorem Blocked.ext {b c : Blocked} (h : b.set = c.set) : b = c := by
  cases b
  cases c
  congr

theorem set_zero : ks.set 0#32 = 0#64 := by
  apply BitVec.eq_of_getLsbD_eq
  intro i _
  rw [BitVec.getLsbD_zero]
  by_cases h : i < 32
  · have hl := congrArg (fun v : Word => v.getLsbD i) (ks.set_low 0#32)
    simpa [BitVec.getLsbD_setWidth, h] using hl
  · exact ks.set_high 0#32 i (by omega)

theorem mySigblock_zero (b : Blocked) : mySigblock ks 0#32 b = (ks.bionic b.set, b) := by
  have hset : Blocked.drop (b.set ||| ks.set 0#32) = b := by
    apply Blocked.ext
    rw [set_zero, BitVec.or_zero, drop_of_maskable b.maskable]
  simp [mySigblock, maskCall, mySigprocmask, rtSigprocmask, hset]

theorem mySigsetmask_eq (mask : Word) (b : Blocked) :
    mySigsetmask ks mask b = (ks.bionic b.set, .drop (ks.set mask)) := by
  simp [mySigsetmask, maskCall, mySigprocmask, rtSigprocmask, sigSetmask, sigBlock, sigUnblock]

/-- A mask that was read from what is blocked and is set again blocks the same
signals up to 32, and none above. -/
theorem drop_set_bionic (b : Blocked) (i : Nat) :
    (Blocked.drop (ks.set (ks.bionic b.set))).set.getLsbD i =
      (decide (i < 32) && b.set.getLsbD i) := by
  have hdrop : Blocked.drop (ks.set (ks.bionic b.set)) =
      .drop ((b.set.setWidth 32).setWidth 64) := by
    congr 1
    apply BitVec.eq_of_getLsbD_eq
    intro j hj
    by_cases h : j < 32
    · have hl := congrArg (fun v : Word => v.getLsbD j) (ks.set_low (ks.bionic b.set))
      simp only [BitVec.getLsbD_setWidth, h, decide_true, Bool.true_and] at hl
      rw [hl, ks.bionic_eq]
      simp [h, hj]
    · rw [ks.set_high _ j (by omega)]
      simp [h]
  have hb := congrArg (fun v : KernelSet => v.getLsbD i) (drop_of_maskable b.maskable)
  rw [hdrop]
  simp only [Blocked.drop, BitVec.getLsbD_and, BitVec.getLsbD_not, BitVec.getLsbD_setWidth] at hb ⊢
  by_cases h : i < 32
  · have h64 : i < 64 := by omega
    simp only [h, h64, decide_true, Bool.true_and] at hb ⊢
    exact hb
  · simp [h]

end FakeLibc.SignalMask

import FakeLibc.Lib.Run
import FakeLibc.SignalSets

namespace FakeLibc.SignalActions

open FakeLibc.Lib.Run FakeLibc.SignalSets

/-- The kinds of build: 32 bits, 64 bits, and the 64 bits where the kernel has a
restorer of its own. -/
inductive Abi
  | ilp32
  | lp64
  | aarch64
  deriving DecidableEq

abbrev Flags := BitVec 32

def saSiginfo : Flags := 1#32 <<< 2
def saRestorer : Flags := 1#32 <<< 26
def saRestart : Flags := 1#32 <<< 28

def Flags.has (f mask : Flags) : Prop := f &&& mask ≠ 0#32

instance (f mask : Flags) : Decidable (Flags.has f mask) := inferInstanceAs (Decidable (_ ≠ _))

def sigDfl : Nat := 0
def sigIgn : Nat := 1

structure Sigaction (M : Type*) where
  saFlags : Flags
  saHandler : Nat
  saMask : M
  saRestorer : Nat

/-- The addresses of `__restore` and `__restore_rt` and of the kernel's own
restorer, among those whose code makes one of the two system calls. -/
structure Restorers where
  restore : Nat
  restoreRt : Nat
  vdso : Nat
  sigreturn : Nat → Prop
  rtSigreturn : Nat → Prop
  sigreturn_restore : sigreturn restore
  rtSigreturn_restoreRt : rtSigreturn restoreRt
  rtSigreturn_vdso : rtSigreturn vdso

abbrev Table (M : Type*) := Int → Sigaction M

variable {M : Type*} (abi : Abi) (r : Restorers) (clean : M → M) (empty : M)

/-- The signals there are, and those whose action can be set: neither `SIGKILL`
nor `SIGSTOP`. -/
def Known (sig : Int) : Prop := 1 ≤ sig ∧ sig ≤ 64

def Settable (sig : Int) : Prop := Known sig ∧ sig ≠ 9 ∧ sig ≠ 19

instance (sig : Int) : Decidable (Known sig) := inferInstanceAs (Decidable (_ ∧ _))
instance (sig : Int) : Decidable (Settable sig) := inferInstanceAs (Decidable (_ ∧ _))

/-- The system call: what it returns, the old action where it succeeds, and the
table. It takes the two signals out of the mask. -/
def kernelSigaction (t : Table M) (sig : Int) (newAction : Option (Sigaction M)) :
    Int × Option (Sigaction M) × Table M :=
  match newAction with
  | none => if Known sig then (0, some (t sig), t) else (-1, none, t)
  | some a =>
    if Settable sig then
      (0, some (t sig), Function.update t sig { a with saMask := clean a.saMask })
    else (-1, none, t)

def kernelNewAction (a : Sigaction M) : Sigaction M :=
  match abi with
  | .aarch64 => a
  | .lp64 =>
    if a.saFlags.has saRestorer then a
    else { a with saFlags := a.saFlags ||| saRestorer, saRestorer := r.restoreRt }
  | .ilp32 =>
    if a.saFlags.has saRestorer then a
    else
      let flags := a.saFlags ||| saRestorer
      { a with
        saFlags := flags
        saRestorer := if flags.has saSiginfo then r.restoreRt else r.restore }

/-- What is returned, what is in the old action, if there is one, and the table.
On 64 bits the old action is written in any case, after a failure with what
happened to be on the stack. -/
def mySigaction (junk : Sigaction M) (t : Table M) (sig : Int) (newAction : Option (Sigaction M)) :
    Int × Option (Sigaction M) × Table M :=
  match kernelSigaction clean t sig (newAction.map (kernelNewAction abi r)), abi with
  | (ret, old, t'), .ilp32 => (ret, old, t')
  | (ret, old, t'), _ => (ret, some (old.getD junk), t')

/-- `none` is `SIG_ERR`. -/
def my_Signal (junk : Sigaction M) (t : Table M) (signum : Int) (handler : Nat) (flags : Flags) :
    Option Nat × Table M :=
  let sa : Sigaction M := { junk with saMask := empty, saHandler := handler, saFlags := flags }
  match mySigaction abi r clean junk t signum (some sa) with
  | (-1, _, t') => (none, t')
  | (_, old, t') => (some (old.getD sa).saHandler, t')

def mySignal (junk : Sigaction M) (t : Table M) (signum : Int) (handler : Nat) :
    Option Nat × Table M :=
  my_Signal abi r clean empty junk t signum handler saRestart

def mySiginterrupt (junk : Sigaction M) (t : Table M) (sig : Int) (flag : Bool) : Int × Table M :=
  let act := (mySigaction abi r clean junk t sig none).2.1.getD junk
  let act := if flag then { act with saFlags := act.saFlags &&& ~~~saRestart }
    else { act with saFlags := act.saFlags ||| saRestart }
  let res := mySigaction abi r clean junk t sig (some act)
  (res.1, res.2.2)

/-- The calls of a program, each with what its local `struct sigaction` holds
before it is written. -/
inductive Call (M : Type*)
  | sigaction (junk : Sigaction M) (sig : Int) (newAction : Option (Sigaction M))
  | signal (junk : Sigaction M) (signum : Int) (handler : Nat)
  | siginterrupt (junk : Sigaction M) (sig : Int) (flag : Bool)

def step (t : Table M) : Call M → Option (Table M)
  | .sigaction junk sig newAction => some (mySigaction abi r clean junk t sig newAction).2.2
  | .signal junk signum handler => some (mySignal abi r clean empty junk t signum handler).2
  | .siginterrupt junk sig flag => some (mySiginterrupt abi r clean junk t sig flag).2

/-- Where a handler returns to. The kernel has a restorer on `aarch64` only. -/
def returnsTo (a : Sigaction M) : Option Nat :=
  if a.saFlags.has saRestorer then some a.saRestorer
  else
    match abi with
    | .aarch64 => some r.vdso
    | _ => none

/-- The code at `p` takes down the frame that the kernel builds for the flags. -/
def Restores (flags : Flags) (p : Nat) : Prop :=
  if abi = .ilp32 ∧ ¬ flags.has saSiginfo then r.sigreturn p else r.rtSigreturn p

def Returns (a : Sigaction M) : Prop :=
  a.saHandler = sigDfl ∨ a.saHandler = sigIgn ∨
    ∃ p ∈ returnsTo abi r a, Restores abi r a.saFlags p

/-- What a caller sets is no restorer of its own, or one that fits. -/
def Fits (a : Sigaction M) : Prop :=
  a.saHandler = sigDfl ∨ a.saHandler = sigIgn ∨
    (a.saFlags.has saRestorer → Restores abi r a.saFlags a.saRestorer)

def FitsCall : Call M → Prop
  | .sigaction _ sig (some a) => Settable sig → Fits abi r a
  | _ => True

theorem has_bit {i : Nat} (hi : i < 32) (f : Flags) :
    f.has (1#32 <<< i) ↔ f.getLsbD i = true := by
  unfold Flags.has
  constructor
  · intro h
    by_contra hbit
    apply h
    apply BitVec.eq_of_getLsbD_eq
    intro j _
    rw [BitVec.getLsbD_and, getLsbD_bit hi, BitVec.getLsbD_zero]
    by_cases hj : j = i
    · subst hj
      simp [hbit]
    · simp [hj]
  · intro hbit h
    have hi' := congrArg (fun v : Flags => v.getLsbD i) h
    simp only [BitVec.getLsbD_and, getLsbD_bit hi, hbit, BitVec.getLsbD_zero] at hi'
    simp at hi'

theorem has_saSiginfo (f : Flags) : f.has saSiginfo ↔ f.getLsbD 2 = true := has_bit (by decide) f

theorem has_saRestorer (f : Flags) : f.has saRestorer ↔ f.getLsbD 26 = true :=
  has_bit (by decide) f

theorem getLsbD_or_bit {i j : Nat} (hi : i < 32) (f : Flags) :
    (f ||| 1#32 <<< i).getLsbD j = (f.getLsbD j || decide (j = i)) := by
  rw [BitVec.getLsbD_or, getLsbD_bit hi]

theorem getLsbD_and_not_bit {i j : Nat} (hi : i < 32) (hj : j < 32) (f : Flags) :
    (f &&& ~~~(1#32 <<< i)).getLsbD j = (f.getLsbD j && !decide (j = i)) := by
  rw [BitVec.getLsbD_and, BitVec.getLsbD_not, getLsbD_bit hi, decide_eq_true hj, Bool.true_and]

def Alike (f g : Flags) : Prop := (f.has saRestorer ↔ g.has saRestorer) ∧
  (f.has saSiginfo ↔ g.has saSiginfo)

theorem alike_restart (f : Flags) (flag : Bool) :
    Alike (if flag then f &&& ~~~saRestart else f ||| saRestart) f := by
  simp only [Alike, has_saRestorer, has_saSiginfo, saRestart]
  cases flag with
  | true =>
    simp only [if_true]
    rw [getLsbD_and_not_bit (by decide) (by decide), getLsbD_and_not_bit (by decide) (by decide)]
    simp
  | false =>
    rw [if_neg (by decide), getLsbD_or_bit (by decide), getLsbD_or_bit (by decide)]
    simp

theorem restores_congr {f g : Flags} (h : f.has saSiginfo ↔ g.has saSiginfo) (p : Nat) :
    Restores abi r f p ↔ Restores abi r g p := by
  simp only [Restores, h]

theorem returns_setFlags (a : Sigaction M) {f : Flags} (h : Alike f a.saFlags) :
    Returns abi r { a with saFlags := f } ↔ Returns abi r a := by
  simp only [Returns, returnsTo, h.1, restores_congr abi r h.2]

theorem or_saRestorer (f : Flags) : (f ||| saRestorer).has saRestorer ∧
    ((f ||| saRestorer).has saSiginfo ↔ f.has saSiginfo) := by
  rw [has_saRestorer, has_saSiginfo, has_saSiginfo, saRestorer, getLsbD_or_bit (by decide),
    getLsbD_or_bit (by decide)]
  simp

theorem returnsTo_of_has {a : Sigaction M} (h : a.saFlags.has saRestorer) :
    returnsTo abi r a = some a.saRestorer := if_pos h

theorem returns_kernelNewAction (a : Sigaction M) :
    Returns abi r (kernelNewAction abi r a) ↔ Fits abi r a := by
  obtain ⟨hflag, hinfo⟩ := or_saRestorer a.saFlags
  by_cases h : a.saFlags.has saRestorer
  · have hsame : kernelNewAction abi r a = a := by cases abi <;> simp [kernelNewAction, h]
    simp [hsame, Returns, Fits, returnsTo_of_has abi r h, h]
  · refine iff_of_true ?_ (.inr (.inr (fun hr => absurd hr h)))
    refine .inr (.inr ?_)
    cases abi with
    | aarch64 => exact ⟨r.vdso, if_neg h, r.rtSigreturn_vdso⟩
    | lp64 =>
      refine ⟨r.restoreRt, ?_, r.rtSigreturn_restoreRt⟩
      simp [kernelNewAction, h, returnsTo, hflag]
    | ilp32 =>
      by_cases hs : a.saFlags.has saSiginfo
      · refine ⟨r.restoreRt, ?_, ?_⟩
        · simp [kernelNewAction, h, returnsTo, hflag, hinfo, hs]
        · simpa [kernelNewAction, h, Restores, hinfo, hs] using r.rtSigreturn_restoreRt
      · refine ⟨r.restore, ?_, ?_⟩
        · simp [kernelNewAction, h, returnsTo, hflag, hinfo, hs]
        · simpa [kernelNewAction, h, Restores, hinfo, hs] using r.sigreturn_restore

theorem fits_of_returns {a : Sigaction M} (h : Returns abi r a) : Fits abi r a := by
  refine h.imp_right (Or.imp_right ?_)
  rintro ⟨p, hp, hrestores⟩ hflag
  rw [returnsTo_of_has abi r hflag] at hp
  exact Option.some.inj hp ▸ hrestores

variable {abi} {r} {clean} {empty} {t : Table M}

def AllReturn (abi : Abi) (r : Restorers) (t : Table M) : Prop := ∀ sig, Returns abi r (t sig)

theorem mySigaction_table (junk : Sigaction M) (sig : Int) (newAction : Option (Sigaction M)) :
    (mySigaction abi r clean junk t sig newAction).2.2 =
      (kernelSigaction clean t sig (newAction.map (kernelNewAction abi r))).2.2 := by
  unfold mySigaction
  cases abi <;> rfl

theorem allReturn_sigaction (h : AllReturn abi r t) (junk : Sigaction M) (sig : Int)
    (a : Sigaction M) :
    AllReturn abi r (mySigaction abi r clean junk t sig (some a)).2.2 ↔
      (Settable sig → Fits abi r a) := by
  rw [mySigaction_table, Option.map_some]
  unfold kernelSigaction
  by_cases hs : Settable sig
  · simp only [hs, if_true, forall_const]
    rw [← returns_kernelNewAction]
    constructor
    · intro hall
      have hsig := hall sig
      rwa [Function.update_self] at hsig
    · intro hret n
      by_cases hn : n = sig
      · subst hn
        rw [Function.update_self]
        exact hret
      · rw [Function.update_of_ne hn]
        exact h n
  · simp only [hs, if_false, false_imp_iff, iff_true]
    exact h

theorem query_returns (h : AllReturn abi r t) (junk : Sigaction M) {sig : Int} (hs : Known sig) :
    (mySigaction abi r clean junk t sig none).2.1.getD junk = t sig := by
  unfold mySigaction kernelSigaction
  simp only [Option.map_none, hs, if_true]
  cases abi <;> rfl

theorem mySignal_table (junk : Sigaction M) (signum : Int) (handler : Nat) :
    (mySignal abi r clean empty junk t signum handler).2 =
      (mySigaction abi r clean junk t signum (some { junk with
        saMask := empty, saHandler := handler, saFlags := saRestart })).2.2 := by
  unfold mySignal my_Signal
  dsimp only
  split <;> simp_all

theorem allReturn_signal (h : AllReturn abi r t) (junk : Sigaction M) (signum : Int)
    (handler : Nat) : AllReturn abi r (mySignal abi r clean empty junk t signum handler).2 := by
  rw [mySignal_table, allReturn_sigaction h]
  intro _
  have hno : ¬ saRestart.has saRestorer := by
    rw [has_saRestorer]
    decide
  exact .inr (.inr (fun hflag => absurd hflag hno))

theorem allReturn_siginterrupt (h : AllReturn abi r t) (junk : Sigaction M) (sig : Int)
    (flag : Bool) : AllReturn abi r (mySiginterrupt abi r clean junk t sig flag).2 := by
  unfold mySiginterrupt
  dsimp only
  rw [allReturn_sigaction h]
  intro hs
  rw [query_returns h junk hs.1]
  apply fits_of_returns
  cases flag with
  | true =>
    rw [if_pos rfl]
    exact (returns_setFlags abi r (t sig) (alike_restart (t sig).saFlags true)).mpr (h sig)
  | false =>
    rw [if_neg Bool.false_ne_true]
    exact (returns_setFlags abi r (t sig) (alike_restart (t sig).saFlags false)).mpr (h sig)

theorem allReturn_step_iff (t : Table M) (call : Call M) (u : Table M) (h : AllReturn abi r t)
    (hu : step abi r clean empty t call = some u) : AllReturn abi r u ↔ FitsCall abi r call := by
  cases call with
  | sigaction junk sig newAction =>
    cases hu
    cases newAction with
    | some a => exact allReturn_sigaction h junk sig a
    | none =>
      rw [mySigaction_table]
      unfold kernelSigaction
      simp only [Option.map_none]
      split <;> exact iff_of_true h trivial
  | signal junk signum handler =>
    cases hu
    exact iff_of_true (allReturn_signal h junk signum handler) trivial
  | siginterrupt junk sig flag =>
    cases hu
    exact iff_of_true (allReturn_siginterrupt h junk sig flag) trivial

/-- Through any calls of `my_sigaction`, `my_signal` and `my_siginterrupt`, every
handler that is called can return, exactly if no call gives a restorer that does
not fit its own flags: the others get the one that does, and keep it. -/
theorem handlers_return_iff (abi : Abi) (r : Restorers) (clean : M → M) (empty : M) (t : Table M)
    (calls : List (Call M)) (h : AllReturn abi r t) :
    Always (step abi r clean empty) (AllReturn abi r) t calls ↔
      Guarded (step abi r clean empty) (fun _ call => FitsCall abi r call) t calls :=
  always_iff_guarded_of_iff (allReturn_step_iff) h
    (isSome_exec (fun s a => by cases a <;> rfl) t calls)

def restorers : Restorers where
  restore := 64
  restoreRt := 72
  vdso := 80
  sigreturn p := p = 64
  rtSigreturn p := p = 72 ∨ p = 80
  sigreturn_restore := rfl
  rtSigreturn_restoreRt := .inl rfl
  rtSigreturn_vdso := .inr rfl

/-- A handler is installed, and then again from what was read, with `SA_SIGINFO`:
the restorer stays the one of the first. -/
theorem handlers_return_iff_reinstalled :
    ¬ Always (step .ilp32 restorers id ()) (AllReturn .ilp32 restorers)
      (fun _ => ⟨0#32, sigDfl, (), 0⟩)
      [.signal ⟨0#32, 0, (), 0⟩ 10 4096,
        .sigaction ⟨0#32, 0, (), 0⟩ 10 (some ⟨saRestorer ||| saSiginfo, 4096, (), 64⟩)] := by
  rw [handlers_return_iff .ilp32 restorers id () _ _ (fun _ => .inl rfl)]
  intro hg
  have hfit := hg [.signal ⟨0#32, 0, (), 0⟩ 10 4096] _ _ List.prefix_rfl rfl (by decide)
  obtain h | h | h := hfit
  · cases h
  · cases h
  · obtain h | h : (64 : Nat) = 72 ∨ (64 : Nat) = 80 := h (by decide)
    · cases h
    · cases h

end FakeLibc.SignalActions

import FakeLibc.Lib.Arm
import FakeLibc.SignalMask

namespace FakeLibc.SetJmp

open FakeLibc.Lib.WordMemory FakeLibc.Lib.Arm FakeLibc.SignalMask

def jbSigflag : Nat := 0
def jbSigmask : Nat := jbSigflag + 1
def jbFloatBase : Nat := jbSigmask + 1
def jbFloatState : Nat := jbFloatBase + (15 - 8 + 1) * 2
def jbCoreBase : Nat := jbFloatState + 1

/-- The words of a `jmp_buf` that are in use. -/
def jbWords : Nat := jbCoreBase + 11

def coreRegs : List Reg := [.r4, .r5, .r6, .r7, .r8, .r9, .r10, .r11, .r12, .sp, .lr]

def floatRegs : List DReg := [8, 9, 10, 11, 12, 13, 14, 15]

inductive Label
  | mySigsetjmp
  | sigsetjmp1
  | siglongjmp1
  deriving DecidableEq

inductive Fn
  | mySigblock
  | mySigsetmask
  | myLongjmperror
  deriving DecidableEq

abbrev Asm := Code Label Fn

def mySetjmp : Asm := [
  (.al, .movImm .r1 1),
  (.al, .b .mySigsetjmp)]

def my_Setjmp : Asm := [
  (.al, .movImm .r1 0),
  (.al, .b .mySigsetjmp)]

def mySigsetjmp : Asm := [
  (.al, .str .r1 .r0 (jbSigflag * 4)),
  (.al, .teq .r1 0),
  (.eq, .b .sigsetjmp1),
  (.al, .stmfd [.r0, .lr]),
  (.al, .movImm .r0 0),
  (.al, .bl .mySigblock),
  (.al, .mov .r1 .r0),
  (.al, .ldmfd [.r0, .lr]),
  (.al, .str .r1 .r0 (jbSigmask * 4)),
  -- label 1
  (.al, .add .r1 .r0 (jbCoreBase * 4)),
  (.al, .stmia .r1 coreRegs),
  (.al, .add .r1 .r0 (jbFloatBase * 4)),
  (.al, .vstmia .r1 floatRegs),
  (.al, .fmrx .r1),
  (.al, .str .r1 .r0 (jbFloatState * 4)),
  (.al, .movImm .r0 0),
  (.al, .bx .lr)]

def mySiglongjmp : Asm := [
  (.al, .ldr .r2 .r0 (jbSigflag * 4)),
  (.al, .teq .r2 0),
  (.eq, .b .siglongjmp1),
  (.al, .stmfd [.r0, .r1, .lr]),
  (.al, .sub .sp .sp 4),
  (.al, .ldr .r0 .r0 (jbSigmask * 4)),
  (.al, .bl .mySigsetmask),
  (.al, .add .sp .sp 4),
  (.al, .ldmfd [.r0, .r1, .lr]),
  -- label 1
  (.al, .add .r2 .r0 (jbFloatBase * 4)),
  (.al, .vldmia .r2 floatRegs),
  (.al, .ldr .r2 .r0 (jbFloatState * 4)),
  (.al, .fmxr .r2),
  (.al, .add .r2 .r0 (jbCoreBase * 4)),
  (.al, .ldmia .r2 coreRegs),
  (.al, .teq .sp 0),
  (.ne, .teq .lr 0),
  (.eq, .bl .myLongjmperror),
  (.al, .mov .r0 .r1),
  (.al, .teq .r0 0),
  (.eq, .movImm .r0 1),
  (.al, .bx .lr)]

def code : Asm := mySetjmp ++ my_Setjmp ++ mySigsetjmp ++ mySiglongjmp

def place : Label → Nat
  | .mySigsetjmp => 4
  | .sigsetjmp1 => 13
  | .siglongjmp1 => 30

/-- The four functions where the linker has put them. -/
def program (base : Word) : Program Label Fn where
  code := code
  base := base
  label := place
  length_code := by decide

def mySetjmpEntry : Nat := 0
def my_SetjmpEntry : Nat := 2
def mySigsetjmpEntry : Nat := 4

/-- Also `my_longjmp` and `my__longjmp`. -/
def mySiglongjmpEntry : Nat := 21

abbrev Machine := State Blocked

/-- What a function that was called leaves as it was: it may write the `n`
words below the stack pointer. -/
structure Kept (n : Nat) (s t : Machine) : Prop where
  reg : ∀ r ∈ coreRegs, r ≠ .r12 → r ≠ .lr → t.reg r = s.reg r
  vfp : ∀ d ∈ floatRegs, t.vfp d = s.vfp d
  mem : ∀ x, ¬ Inside (below (s.reg .sp) n) n x → t.mem x = s.mem x

/-- The C functions as they were compiled: what they leave in the registers and
in their `depth` words of stack is any that the calling convention allows.
`ndebug` says that `assert` does nothing. -/
structure Compiled where
  sigset : KernelSigset
  depth : Nat
  depth_small : depth < 2 ^ 20
  clobber : Fn → Machine → Machine
  kept : ∀ f s, Kept depth s (clobber f s)
  ndebug : Bool

def Compiled.env (c : Compiled) : Program.Env Fn Blocked
  | .mySigblock, s =>
    let r := SignalMask.mySigblock c.sigset (s.reg .r0) s.world
    some { (c.clobber .mySigblock s).set .r0 r.1 with world := r.2 }
  | .mySigsetmask, s =>
    let r := SignalMask.mySigsetmask c.sigset (s.reg .r0) s.world
    some { (c.clobber .mySigsetmask s).set .r0 r.1 with world := r.2 }
  | .myLongjmperror, s => if c.ndebug then some s else none

/-- What `my_siglongjmp` brings back. -/
structure Context where
  reg : Reg → Word
  vfp : DReg → BitVec 64
  fpscr : Word
  mask : Option Word

structure Context.In (x : Context) (m : Memory) (env : Word) : Prop where
  core : ∀ r ∈ coreRegs, m (cell env (jbCoreBase + coreRegs.idxOf r)) = x.reg r
  float : ∀ d ∈ floatRegs,
    m (cell env (jbFloatBase + 2 * floatRegs.idxOf d)) = (x.vfp d).extractLsb' 0 32 ∧
    m (cell env (jbFloatBase + 2 * floatRegs.idxOf d + 1)) = (x.vfp d).extractLsb' 32 32
  fpscr : m (cell env jbFloatState) = x.fpscr
  mask : x.mask = if m (cell env jbSigflag) = 0#32 then none else some (m (cell env jbSigmask))

end FakeLibc.SetJmp

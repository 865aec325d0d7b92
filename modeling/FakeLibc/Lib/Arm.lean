import FakeLibc.Lib.WordMemory
import Mathlib.Logic.Relation

namespace FakeLibc.Lib.Arm

open FakeLibc.Lib.WordMemory

inductive Reg
  | r0 | r1 | r2 | r3 | r4 | r5 | r6 | r7 | r8 | r9 | r10 | r11 | r12 | sp | lr
  deriving DecidableEq

abbrev DReg := Fin 16

inductive Cond
  | al
  | eq
  | ne
  deriving DecidableEq

/-- The instructions, over the labels `L` of the program and the names `F` of
the functions it calls. Offsets are in bytes. -/
inductive Instr (L F : Type*)
  | movImm (rd : Reg) (imm : Nat)
  | mov (rd rm : Reg)
  | add (rd rn : Reg) (imm : Nat)
  | sub (rd rn : Reg) (imm : Nat)
  | teq (rn : Reg) (imm : Nat)
  | ldr (rt rn : Reg) (off : Nat)
  | str (rt rn : Reg) (off : Nat)
  | ldmia (rn : Reg) (rs : List Reg)
  | stmia (rn : Reg) (rs : List Reg)
  | ldmfd (rs : List Reg)
  | stmfd (rs : List Reg)
  | vldmia (rn : Reg) (ds : List DReg)
  | vstmia (rn : Reg) (ds : List DReg)
  | fmrx (rt : Reg)
  | fmxr (rt : Reg)
  | b (l : L)
  | bl (f : F)
  | bx (rm : Reg)
  deriving DecidableEq

/-- `world` is what the called functions work on and no instruction reads. -/
structure State (W : Type*) where
  reg : Reg → Word
  vfp : DReg → BitVec 64
  fpscr : Word
  z : Bool
  mem : Memory
  pc : Word
  world : W

variable {L F W : Type*}

def Cond.holds : Cond → Bool → Bool
  | .al, _ => true
  | .eq, z => z
  | .ne, z => !z

def State.set (s : State W) (r : Reg) (v : Word) : State W :=
  { s with reg := Function.update s.reg r v }

def loadRegs (m : Memory) (a : Word) (rs : List Reg) (reg : Reg → Word) : Reg → Word :=
  fun r => if r ∈ rs then m (cell a (rs.idxOf r)) else reg r

def loadDRegs (m : Memory) (a : Word) (ds : List DReg) (vfp : DReg → BitVec 64) :
    DReg → BitVec 64 :=
  fun d => if d ∈ ds then m (cell a (2 * ds.idxOf d + 1)) ++ m (cell a (2 * ds.idxOf d)) else vfp d

def State.goto (s : State W) (a : Word) : State W := { s with pc := a }

def halves (v : BitVec 64) : List Word := [v.extractLsb' 0 32, v.extractLsb' 32 32]

/-- What an instruction other than a branch does, but for the program counter.
An access to an address that four does not divide is `none`. -/
def Instr.exec (i : Instr L F) (s : State W) : Option (State W) :=
  match i with
  | movImm rd imm => some (s.set rd (BitVec.ofNat 32 imm))
  | mov rd rm => some (s.set rd (s.reg rm))
  | add rd rn imm => some (s.set rd (s.reg rn + BitVec.ofNat 32 imm))
  | sub rd rn imm => some (s.set rd (s.reg rn - BitVec.ofNat 32 imm))
  | teq rn imm => some { s with z := s.reg rn == BitVec.ofNat 32 imm }
  | ldr rt rn off =>
    let a := s.reg rn + BitVec.ofNat 32 off
    if Aligned a then some (s.set rt (s.mem a)) else none
  | str rt rn off =>
    let a := s.reg rn + BitVec.ofNat 32 off
    if Aligned a then some { s with mem := store s.mem a [s.reg rt] } else none
  | ldmia rn rs =>
    if Aligned (s.reg rn) then some { s with reg := loadRegs s.mem (s.reg rn) rs s.reg } else none
  | stmia rn rs =>
    if Aligned (s.reg rn) then some { s with mem := store s.mem (s.reg rn) (rs.map s.reg) }
    else none
  | ldmfd rs =>
    let a := s.reg .sp
    if Aligned a then
      some { s with reg := loadRegs s.mem a rs (Function.update s.reg .sp (cell a rs.length)) }
    else none
  | stmfd rs =>
    let a := s.reg .sp - BitVec.ofNat 32 (4 * rs.length)
    if Aligned a then some { s.set .sp a with mem := store s.mem a (rs.map s.reg) } else none
  | vldmia rn ds =>
    if Aligned (s.reg rn) then some { s with vfp := loadDRegs s.mem (s.reg rn) ds s.vfp } else none
  | vstmia rn ds =>
    if Aligned (s.reg rn) then
      some { s with mem := store s.mem (s.reg rn) (ds.flatMap (fun d => halves (s.vfp d))) }
    else none
  | fmrx rt => some (s.set rt s.fpscr)
  | fmxr rt => some { s with fpscr := s.reg rt }
  | b _ | bl _ | bx _ => none

abbrev Code (L F : Type*) := List (Cond × Instr L F)

structure Program (L F : Type*) where
  code : Code L F
  base : Word
  label : L → Nat
  length_code : code.length < 2 ^ 30

namespace Program

variable (p : Program L F)

def addr (k : Nat) : Word := cell p.base k

def fetch (pc : Word) : Option (Cond × Instr L F) :=
  if (pc - p.base).toNat % 4 = 0 then p.code[(pc - p.base).toNat / 4]? else none

/-- The functions that are called, as what they make of the machine. A function
that does not come back is `none`. -/
abbrev Env (F W : Type*) := F → State W → Option (State W)

def perform (env : Env F W) (s : State W) : Instr L F → Option (State W)
  | .b l => some (s.goto (p.addr (p.label l)))
  | .bl f => (env f (s.set .lr (s.pc + 4))).map (fun t => t.goto (s.pc + 4))
  | .bx rm => some (s.goto (s.reg rm))
  | i => (i.exec s).map (fun t => t.goto (s.pc + 4))

/-- One instruction. There is none where the machine has left the program, on
an access that is not aligned, and in a call that does not come back. -/
def step (env : Env F W) (s : State W) : Option (State W) :=
  (p.fetch s.pc).bind (fun ci =>
    if ci.1.holds s.z then p.perform env s ci.2 else some (s.goto (s.pc + 4)))

def Reaches (env : Env F W) : State W → State W → Prop :=
  Relation.ReflTransGen (fun s t => p.step env s = some t)

/-- The machine gets out of the program, in the state `t`. -/
def Leaves (env : Env F W) (s t : State W) : Prop := p.Reaches env s t ∧ p.fetch t.pc = none

/-- The next instruction is a call of `f`. -/
def Calls (f : F) (s : State W) : Prop :=
  ∃ c, p.fetch s.pc = some (c, .bl f) ∧ c.holds s.z = true

end Program

def run : Code L F → State W → Option (State W)
  | [], s => some s
  | ci :: is, s => (if ci.1.holds s.z then ci.2.exec s else some s).bind (run is)

section State

variable (s : State W) (r : Reg) (v a : Word)

@[simp] theorem set_reg : (s.set r v).reg = Function.update s.reg r v := rfl
@[simp] theorem set_vfp : (s.set r v).vfp = s.vfp := rfl
@[simp] theorem set_fpscr : (s.set r v).fpscr = s.fpscr := rfl
@[simp] theorem set_z : (s.set r v).z = s.z := rfl
@[simp] theorem set_mem : (s.set r v).mem = s.mem := rfl
@[simp] theorem set_pc : (s.set r v).pc = s.pc := rfl
@[simp] theorem set_world : (s.set r v).world = s.world := rfl
@[simp] theorem goto_reg : (s.goto a).reg = s.reg := rfl
@[simp] theorem goto_vfp : (s.goto a).vfp = s.vfp := rfl
@[simp] theorem goto_fpscr : (s.goto a).fpscr = s.fpscr := rfl
@[simp] theorem goto_z : (s.goto a).z = s.z := rfl
@[simp] theorem goto_mem : (s.goto a).mem = s.mem := rfl
@[simp] theorem goto_pc : (s.goto a).pc = a := rfl
@[simp] theorem goto_world : (s.goto a).world = s.world := rfl

end State

theorem exec_goto (i : Instr L F) (s : State W) (a : Word) :
    i.exec (s.goto a) = (i.exec s).map (fun t => t.goto a) := by
  cases i <;> simp only [Instr.exec, goto_reg, goto_mem, goto_vfp, goto_fpscr,
    apply_ite (Option.map (fun t : State W => t.goto a))] <;> rfl

theorem run_goto (is : Code L F) (s : State W) (a : Word) :
    run is (s.goto a) = (run is s).map (fun t => t.goto a) := by
  induction is generalizing s with
  | nil => rfl
  | cons ci is ih =>
    by_cases hc : ci.1.holds s.z = true
    · simp only [run, goto_z, if_pos hc, exec_goto]
      cases ci.2.exec s with
      | none => rfl
      | some t => exact ih t
    · rw [run, run, goto_z, if_neg hc, if_neg hc]
      exact ih s

namespace Program

variable (p : Program L F) (env : Env F W)

theorem addr_succ (k : Nat) : p.addr k + 4 = p.addr (k + 1) :=
  cell_cell p.base k 1

theorem fetch_addr {k : Nat} (hk : k < 2 ^ 30) : p.fetch (p.addr k) = p.code[k]? := by
  rw [fetch, addr, toNat_cell_sub p.base hk, if_pos (by omega),
    Nat.mul_div_cancel_left k (by omega)]

variable {p} {env} {s t : State W} {k : Nat} {c : Cond} {i : Instr L F}

theorem fetch_some {pc : Word} {ci : Cond × Instr L F} (h : p.fetch pc = some ci) :
    ∃ k, p.code[k]? = some ci ∧ pc = p.addr k := by
  obtain ⟨hmod, h⟩ := Option.ite_none_right_eq_some.mp h
  refine ⟨_, h, ?_⟩
  have hfour : 4 * ((pc - p.base).toNat / 4) = (pc - p.base).toNat := by omega
  rw [addr, cell, hfour, BitVec.ofNat_toNat, BitVec.setWidth_eq, BitVec.add_comm,
    BitVec.sub_add_cancel]

theorem fetch_at (hat : p.code[k]? = some (c, i)) (hpc : s.pc = p.addr k) :
    p.fetch s.pc = some (c, i) := by
  obtain ⟨hk, -⟩ := List.getElem?_eq_some_iff.mp hat
  have hlen := p.length_code
  rw [hpc, p.fetch_addr (by omega), hat]

theorem perform_exec (h : i.exec s = some t) : p.perform env s i = some (t.goto (s.pc + 4)) := by
  cases i with
  | b l => cases h
  | bl f => cases h
  | bx rm => cases h
  | _ => simp only [perform, h, Option.map_some]

theorem step_held (hat : p.code[k]? = some (c, i)) (hpc : s.pc = p.addr k)
    (hc : c.holds s.z = true) : p.step env s = p.perform env s i := by
  rw [step, fetch_at hat hpc, Option.bind_some, if_pos hc]

theorem step_skipped (hat : p.code[k]? = some (c, i)) (hpc : s.pc = p.addr k)
    (hc : c.holds s.z = false) : p.step env s = some (s.goto (p.addr (k + 1))) := by
  rw [step, fetch_at hat hpc, Option.bind_some, if_neg (by simp [hc]), hpc, addr_succ]

theorem step_b {l : L} (hat : p.code[k]? = some (c, .b l)) (hpc : s.pc = p.addr k)
    (hc : c.holds s.z = true) : p.step env s = some (s.goto (p.addr (p.label l))) :=
  step_held hat hpc hc

theorem step_bl {f : F} (hat : p.code[k]? = some (c, .bl f)) (hpc : s.pc = p.addr k)
    (hc : c.holds s.z = true) :
    p.step env s = (env f (s.set .lr (p.addr (k + 1)))).map (fun t => t.goto (p.addr (k + 1))) := by
  rw [step_held hat hpc hc, perform, hpc, addr_succ]

theorem step_bx {r : Reg} (hat : p.code[k]? = some (c, .bx r)) (hpc : s.pc = p.addr k)
    (hc : c.holds s.z = true) : p.step env s = some (s.goto (s.reg r)) :=
  step_held hat hpc hc

theorem step_left (h : p.fetch s.pc = none) : p.step env s = none := by
  rw [step, h, Option.bind_none]

theorem Reaches.head {u : State W} (h : p.step env s = some u) (hu : p.Reaches env u t) :
    p.Reaches env s t :=
  Relation.ReflTransGen.head h hu

theorem Reaches.trans {u : State W} (h : p.Reaches env s u) (hu : p.Reaches env u t) :
    p.Reaches env s t :=
  Relation.ReflTransGen.trans h hu

theorem reaches_run {is : Code L F} (hat : is <+: p.code.drop k) (hpc : s.pc = p.addr k)
    (hrun : run is s = some t) : p.Reaches env s (t.goto (p.addr (k + is.length))) := by
  induction is generalizing k s t with
  | nil =>
    obtain rfl : s = t := Option.some.inj hrun
    have hs : s.goto (p.addr (k + ([] : Code L F).length)) = s := by
      rw [List.length_nil, Nat.add_zero, ← hpc]
      rfl
    rw [hs]
    exact Relation.ReflTransGen.refl
  | cons ci is ih =>
    obtain ⟨rest, hrest⟩ := hat
    have hci : p.code[k]? = some (ci.1, ci.2) := by
      have h := congrArg List.head? hrest
      simpa [List.head?_drop] using h.symm
    have hat' : is <+: p.code.drop (k + 1) := by
      refine ⟨rest, ?_⟩
      have h := congrArg List.tail hrest
      simpa [List.tail_drop] using h
    obtain ⟨u, hu, hrun⟩ := Option.bind_eq_some_iff.mp hrun
    have hstep : p.step env s = some (u.goto (p.addr (k + 1))) := by
      by_cases hc : ci.1.holds s.z = true
      · rw [if_pos hc] at hu
        rw [step_held hci hpc hc, perform_exec hu, hpc, addr_succ]
      · rw [if_neg hc] at hu
        rw [step_skipped hci hpc (by simpa using hc), Option.some.inj hu]
    have hgo : run is (u.goto (p.addr (k + 1))) = some (t.goto (p.addr (k + 1))) := by
      rw [run_goto, hrun, Option.map_some]
    have h := ih hat' (goto_pc u _) hgo
    rw [List.length_cons, Nat.add_comm is.length, ← Nat.add_assoc]
    exact Reaches.head hstep h

theorem Leaves.from {u : State W} (ht : p.Leaves env s t) (hu : p.Reaches env s u) :
    p.Leaves env u t := by
  obtain ⟨hst, hpt⟩ := ht
  refine ⟨?_, hpt⟩
  have hfun : Relator.RightUnique (fun s t : State W => p.step env s = some t) := by
    intro a b d hb hd
    exact Option.some.inj (hb.symm.trans hd)
  rcases Relation.ReflTransGen.total_of_right_unique hfun hst hu with htu | hut
  · rcases Relation.ReflTransGen.cases_head htu with rfl | ⟨v, hv, -⟩
    · exact .refl
    · rw [step_left hpt] at hv
      cases hv
  · exact hut

theorem Leaves.unique {u : State W} (ht : p.Leaves env s t) (hu : p.Leaves env s u) : t = u := by
  obtain ⟨hut, -⟩ := ht.from hu.1
  rcases Relation.ReflTransGen.cases_head hut with rfl | ⟨v, hv, -⟩
  · rfl
  · rw [step_left hu.2] at hv
    cases hv

theorem not_leaves_of_inv {I : State W → Prop}
    (hstep : ∀ s t, I s → p.step env s = some t → I t) (hin : ∀ s, I s → p.fetch s.pc ≠ none)
    (hs : I s) : ¬ p.Leaves env s t := by
  rintro ⟨hst, hpt⟩
  refine hin t ?_ hpt
  clear hpt
  induction hst with
  | refl => exact hs
  | tail _ h ih => exact hstep _ _ ih h

end Program

/-- A register that was stored with others is at its place among them. -/
theorem map_getElem_idxOf (rs : List Reg) (reg : Reg → Word) {r : Reg} (hr : r ∈ rs) :
    (rs.map reg)[rs.idxOf r]? = some (reg r) := by
  have hi := List.idxOf_lt_length_of_mem hr
  rw [List.getElem?_map, List.getElem?_eq_getElem hi, Option.map_some, List.getElem_idxOf]

theorem halves_append (v : BitVec 64) : v.extractLsb' 32 32 ++ v.extractLsb' 0 32 = v := by
  apply BitVec.eq_of_getLsbD_eq
  intro i hi
  rw [BitVec.getLsbD_append]
  by_cases h : i < 32
  · simp [h]
  · have hlt : i - 32 < 32 := by omega
    have hadd : 32 + (i - 32) = i := by omega
    simp [h, hlt, hadd]

theorem flatMap_halves (ds : List DReg) (vfp : DReg → BitVec 64) {d : DReg} (hd : d ∈ ds) :
    (ds.flatMap (fun d => halves (vfp d)))[2 * ds.idxOf d]? = some ((vfp d).extractLsb' 0 32) ∧
      (ds.flatMap (fun d => halves (vfp d)))[2 * ds.idxOf d + 1]? =
        some ((vfp d).extractLsb' 32 32) := by
  induction ds with
  | nil => cases hd
  | cons e ds ih =>
    by_cases he : e = d
    · subst he
      simp [halves]
    · have hm : d ∈ ds := (List.mem_cons.mp hd).resolve_left (Ne.symm he)
      have hidx : (e :: ds).idxOf d = ds.idxOf d + 1 := List.idxOf_cons_ne ds he
      rw [hidx, List.flatMap_cons, Nat.mul_succ]
      simpa [halves] using ih hm

@[simp] theorem length_flatMap_halves (ds : List DReg) (vfp : DReg → BitVec 64) :
    (ds.flatMap (fun d => halves (vfp d))).length = 2 * ds.length := by
  induction ds with
  | nil => rfl
  | cons d ds ih =>
    rw [List.flatMap_cons, List.length_append, ih, List.length_cons]
    simp only [halves, List.length_cons, List.length_nil]
    omega

end FakeLibc.Lib.Arm

import FakeLibc.SetJmp

namespace FakeLibc.SetJmp

open FakeLibc.Lib.WordMemory FakeLibc.Lib.Arm FakeLibc.SignalMask

def stretch (k n : Nat) : Asm := (code.drop k).take n

theorem stretch_at (base : Word) (k n : Nat) : stretch k n <+: (program base).code.drop k :=
  List.take_prefix n _

theorem offset_eq_cell (a : Word) (i : Nat) : a + BitVec.ofNat 32 (i * 4) = cell a i := by
  rw [cell, Nat.mul_comm]

theorem map_update {l : List Reg} {r : Reg} (h : r ∉ l) (reg : Reg → Word) (v : Word) :
    l.map (Function.update reg r v) = l.map reg := by
  apply List.map_congr_left
  intro q hq
  have hqr : q ≠ r := by
    rintro rfl
    exact h hq
  exact Function.update_of_ne hqr v reg

def saveRegs (env : Word) (reg : Reg → Word) (vfp : DReg → BitVec 64) (fpscr : Word)
    (m : Memory) : Memory :=
  store (store (store m (cell env jbCoreBase) (coreRegs.map reg)) (cell env jbFloatBase)
    (floatRegs.flatMap (fun d => halves (vfp d)))) (cell env jbFloatState) [fpscr]

def saved (s : Machine) : Machine :=
  { s with
    reg := Function.update (Function.update s.reg .r1 s.fpscr) .r0 0#32
    mem := saveRegs (s.reg .r0) s.reg s.vfp s.fpscr s.mem }

theorem run_saveRegs (s : Machine) (h : Aligned (s.reg .r0)) :
    run (stretch 13 7) s = some (saved s) := by
  have hr1 : Reg.r1 ∉ coreRegs := by decide
  have hr0 : Reg.r0 ≠ .r1 := by decide
  show run [(.al, .add .r1 .r0 (jbCoreBase * 4)), (.al, .stmia .r1 coreRegs),
    (.al, .add .r1 .r0 (jbFloatBase * 4)), (.al, .vstmia .r1 floatRegs), (.al, .fmrx .r1),
    (.al, .str .r1 .r0 (jbFloatState * 4)), (.al, .movImm .r0 0)] s = _
  simp only [run, Cond.holds, Instr.exec, if_true, offset_eq_cell, Option.bind_some,
    Function.update_self, Function.update_idem, Function.update_of_ne hr0, aligned_cell h,
    map_update hr1, State.set]
  rfl

theorem saved_reg (s : Machine) {r : Reg} (hr : r ∈ coreRegs) : (saved s).reg r = s.reg r := by
  have h0 : r ≠ .r0 := by
    rintro rfl
    revert hr
    decide
  have h1 : r ≠ .r1 := by
    rintro rfl
    revert hr
    decide
  show Function.update (Function.update s.reg .r1 s.fpscr) .r0 0#32 r = s.reg r
  rw [Function.update_of_ne h0, Function.update_of_ne h1]

section SaveRegs

variable (env : Word) (reg : Reg → Word) (vfp : DReg → BitVec 64) (fpscr : Word) (m : Memory)

theorem saveRegs_cell {k : Nat} (hk : k < 2 ^ 30) :
    saveRegs env reg vfp fpscr m (cell env k) =
      if k < jbFloatBase then m (cell env k)
      else if k < jbFloatState then
        ((floatRegs.flatMap (fun d => halves (vfp d)))[k - jbFloatBase]?).getD 0#32
      else if k = jbFloatState then fpscr
      else ((coreRegs.map reg)[k - jbCoreBase]?).getD (m (cell env k)) := by
  have hfs : jbFloatState = 18 := rfl
  have hcb : jbCoreBase = 19 := rfl
  have hfb : jbFloatBase = 2 := rfl
  have hfl : (floatRegs.flatMap (fun d => halves (vfp d))).length = 16 := by
    rw [length_flatMap_halves]
    rfl
  have hcl : (coreRegs.map reg).length = 11 := by
    rw [List.length_map]
    rfl
  unfold saveRegs
  rw [store_cell _ _ _ hk (by simp [hfs]), store_cell _ _ _ hk (by omega),
    store_cell _ _ _ hk (by omega), hfs, hcb, hfb]
  by_cases h2 : k < 2
  · rw [if_neg (by omega), if_neg (by omega), if_neg (by omega), if_pos h2]
  · rw [if_neg h2]
    by_cases h18 : k < 18
    · have hlt : k - 2 < (floatRegs.flatMap (fun d => halves (vfp d))).length := by omega
      rw [if_neg (by omega), if_pos (by omega), if_pos h18, List.getElem?_eq_getElem hlt]
      rfl
    · rw [if_neg h18]
      by_cases he : k = 18
      · subst he
        simp
      · have h19 : 19 ≤ k := by omega
        have hfn : (floatRegs.flatMap (fun d => halves (vfp d)))[k - 2]? = none :=
          List.getElem?_eq_none (by omega)
        have hsn : ([fpscr] : List Word)[k - 18]? = none :=
          List.getElem?_eq_none (by simp only [List.length_singleton]; omega)
        rw [if_neg he, if_pos (by omega), if_pos (by omega), if_pos h19, hfn, hsn,
          Option.getD_none, Option.getD_none]

theorem saveRegs_head {i : Nat} (hi : i < jbFloatBase) :
    saveRegs env reg vfp fpscr m (cell env i) = m (cell env i) := by
  have hfb : jbFloatBase = 2 := rfl
  rw [saveRegs_cell _ _ _ _ _ (by omega), if_pos hi]

theorem saveRegs_float {i : Nat} (hi : i < 16) :
    saveRegs env reg vfp fpscr m (cell env (jbFloatBase + i)) =
      ((floatRegs.flatMap (fun d => halves (vfp d)))[i]?).getD 0#32 := by
  have hfb : jbFloatBase = 2 := rfl
  have hfs : jbFloatState = 18 := rfl
  rw [saveRegs_cell _ _ _ _ _ (by omega), if_neg (by omega), if_pos (by omega),
    Nat.add_sub_cancel_left]

theorem saveRegs_core {i : Nat} (hi : i < 11) :
    saveRegs env reg vfp fpscr m (cell env (jbCoreBase + i)) =
      ((coreRegs.map reg)[i]?).getD (m (cell env (jbCoreBase + i))) := by
  have hcb : jbCoreBase = 19 := rfl
  have hfb : jbFloatBase = 2 := rfl
  have hfs : jbFloatState = 18 := rfl
  rw [saveRegs_cell _ _ _ _ _ (by omega), if_neg (by omega), if_neg (by omega),
    if_neg (by omega), Nat.add_sub_cancel_left]

theorem saveRegs_outside {x : Word} (hx : ¬ Inside env jbWords x) :
    saveRegs env reg vfp fpscr m x = m x := by
  have hfl : (floatRegs.flatMap (fun d => halves (vfp d))).length = 16 := by
    rw [length_flatMap_halves]
    rfl
  have hcl : (coreRegs.map reg).length = 11 := by
    rw [List.length_map]
    rfl
  unfold saveRegs
  rw [store_outside, store_outside, store_outside]
  · exact fun h => hx (h.of_part (by rw [hcl]; decide) (by decide))
  · exact fun h => hx (h.of_part (by rw [hfl]; decide) (by decide))
  · exact fun h => hx (h.of_part (by rw [List.length_singleton]; decide) (by decide))

/-- What was written is the context of the registers, with the mask that the
first two words of the buffer say. -/
theorem saveRegs_in : Context.In
    { reg := reg, vfp := vfp, fpscr := fpscr
      mask := if m (cell env jbSigflag) = 0#32 then none else some (m (cell env jbSigmask)) }
    (saveRegs env reg vfp fpscr m) env where
  core := by
    intro r hr
    have hi := List.idxOf_lt_length_of_mem hr
    have hlen : coreRegs.length = 11 := rfl
    rw [saveRegs_core _ _ _ _ _ (by omega), map_getElem_idxOf _ _ hr, Option.getD_some]
  float := by
    intro d hd
    have hi := List.idxOf_lt_length_of_mem hd
    have hlen : floatRegs.length = 8 := rfl
    obtain ⟨hlo, hhi⟩ := flatMap_halves floatRegs vfp hd
    constructor
    · rw [saveRegs_float _ _ _ _ _ (by omega), hlo, Option.getD_some]
    · rw [Nat.add_assoc, saveRegs_float _ _ _ _ _ (by omega), hhi, Option.getD_some]
  fpscr := by
    rw [saveRegs_cell _ _ _ _ _ (by decide), if_neg (by decide), if_neg (by decide), if_pos rfl]
  mask := by
    rw [saveRegs_head _ _ _ _ _ (by decide), saveRegs_head _ _ _ _ _ (by decide)]

end SaveRegs

def contextOf (s : Machine) (mask : Option Word) : Context where
  reg := s.reg
  vfp := s.vfp
  fpscr := s.fpscr
  mask := mask

theorem Context.In.congr {x y : Context} {m : Memory} {env : Word} (h : x.In m env)
    (hreg : ∀ r ∈ coreRegs, y.reg r = x.reg r) (hvfp : y.vfp = x.vfp)
    (hfpscr : y.fpscr = x.fpscr) (hmask : y.mask = x.mask) : y.In m env where
  core := fun r hr => (h.core r hr).trans (hreg r hr).symm
  float := fun d hd => hvfp ▸ h.float d hd
  fpscr := h.fpscr.trans hfpscr.symm
  mask := hmask.trans h.mask

variable {c : Compiled} {base : Word} {s : Machine}

theorem reaches_saved (hpc : s.pc = (program base).addr 13) (h : Aligned (s.reg .r0)) :
    (program base).Reaches c.env s ((saved s).goto (s.reg .lr)) := by
  have hrun : (program base).Reaches c.env s ((saved s).goto ((program base).addr 20)) :=
    Program.reaches_run (stretch_at base 13 7) hpc (run_saveRegs s h)
  have hbx : (program base).step c.env ((saved s).goto ((program base).addr 20)) =
      some ((saved s).goto (s.reg .lr)) := by
    rw [← saved_reg s (r := .lr) (by decide)]
    exact Program.step_bx (p := program base) (s := (saved s).goto _) (k := 20) rfl rfl rfl
  exact hrun.trans (.single hbx)

def flagged (s : Machine) : Machine :=
  { s with
    mem := store s.mem (cell (s.reg .r0) jbSigflag) [s.reg .r1]
    z := s.reg .r1 == 0#32 }

theorem run_saveFlag (s : Machine) (h : Aligned (s.reg .r0)) :
    run (stretch 4 2) s = some (flagged s) := by
  show run [(.al, .str .r1 .r0 (jbSigflag * 4)), (.al, .teq .r1 0)] s = _
  simp only [run, Cond.holds, Instr.exec, if_true, offset_eq_cell, Option.bind_some,
    aligned_cell h]
  rfl

def pushed (s : Machine) : Machine :=
  { s with
    reg := Function.update (Function.update s.reg .sp (below (s.reg .sp) 2)) .r0 0#32
    mem := store s.mem (below (s.reg .sp) 2) [s.reg .r0, s.reg .lr] }

theorem run_push (s : Machine) (h : Aligned (s.reg .sp)) :
    run (stretch 7 2) s = some (pushed s) := by
  have ha : Aligned (s.reg .sp - BitVec.ofNat 32 (4 * [Reg.r0, Reg.lr].length)) :=
    aligned_below h 2
  show run [(.al, .stmfd [.r0, .lr]), (.al, .movImm .r0 0)] s = _
  simp only [run, Cond.holds, Instr.exec, if_true, Option.bind_some, if_pos ha, State.set]
  rfl

def masked (s : Machine) : Machine :=
  let reg := loadRegs s.mem (s.reg .sp) [.r0, .lr]
    (Function.update (Function.update s.reg .r1 (s.reg .r0)) .sp (cell (s.reg .sp) 2))
  { s with
    reg := reg
    mem := store s.mem (cell (reg .r0) jbSigmask) [s.reg .r0] }

theorem run_keepMask (s : Machine) (h : Aligned (s.reg .sp))
    (he : Aligned (s.mem (s.reg .sp))) : run (stretch 10 3) s = some (masked s) := by
  have hsp : Reg.sp ≠ .r1 := by decide
  have he' : Aligned (cell (s.mem (cell (s.reg .sp) 0)) jbSigmask) :=
    aligned_cell (by rwa [cell_zero]) _
  show run [(.al, .mov .r1 .r0), (.al, .ldmfd [.r0, .lr]), (.al, .str .r1 .r0 (jbSigmask * 4))]
    s = _
  simp only [run, Cond.holds, Instr.exec, if_true, Option.bind_some, set_reg, set_mem,
    Function.update_of_ne hsp, if_pos h, offset_eq_cell]
  rw [if_pos]
  · rfl
  · exact he'

section Masked

variable (s : Machine)

theorem masked_env : (masked s).reg .r0 = s.mem (s.reg .sp) := by
  show s.mem (cell (s.reg .sp) 0) = s.mem (s.reg .sp)
  rw [cell_zero]

theorem masked_lr : (masked s).reg .lr = s.mem (cell (s.reg .sp) 1) := rfl

theorem masked_sp : (masked s).reg .sp = cell (s.reg .sp) 2 := rfl

theorem masked_reg {r : Reg} (hr : r ∈ coreRegs) (hsp : r ≠ .sp) (hlr : r ≠ .lr) :
    (masked s).reg r = s.reg r := by
  have h0 : r ∉ [Reg.r0, Reg.lr] := by
    rintro h
    rcases List.mem_pair.mp h with rfl | rfl
    · revert hr
      decide
    · exact hlr rfl
  have h1 : r ≠ .r1 := by
    rintro rfl
    revert hr
    decide
  show loadRegs _ _ [.r0, .lr] _ r = _
  rw [loadRegs, if_neg h0, Function.update_of_ne hsp, Function.update_of_ne h1]

end Masked

def Compiled.answered (c : Compiled) (s : Machine) : Machine :=
  { (c.clobber .mySigblock s).set .r0 (c.sigset.bionic s.world.set) with world := s.world }

theorem env_mySigblock (c : Compiled) {s : Machine} (h : s.reg .r0 = 0#32) :
    c.env .mySigblock s = some (c.answered s) := by
  simp only [Compiled.env, h, mySigblock_zero]
  rfl

theorem answered_r0 (c : Compiled) (s : Machine) :
    (c.answered s).reg .r0 = c.sigset.bionic s.world.set := by
  simp only [Compiled.answered, set_reg, Function.update_self]

def Compiled.CallStack (c : Compiled) (s : Machine) (x : Word) : Prop :=
  Inside (below (s.reg .sp) (2 + c.depth)) (2 + c.depth) x

def Compiled.back (c : Compiled) (base : Word) (s : Machine) : Machine :=
  c.answered (((pushed s).goto ((program base).addr 9)).set .lr ((program base).addr 10))

section Back

variable (c : Compiled) (base : Word) (s : Machine)

theorem back_reg {r : Reg} (hr : r ∈ coreRegs) (h12 : r ≠ .r12) (hlr : r ≠ .lr) :
    (c.back base s).reg r = (pushed s).reg r := by
  have h0 : r ≠ .r0 := by
    rintro rfl
    revert hr
    decide
  have hk := (c.kept .mySigblock
    (((pushed s).goto ((program base).addr 9)).set .lr ((program base).addr 10))).reg r hr h12 hlr
  rw [set_reg, Function.update_of_ne hlr] at hk
  show Function.update (c.clobber .mySigblock _).reg .r0 _ r = _
  rw [Function.update_of_ne h0]
  exact hk

theorem back_sp : (c.back base s).reg .sp = below (s.reg .sp) 2 :=
  back_reg c base s (by decide) (by decide) (by decide)

theorem back_mem {x : Word} (hx : ¬ Inside (below (s.reg .sp) (2 + c.depth)) c.depth x) :
    (c.back base s).mem x = (pushed s).mem x := by
  rw [← below_below] at hx
  exact (c.kept .mySigblock
    (((pushed s).goto ((program base).addr 9)).set .lr ((program base).addr 10))).mem x hx

theorem back_pushed {i : Nat} (hi : i < 2) :
    (c.back base s).mem (cell (below (s.reg .sp) 2) i) =
      ([s.reg .r0, s.reg .lr] : List Word)[i] := by
  have hd := c.depth_small
  rw [back_mem, pushed]
  · exact store_at_cell _ _ _ hi (by simp)
  · rw [← below_below]
    exact not_inside_below (by omega)

theorem back_answer : (c.back base s).reg .r0 = c.sigset.bionic s.world.set :=
  answered_r0 c _

theorem back_vfp {d : DReg} (hd : d ∈ floatRegs) : (c.back base s).vfp d = s.vfp d :=
  (c.kept .mySigblock _).vfp d hd

theorem back_frame {x : Word} (hx : ¬ c.CallStack s x) : (c.back base s).mem x = s.mem x := by
  have hd := c.depth_small
  have hcall : ¬ Inside (below (s.reg .sp) (2 + c.depth)) c.depth x :=
    fun h => hx (h.mono (by omega))
  have hpush : ¬ Inside (below (s.reg .sp) 2) 2 x := by
    intro h
    rw [← Nat.zero_add 2] at h
    exact hx (h.of_below (by omega) (by omega))
  rw [back_mem c base s hcall]
  exact store_outside hpush

end Back

theorem reaches_masked (hpc : s.pc = (program base).addr 7) (hsp : Aligned (s.reg .sp))
    (henv : Aligned (s.reg .r0)) :
    (program base).Reaches c.env s ((masked (c.back base s)).goto ((program base).addr 13)) := by
  have hpush : (program base).Reaches c.env s ((pushed s).goto ((program base).addr 9)) :=
    Program.reaches_run (stretch_at base 7 2) hpc (run_push s hsp)
  have hcall : (program base).step c.env ((pushed s).goto ((program base).addr 9)) =
      some ((c.back base s).goto ((program base).addr 10)) := by
    have h : (program base).step c.env ((pushed s).goto ((program base).addr 9)) = _ :=
      Program.step_bl (f := Fn.mySigblock) (k := 9) (c := .al) rfl rfl rfl
    rw [h, env_mySigblock c rfl]
    rfl
  have hback : (c.back base s).mem ((c.back base s).reg .sp) = s.reg .r0 := by
    rw [back_sp, ← cell_zero (below _ _)]
    exact back_pushed c base s (i := 0) (by decide)
  let v := (c.back base s).goto ((program base).addr 10)
  have hv : (program base).Reaches c.env v ((masked v).goto ((program base).addr 13)) := by
    refine Program.reaches_run (stretch_at base 10 3) rfl (run_keepMask v ?_ ?_)
    · show Aligned ((c.back base s).reg .sp)
      rw [back_sp]
      exact aligned_below hsp 2
    · show Aligned ((c.back base s).mem ((c.back base s).reg .sp))
      rwa [hback]
  exact (hpush.trans (.single hcall)).trans hv

/-- What a caller of `my_sigsetjmp` sees to: the buffer is an aligned object
that the stack below the caller does not reach. -/
structure CanSave (c : Compiled) (base : Word) (s : Machine) : Prop where
  aligned : Aligned (s.reg .r0)
  caller : (program base).fetch (s.reg .lr) = none
  stack : s.reg .r1 ≠ 0#32 → Aligned (s.reg .sp) ∧
    Apart (s.reg .r0) jbWords (below (s.reg .sp) (2 + c.depth)) (2 + c.depth)

/-- What `my_sigsetjmp` makes of `s`. -/
structure Saves (c : Compiled) (s t : Machine) : Prop where
  pc : t.pc = s.reg .lr
  ret : t.reg .r0 = 0#32
  reg : ∀ r ∈ coreRegs, r ≠ .r12 → t.reg r = s.reg r
  vfp : ∀ d ∈ floatRegs, t.vfp d = s.vfp d
  world : t.world = s.world
  context : (contextOf t (if s.reg .r1 = 0#32 then none
    else some (c.sigset.bionic s.world.set))).In t.mem (s.reg .r0)
  mem : ∀ x, ¬ Inside (s.reg .r0) jbWords x → s.reg .r1 = 0#32 ∨ ¬ c.CallStack s x →
    t.mem x = s.mem x

theorem context_saved (s : Machine) :
    (contextOf (saved s) (if s.mem (cell (s.reg .r0) jbSigflag) = 0#32 then none
      else some (s.mem (cell (s.reg .r0) jbSigmask)))).In (saved s).mem (s.reg .r0) :=
  (saveRegs_in (s.reg .r0) s.reg s.vfp s.fpscr s.mem).congr
    (fun _ hr => saved_reg s hr) rfl rfl rfl

theorem flagged_flag (s : Machine) :
    (flagged s).mem (cell (s.reg .r0) jbSigflag) = s.reg .r1 := by
  have h := store_cell s.mem (s.reg .r0) [s.reg .r1] (j := jbSigflag) (k := jbSigflag)
    (by decide) (by simp [jbSigflag])
  rw [if_pos (Nat.le_refl _)] at h
  exact h

theorem flagged_frame (s : Machine) {x : Word} (hx : ¬ Inside (s.reg .r0) jbWords x) :
    (flagged s).mem x = s.mem x :=
  store_outside (fun h => hx (h.of_part (by simp [jbSigflag, jbWords]) (by decide)))

theorem reaches_flagged (hpc : s.pc = (program base).addr mySigsetjmpEntry)
    (h : Aligned (s.reg .r0)) :
    (program base).Reaches c.env s ((flagged s).goto ((program base).addr 6)) :=
  Program.reaches_run (stretch_at base 4 2) hpc (run_saveFlag s h)

theorem saves_of_zero (hpc : s.pc = (program base).addr mySigsetjmpEntry)
    (h : CanSave c base s) (hflag : s.reg .r1 = 0#32) :
    ∃ t, (program base).Leaves c.env s t ∧ Saves c s t := by
  let u := (flagged s).goto ((program base).addr 13)
  have hb : (program base).step c.env ((flagged s).goto ((program base).addr 6)) = some u :=
    Program.step_b (l := Label.sigsetjmp1) (k := 6) (c := .eq) rfl rfl
      (by simp [Cond.holds, flagged, hflag])
  have hsaved : (program base).Reaches c.env u ((saved u).goto (s.reg .lr)) :=
    reaches_saved rfl h.aligned
  refine ⟨(saved u).goto (s.reg .lr),
    ⟨((reaches_flagged hpc h.aligned).trans (.single hb)).trans hsaved, h.caller⟩, ?_⟩
  constructor
  · rfl
  · exact Function.update_self Reg.r0 0#32 (Function.update u.reg .r1 u.fpscr)
  · exact fun r hr _ => saved_reg u hr
  · exact fun d _ => rfl
  · rfl
  · have hc := context_saved u
    have hf : u.mem (cell (u.reg .r0) jbSigflag) = 0#32 := (flagged_flag s).trans hflag
    rw [if_pos hf] at hc
    rw [if_pos hflag]
    exact hc
  · intro x hx _
    have hs := saveRegs_outside (u.reg .r0) u.reg u.vfp u.fpscr u.mem hx
    exact hs.trans (flagged_frame s hx)

theorem saves_of_ne_zero (hpc : s.pc = (program base).addr mySigsetjmpEntry)
    (h : CanSave c base s) (hflag : s.reg .r1 ≠ 0#32) :
    ∃ t, (program base).Leaves c.env s t ∧ Saves c s t := by
  obtain ⟨hsp, hapart⟩ := h.stack hflag
  let f := (flagged s).goto ((program base).addr 7)
  let v := c.back base f
  let u := (masked v).goto ((program base).addr 13)
  have hb : (program base).step c.env ((flagged s).goto ((program base).addr 6)) = some f :=
    Program.step_skipped (k := 6) (c := .eq) (i := .b .sigsetjmp1) rfl rfl
      (by simp [Cond.holds, flagged, hflag])
  have hmasked : (program base).Reaches c.env f u := reaches_masked rfl hsp h.aligned
  have hvenv : v.mem (v.reg .sp) = s.reg .r0 := by
    rw [back_sp, ← cell_zero (below _ _)]
    exact back_pushed c base f (i := 0) (by decide)
  have henv : u.reg .r0 = s.reg .r0 := (masked_env v).trans hvenv
  have hreg : ∀ r ∈ coreRegs, r ≠ .r12 → u.reg r = s.reg r := by
    intro r hr h12
    by_cases hrsp : r = .sp
    · subst hrsp
      refine (masked_sp v).trans ?_
      rw [back_sp, cell_below]
      rfl
    · by_cases hrlr : r = .lr
      · subst hrlr
        refine (masked_lr v).trans ?_
        rw [back_sp]
        exact back_pushed c base f (i := 1) (by decide)
      · refine (masked_reg v hr hrsp hrlr).trans ?_
        rw [back_reg c base f hr h12 hrlr]
        have hr0 : r ≠ .r0 := by
          rintro rfl
          revert hr
          decide
        show Function.update (Function.update s.reg .sp _) .r0 _ r = s.reg r
        rw [Function.update_of_ne hr0, Function.update_of_ne hrsp]
  have hmem : u.mem = store v.mem (cell (s.reg .r0) jbSigmask)
      [c.sigset.bionic s.world.set] := by
    show store v.mem (cell ((masked v).reg .r0) jbSigmask) [v.reg .r0] = _
    rw [masked_env v, hvenv, back_answer]
    rfl
  have hsaved : (program base).Reaches c.env u ((saved u).goto (s.reg .lr)) := by
    have hlr : u.reg .lr = s.reg .lr := hreg .lr (by decide) (by decide)
    rw [← hlr]
    exact reaches_saved rfl (by rw [henv]; exact h.aligned)
  have hword : ∀ i, i < jbWords →
      v.mem (cell (s.reg .r0) i) = (flagged s).mem (cell (s.reg .r0) i) :=
    fun i hi => back_frame c base f (hapart _ (inside_cell _ hi (by decide)))
  refine ⟨(saved u).goto (s.reg .lr), ⟨(((reaches_flagged hpc h.aligned).trans (.single hb)).trans
    hmasked).trans hsaved, h.caller⟩, ?_⟩
  constructor
  · rfl
  · exact Function.update_self Reg.r0 0#32 (Function.update u.reg .r1 u.fpscr)
  · exact fun r hr h12 => (saved_reg u hr).trans (hreg r hr h12)
  · exact fun d hd => back_vfp c base f hd
  · rfl
  · have hc := context_saved u
    have hf : u.mem (cell (u.reg .r0) jbSigflag) = s.reg .r1 := by
      rw [henv, hmem, store_cell _ _ _ (by decide) (by simp [jbSigmask, jbSigflag]),
        if_neg (by decide), hword _ (by decide), flagged_flag]
    have hm : u.mem (cell (u.reg .r0) jbSigmask) = c.sigset.bionic s.world.set := by
      rw [henv, hmem, store_cell _ _ _ (by decide) (by simp [jbSigmask, jbSigflag]),
        if_pos (Nat.le_refl _), Nat.sub_self]
      rfl
    rw [hf, hm, henv, if_neg hflag] at hc
    rw [if_neg hflag]
    exact hc
  · intro x hx hstack
    have hs := saveRegs_outside (u.reg .r0) u.reg u.vfp u.fpscr u.mem (henv ▸ hx)
    refine hs.trans ?_
    rw [hmem, store_outside (fun h => hx (h.of_part (by simp [jbSigmask, jbSigflag, jbWords])
      (by decide)))]
    exact (back_frame c base f (hstack.resolve_left hflag)).trans (flagged_frame s hx)

/-- `my_sigsetjmp` returns to its caller with all of it saved. -/
theorem sigsetjmp_saves (hpc : s.pc = (program base).addr mySigsetjmpEntry)
    (h : CanSave c base s) : ∃ t, (program base).Leaves c.env s t ∧ Saves c s t := by
  by_cases hflag : s.reg .r1 = 0#32
  · exact saves_of_zero hpc h hflag
  · exact saves_of_ne_zero hpc h hflag

end FakeLibc.SetJmp

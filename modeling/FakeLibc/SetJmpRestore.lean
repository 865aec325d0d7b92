import FakeLibc.SetJmpSave

namespace FakeLibc.SetJmp

open FakeLibc.Lib.WordMemory FakeLibc.Lib.Arm FakeLibc.SignalMask

variable {c : Compiled} {base : Word} {s : Machine} {x : Context}

def tested (s : Machine) : Machine :=
  { s.set .r2 (s.mem (cell (s.reg .r0) jbSigflag)) with
    z := s.mem (cell (s.reg .r0) jbSigflag) == 0#32 }

theorem run_testFlag (s : Machine) (h : Aligned (s.reg .r0)) :
    run (stretch 21 2) s = some (tested s) := by
  show run [(.al, .ldr .r2 .r0 (jbSigflag * 4)), (.al, .teq .r2 0)] s = _
  simp only [run, Cond.holds, Instr.exec, if_true, offset_eq_cell, Option.bind_some,
    aligned_cell h, set_reg, Function.update_self]
  rfl

def restored (s : Machine) : Machine :=
  let env := s.reg .r0
  let reg := loadRegs s.mem (cell env jbCoreBase) coreRegs
    (Function.update s.reg .r2 (cell env jbCoreBase))
  { s with
    reg := reg
    vfp := loadDRegs s.mem (cell env jbFloatBase) floatRegs s.vfp
    fpscr := s.mem (cell env jbFloatState)
    z := if reg .sp = 0#32 then true else reg .lr == 0#32 }

theorem run_restore (s : Machine) (h : Aligned (s.reg .r0)) :
    run (stretch 30 8) s = some (restored s) := by
  have h02 : Reg.r0 ≠ .r2 := by decide
  show run [(.al, .add .r2 .r0 (jbFloatBase * 4)), (.al, .vldmia .r2 floatRegs),
    (.al, .ldr .r2 .r0 (jbFloatState * 4)), (.al, .fmxr .r2), (.al, .add .r2 .r0 (jbCoreBase * 4)),
    (.al, .ldmia .r2 coreRegs), (.al, .teq .sp 0), (.ne, .teq .lr 0)] s = _
  simp only [run, Cond.holds, Instr.exec, if_true, offset_eq_cell, Option.bind_some,
    Function.update_self, Function.update_idem, Function.update_of_ne h02, aligned_cell h,
    State.set]
  by_cases hz : loadRegs s.mem (cell (s.reg .r0) jbCoreBase) coreRegs
      (Function.update s.reg .r2 (cell (s.reg .r0) jbCoreBase)) .sp = 0#32
  · simp [restored, hz]
  · simp [restored, hz]

def valued (s : Machine) : Machine :=
  { s with
    reg := Function.update s.reg .r0 (if s.reg .r1 = 0#32 then 1#32 else s.reg .r1)
    z := s.reg .r1 == 0#32 }

theorem run_value (s : Machine) : run (stretch 39 3) s = some (valued s) := by
  show run [(.al, .mov .r0 .r1), (.al, .teq .r0 0), (.eq, .movImm .r0 1)] s = _
  by_cases hz : s.reg .r1 = 0#32
  · simp [run, Cond.holds, Instr.exec, valued, hz, State.set]
  · simp [run, Cond.holds, Instr.exec, valued, hz, State.set]

section Restored

variable (s : Machine)

theorem restored_reg (h : x.In s.mem (s.reg .r0)) {r : Reg} (hr : r ∈ coreRegs) :
    (restored s).reg r = x.reg r := by
  show loadRegs s.mem (cell (s.reg .r0) jbCoreBase) coreRegs _ r = _
  rw [loadRegs, if_pos hr, cell_cell, h.core r hr]

theorem restored_vfp (h : x.In s.mem (s.reg .r0)) {d : DReg} (hd : d ∈ floatRegs) :
    (restored s).vfp d = x.vfp d := by
  obtain ⟨hlo, hhi⟩ := h.float d hd
  show loadDRegs s.mem (cell (s.reg .r0) jbFloatBase) floatRegs _ d = _
  rw [loadDRegs, if_pos hd, cell_cell, cell_cell, ← Nat.add_assoc, hlo, hhi, halves_append]

theorem restored_z (h : x.In s.mem (s.reg .r0)) :
    (restored s).z = decide (x.reg .sp = 0#32 ∨ x.reg .lr = 0#32) := by
  have hsp := restored_reg s h (r := .sp) (by decide)
  have hlr := restored_reg s h (r := .lr) (by decide)
  show (if (restored s).reg .sp = 0#32 then true else (restored s).reg .lr == 0#32) = _
  rw [hsp, hlr]
  by_cases hz : x.reg .sp = 0#32
  · simp [hz]
  · simp only [hz, if_false, false_or, beq_eq_decide]

theorem restored_value : (restored s).reg .r1 = s.reg .r1 := by
  have h1 : Reg.r1 ∉ coreRegs := by decide
  have h2 : Reg.r1 ≠ .r2 := by decide
  simp only [restored, loadRegs, if_neg h1, Function.update_of_ne h2]

theorem valued_reg {r : Reg} (hr : r ∈ coreRegs) : (valued s).reg r = s.reg r := by
  have h0 : r ≠ .r0 := by
    rintro rfl
    revert hr
    decide
  show Function.update s.reg .r0 _ r = _
  rw [Function.update_of_ne h0]

end Restored

theorem reaches_restored (hpc : s.pc = (program base).addr 30) (h : Aligned (s.reg .r0)) :
    (program base).Reaches c.env s ((restored s).goto ((program base).addr 38)) :=
  Program.reaches_run (stretch_at base 30 8) hpc (run_restore s h)

theorem reaches_jumped (hz : s.z = false) (hpc : s.pc = (program base).addr 38) :
    (program base).Reaches c.env s ((valued s).goto (s.reg .lr)) := by
  let u := s.goto ((program base).addr 39)
  have hskip : (program base).step c.env s = some u :=
    Program.step_skipped (k := 38) (c := .eq) (i := .bl .myLongjmperror) rfl hpc (by rw [hz]; rfl)
  have hvalue : (program base).Reaches c.env u ((valued u).goto ((program base).addr 42)) :=
    Program.reaches_run (stretch_at base 39 3) rfl (run_value u)
  have hbx : (program base).step c.env ((valued u).goto ((program base).addr 42)) =
      some ((valued s).goto (s.reg .lr)) := by
    rw [← valued_reg s (r := .lr) (by decide)]
    exact Program.step_bx (p := program base) (s := (valued u).goto _) (k := 42) rfl rfl rfl
  exact Program.Reaches.head hskip (hvalue.trans (.single hbx))

/-- What a caller of `my_siglongjmp` sees to, for a buffer that holds `x`. -/
structure CanRestore (c : Compiled) (base : Word) (x : Context) (s : Machine) : Prop where
  aligned : Aligned (s.reg .r0)
  holds : x.In s.mem (s.reg .r0)
  caller : (program base).fetch (x.reg .lr) = none
  stack : x.mask ≠ none → Aligned (s.reg .sp) ∧
    Apart (s.reg .r0) jbWords (below (s.reg .sp) (4 + c.depth)) (4 + c.depth)

/-- The signals that are blocked when a mask, if there is one, has been set. -/
def Compiled.setMask (c : Compiled) (b : Blocked) : Option Word → Blocked
  | none => b
  | some w => .drop (c.sigset.set w)

/-- What `my_siglongjmp` makes of `s`. -/
structure Restores (c : Compiled) (x : Context) (s t : Machine) : Prop where
  pc : t.pc = x.reg .lr
  ret : t.reg .r0 = if s.reg .r1 = 0#32 then 1#32 else s.reg .r1
  reg : ∀ r ∈ coreRegs, t.reg r = x.reg r
  vfp : ∀ d ∈ floatRegs, t.vfp d = x.vfp d
  fpscr : t.fpscr = x.fpscr
  world : t.world = c.setMask s.world x.mask
  mem : ∀ a, x.mask = none ∨ ¬ Inside (below (s.reg .sp) (4 + c.depth)) (4 + c.depth) a →
    t.mem a = s.mem a

theorem restores_of_label (hpc : s.pc = (program base).addr 30) (haligned : Aligned (s.reg .r0))
    (h : x.In s.mem (s.reg .r0)) (hsp : x.reg .sp ≠ 0#32) (hlr : x.reg .lr ≠ 0#32) :
    ∃ t, (program base).Reaches c.env s t ∧ t.pc = x.reg .lr ∧
      t.reg .r0 = (if s.reg .r1 = 0#32 then 1#32 else s.reg .r1) ∧
      (∀ r ∈ coreRegs, t.reg r = x.reg r) ∧ (∀ d ∈ floatRegs, t.vfp d = x.vfp d) ∧
      t.fpscr = x.fpscr ∧ t.world = s.world ∧ t.mem = s.mem := by
  let u := (restored s).goto ((program base).addr 38)
  have hz : u.z = false := by
    show (restored s).z = false
    rw [restored_z s h]
    simp [hsp, hlr]
  have hrest : (program base).Reaches c.env s u := reaches_restored hpc haligned
  refine ⟨(valued u).goto (u.reg .lr), hrest.trans (reaches_jumped hz rfl), ?_, ?_, ?_, ?_, ?_,
    rfl, rfl⟩
  · exact restored_reg s h (r := .lr) (by decide)
  · rw [← restored_value s]
    exact Function.update_self Reg.r0 _ u.reg
  · exact fun r hr => (valued_reg u hr).trans (restored_reg s h hr)
  · exact fun d hd => restored_vfp s h hd
  · exact h.fpscr

def pushedMask (s : Machine) : Machine :=
  let sp := below (s.reg .sp) 4
  let mem := store s.mem (below (s.reg .sp) 3) [s.reg .r0, s.reg .r1, s.reg .lr]
  { s with
    reg := Function.update (Function.update s.reg .sp sp) .r0 (mem (cell (s.reg .r0) jbSigmask))
    mem := mem }

theorem run_pushMask (s : Machine) (hsp : Aligned (s.reg .sp)) (h : Aligned (s.reg .r0)) :
    run (stretch 24 3) s = some (pushedMask s) := by
  have ha : Aligned (s.reg .sp - BitVec.ofNat 32 (4 * [Reg.r0, Reg.r1, Reg.lr].length)) :=
    aligned_below hsp 3
  have h0 : Reg.r0 ≠ .sp := by decide
  have hb : ∀ a : Word, a - BitVec.ofNat 32 (4 * 3) - BitVec.ofNat 32 4 = below a 4 :=
    fun a => below_below a 3 1
  show run [(.al, .stmfd [.r0, .r1, .lr]), (.al, .sub .sp .sp 4),
    (.al, .ldr .r0 .r0 (jbSigmask * 4))] s = _
  simp only [run, Cond.holds, Instr.exec, if_true, Option.bind_some, if_pos ha, State.set,
    Function.update_self, Function.update_idem, Function.update_of_ne h0, offset_eq_cell,
    if_pos (aligned_cell h jbSigmask)]
  simp only [List.length_cons, List.length_nil, Nat.zero_add, Nat.reduceAdd, hb]
  rfl

def poppedMask (s : Machine) : Machine :=
  let a := cell (s.reg .sp) 1
  { s with
    reg := loadRegs s.mem a [.r0, .r1, .lr] (Function.update s.reg .sp (cell a 3)) }

theorem run_popMask (s : Machine) (h : Aligned (s.reg .sp)) :
    run (stretch 28 2) s = some (poppedMask s) := by
  have ha : Aligned (s.reg .sp + BitVec.ofNat 32 4) := aligned_cell h 1
  show run [(.al, .add .sp .sp 4), (.al, .ldmfd [.r0, .r1, .lr])] s = _
  simp only [run, Cond.holds, Instr.exec, if_true, Option.bind_some, State.set,
    Function.update_self, Function.update_idem, if_pos ha]
  rfl

def Compiled.maskSet (c : Compiled) (base : Word) (s : Machine) : Machine :=
  let q := ((pushedMask s).goto ((program base).addr 27)).set .lr ((program base).addr 28)
  { (c.clobber .mySigsetmask q).set .r0 (c.sigset.bionic q.world.set) with
    world := .drop (c.sigset.set (q.reg .r0)) }

section MaskSet

variable (c : Compiled) (base : Word) (s : Machine)

theorem maskSet_sp : (c.maskSet base s).reg .sp = below (s.reg .sp) 4 := by
  let q := ((pushedMask s).goto ((program base).addr 27)).set .lr ((program base).addr 28)
  have hk := (c.kept .mySigsetmask q).reg .sp (by decide) (by decide) (by decide)
  have h0 : Reg.sp ≠ .r0 := by decide
  simp only [Compiled.maskSet, set_reg, Function.update_of_ne h0]
  exact hk

theorem maskSet_world {w : Word} (h : (pushedMask s).reg .r0 = w) :
    (c.maskSet base s).world = .drop (c.sigset.set w) := by
  subst h
  rfl

theorem maskSet_mem {a : Word} (ha : ¬ Inside (below (s.reg .sp) (4 + c.depth)) c.depth a) :
    (c.maskSet base s).mem a = (pushedMask s).mem a := by
  rw [← below_below] at ha
  exact (c.kept .mySigsetmask
    (((pushedMask s).goto ((program base).addr 27)).set .lr ((program base).addr 28))).mem a ha

theorem maskSet_pushed {i : Nat} (hi : i < 3) :
    (c.maskSet base s).mem (cell (below (s.reg .sp) 3) i) =
      ([s.reg .r0, s.reg .r1, s.reg .lr] : List Word)[i] := by
  have hd := c.depth_small
  have hc : cell (below (s.reg .sp) 3) i = cell (below (s.reg .sp) 4) (1 + i) := by
    rw [← cell_cell, ← below_below _ 3 1, cell_below]
  rw [maskSet_mem]
  · exact store_at_cell _ _ _ hi (by simp)
  · rw [hc, ← below_below]
    exact not_inside_below (by omega)

theorem maskSet_frame {a : Word}
    (ha : ¬ Inside (below (s.reg .sp) (4 + c.depth)) (4 + c.depth) a) :
    (c.maskSet base s).mem a = s.mem a := by
  have hd := c.depth_small
  have hcall : ¬ Inside (below (s.reg .sp) (4 + c.depth)) c.depth a :=
    fun h => ha (h.mono (by omega))
  have hpush : ¬ Inside (below (s.reg .sp) 3) 3 a := by
    intro h
    rw [← Nat.zero_add 3] at h
    exact ha (h.of_below (by omega) (by omega))
  rw [maskSet_mem c base s hcall]
  exact store_outside hpush

end MaskSet

theorem reaches_maskSet (hpc : s.pc = (program base).addr 24) (hsp : Aligned (s.reg .sp))
    (h : Aligned (s.reg .r0)) :
    (program base).Reaches c.env s
      ((poppedMask (c.maskSet base s)).goto ((program base).addr 30)) := by
  have hpush : (program base).Reaches c.env s ((pushedMask s).goto ((program base).addr 27)) :=
    Program.reaches_run (stretch_at base 24 3) hpc (run_pushMask s hsp h)
  have hcall : (program base).step c.env ((pushedMask s).goto ((program base).addr 27)) =
      some ((c.maskSet base s).goto ((program base).addr 28)) := by
    have h : (program base).step c.env ((pushedMask s).goto ((program base).addr 27)) = _ :=
      Program.step_bl (f := Fn.mySigsetmask) (k := 27) (c := .al) rfl rfl rfl
    rw [h, Compiled.env, mySigsetmask_eq]
    rfl
  let v := (c.maskSet base s).goto ((program base).addr 28)
  have hv : (program base).Reaches c.env v ((poppedMask v).goto ((program base).addr 30)) := by
    refine Program.reaches_run (stretch_at base 28 2) rfl (run_popMask v ?_)
    show Aligned ((c.maskSet base s).reg .sp)
    rw [maskSet_sp]
    exact aligned_below hsp 4
  exact (hpush.trans (.single hcall)).trans hv

theorem poppedMask_reg (c : Compiled) (base : Word) (s : Machine) :
    (poppedMask (c.maskSet base s)).reg .r0 = s.reg .r0 ∧
      (poppedMask (c.maskSet base s)).reg .r1 = s.reg .r1 := by
  have ha : cell ((c.maskSet base s).reg .sp) 1 = below (s.reg .sp) 3 := by
    rw [maskSet_sp, ← below_below _ 3 1, cell_below]
  constructor
  · show (c.maskSet base s).mem (cell (cell ((c.maskSet base s).reg .sp) 1) 0) = _
    rw [ha]
    exact maskSet_pushed c base s (i := 0) (by decide)
  · show (c.maskSet base s).mem (cell (cell ((c.maskSet base s).reg .sp) 1) 1) = _
    rw [ha]
    exact maskSet_pushed c base s (i := 1) (by decide)

theorem Context.In.of_same {m m' : Memory} {env : Word} (h : x.In m env)
    (hsame : ∀ a, Inside env jbWords a → m' a = m a) : x.In m' env := by
  have hw : ∀ i, i < jbWords → m' (cell env i) = m (cell env i) :=
    fun i hi => hsame _ (inside_cell _ hi (by decide))
  have hwords : jbWords = 30 := rfl
  have hcb : jbCoreBase = 19 := rfl
  have hfb : jbFloatBase = 2 := rfl
  constructor
  · intro r hr
    have hi := List.idxOf_lt_length_of_mem hr
    have hlen : coreRegs.length = 11 := rfl
    rw [hw _ (by omega), h.core r hr]
  · intro d hd
    have hi := List.idxOf_lt_length_of_mem hd
    have hlen : floatRegs.length = 8 := rfl
    rw [hw _ (by omega), hw _ (by omega)]
    exact h.float d hd
  · rw [hw _ (by decide), h.fpscr]
  · rw [hw _ (by decide), hw _ (by decide), h.mask]

theorem reaches_tested (hpc : s.pc = (program base).addr mySiglongjmpEntry)
    (h : Aligned (s.reg .r0)) :
    (program base).Reaches c.env s ((tested s).goto ((program base).addr 23)) :=
  Program.reaches_run (stretch_at base 21 2) hpc (run_testFlag s h)

theorem reaches_label (hpc : s.pc = (program base).addr mySiglongjmpEntry)
    (h : CanRestore c base x s) :
    ∃ u, (program base).Reaches c.env s u ∧ u.pc = (program base).addr 30 ∧
      u.reg .r0 = s.reg .r0 ∧ u.reg .r1 = s.reg .r1 ∧ x.In u.mem (s.reg .r0) ∧
      u.world = c.setMask s.world x.mask ∧
      ∀ a, x.mask = none ∨ ¬ Inside (below (s.reg .sp) (4 + c.depth)) (4 + c.depth) a →
        u.mem a = s.mem a := by
  have htested : (program base).Reaches c.env s ((tested s).goto ((program base).addr 23)) :=
    reaches_tested hpc h.aligned
  by_cases hflag : s.mem (cell (s.reg .r0) jbSigflag) = 0#32
  · have hmask : x.mask = none := by rw [h.holds.mask, if_pos hflag]
    have hb : (program base).step c.env ((tested s).goto ((program base).addr 23)) =
        some ((tested s).goto ((program base).addr 30)) :=
      Program.step_b (l := Label.siglongjmp1) (k := 23) (c := .eq) rfl rfl
        (by simp [Cond.holds, tested, hflag])
    refine ⟨_, htested.trans (.single hb), rfl, rfl, rfl, h.holds, ?_, fun a _ => rfl⟩
    rw [hmask]
    rfl
  · have hmask : x.mask = some (s.mem (cell (s.reg .r0) jbSigmask)) := by
      rw [h.holds.mask, if_neg hflag]
    obtain ⟨hsp, hapart⟩ := h.stack (by rw [hmask]; exact Option.some_ne_none _)
    let f := (tested s).goto ((program base).addr 24)
    have hb : (program base).step c.env ((tested s).goto ((program base).addr 23)) = some f :=
      Program.step_skipped (k := 23) (c := .eq) (i := .b .siglongjmp1) rfl rfl
        (by simp [Cond.holds, tested, hflag])
    have hset : (program base).Reaches c.env f
        ((poppedMask (c.maskSet base f)).goto ((program base).addr 30)) :=
      reaches_maskSet rfl hsp h.aligned
    obtain ⟨h0, h1⟩ := poppedMask_reg c base f
    have hframe : ∀ a, ¬ Inside (below (s.reg .sp) (4 + c.depth)) (4 + c.depth) a →
        (c.maskSet base f).mem a = s.mem a := fun a ha => maskSet_frame c base f ha
    refine ⟨_, (htested.trans (.single hb)).trans hset, rfl, h0, h1, ?_, ?_, ?_⟩
    · exact h.holds.of_same (fun a ha => hframe a (hapart a ha))
    · rw [hmask]
      refine maskSet_world c base f ?_
      have hd := c.depth_small
      show store s.mem (below (s.reg .sp) 3) _ (cell (s.reg .r0) jbSigmask) = _
      refine store_outside (fun hin => ?_)
      rw [← Nat.zero_add 3] at hin
      exact hapart _ (inside_cell _ (by decide) (by decide))
        (hin.of_below (by omega) (by omega))
    · intro a ha
      exact hframe a (ha.resolve_left (by rw [hmask]; exact Option.some_ne_none _))

theorem siglongjmp_restores (hpc : s.pc = (program base).addr mySiglongjmpEntry)
    (h : CanRestore c base x s) (hsp : x.reg .sp ≠ 0#32) (hlr : x.reg .lr ≠ 0#32) :
    ∃ t, (program base).Leaves c.env s t ∧ Restores c x s t := by
  obtain ⟨u, hsu, hupc, h0, h1, hin, hworld, hmem⟩ := reaches_label hpc h
  rw [← h0] at hin
  obtain ⟨t, hut, htpc, hret, hreg, hvfp, hfpscr, htw, htm⟩ :=
    restores_of_label (c := c) hupc (h0 ▸ h.aligned) hin hsp hlr
  refine ⟨t, ⟨hsu.trans hut, htpc ▸ h.caller⟩, ?_⟩
  constructor
  · exact htpc
  · rw [hret, h1]
  · exact hreg
  · exact hvfp
  · exact hfpscr
  · exact htw.trans hworld
  · exact fun a ha => htm ▸ hmem a ha

end FakeLibc.SetJmp

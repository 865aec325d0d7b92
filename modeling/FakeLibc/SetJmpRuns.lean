import FakeLibc.SetJmpRestore

namespace FakeLibc.SetJmp

open FakeLibc.Lib.WordMemory FakeLibc.Lib.Arm FakeLibc.SignalMask

variable {c : Compiled} {base : Word} {s : Machine} {x : Context}

def Caught (base : Word) (s : Machine) : Prop :=
  s.reg .lr = (program base).addr 39 ∧ ∃ k, 39 ≤ k ∧ k ≤ 42 ∧ s.pc = (program base).addr k

theorem fetch_program {k : Nat} (hk : k < 43) :
    (program base).fetch ((program base).addr k) ≠ none := by
  rw [Program.fetch_addr _ (by omega)]
  intro h
  have hlen : code.length ≤ k := List.getElem?_eq_none_iff.mp h
  have hcode : code.length = 43 := by decide
  omega

theorem caught_in (s : Machine) (h : Caught base s) : (program base).fetch s.pc ≠ none := by
  obtain ⟨-, k, -, hk, hpc⟩ := h
  rw [hpc]
  exact fetch_program (by omega)

theorem caught_step (s t : Machine) (h : Caught base s)
    (ht : (program base).step c.env s = some t) : Caught base t := by
  obtain ⟨hlr, k, h39, h42, hpc⟩ := h
  have hne : Reg.lr ≠ .r0 := by decide
  have hsucc : s.pc + 4 = (program base).addr (k + 1) := by rw [hpc, Program.addr_succ]
  rcases (by omega : k = 39 ∨ k = 40 ∨ k = 41 ∨ k = 42) with rfl | rfl | rfl | rfl
  · rw [Program.step_held (c := .al) (i := .mov .r0 .r1) rfl hpc rfl,
      Program.perform_exec rfl] at ht
    cases ht
    exact ⟨by simpa [hne] using hlr, 40, by omega, by omega, hsucc⟩
  · rw [Program.step_held (c := .al) (i := .teq .r0 0) rfl hpc rfl,
      Program.perform_exec rfl] at ht
    cases ht
    exact ⟨hlr, 41, by omega, by omega, hsucc⟩
  · cases hz : s.z with
    | true =>
      rw [Program.step_held (c := .eq) (i := .movImm .r0 1) rfl hpc hz,
        Program.perform_exec rfl] at ht
      cases ht
      exact ⟨by simpa [hne] using hlr, 42, by omega, by omega, hsucc⟩
    | false =>
      rw [Program.step_skipped (c := .eq) (i := .movImm .r0 1) rfl hpc (by simp [Cond.holds, hz])]
        at ht
      cases ht
      exact ⟨hlr, 42, by omega, by omega, rfl⟩
  · rw [Program.step_bx (c := .al) (r := .lr) rfl hpc rfl] at ht
    cases ht
    exact ⟨hlr, 39, by omega, by omega, hlr⟩

def frugal : Compiled where
  sigset :=
    { set := fun w => w.setWidth 64
      bionic := fun k => k.setWidth 32
      bionic_eq := fun _ => rfl
      set_low := fun w => by simp
      set_high := fun w i h => by simp [BitVec.getLsbD_setWidth, BitVec.getLsbD_of_ge w i h] }
  depth := 0
  depth_small := by decide
  clobber := fun _ s => s
  kept := fun _ _ => ⟨fun _ _ _ _ => rfl, fun _ _ => rfl, fun _ _ => rfl⟩
  ndebug := true

def blockedNone : Blocked := ⟨0#64, rfl⟩

def calling (k : Nat) (arg sp lr : Word) (mem : Memory) : Machine where
  reg := fun r => match r with
    | .r0 => 0x1000#32
    | .r1 => arg
    | .sp => sp
    | .lr => lr
    | _ => 0#32
  vfp := fun _ => 0#64
  fpscr := 0#32
  z := false
  mem := mem
  pc := (program 0x4000#32).addr k
  world := blockedNone

theorem apart_frugal (n : Nat) (hn : n ≤ 4) :
    Apart 0x1000#32 jbWords (below 0x2000#32 n) n := by
  intro x hx hin
  have hw : jbWords = 30 := rfl
  unfold Inside below at *
  rw [hw] at hx
  bv_omega

/-- A context without a stack or a return address is an error that the code
does not get past: either the program stops in `my_longjmperror`, or that comes
back and the rest of the function runs for ever. -/
theorem not_leaves_of_error (hz : s.z = true) (hpc : s.pc = (program base).addr 38) (t : Machine) :
    ¬ (program base).Leaves c.env s t := by
  have hbl : (program base).step c.env s = _ :=
    Program.step_bl (f := Fn.myLongjmperror) (k := 38) (c := .eq) rfl hpc hz
  intro ht
  cases hn : c.ndebug with
  | false =>
    have hstuck : (program base).step c.env s = none := by
      rw [hbl]
      simp [Compiled.env, hn]
    obtain ⟨hst, hout⟩ := ht
    rcases Relation.ReflTransGen.cases_head hst with rfl | ⟨v, hv, -⟩
    · rw [hpc] at hout
      exact fetch_program (by omega) hout
    · rw [hstuck] at hv
      cases hv
  | true =>
    have hback : (program base).step c.env s =
        some ((s.set .lr ((program base).addr 39)).goto ((program base).addr 39)) := by
      rw [hbl]
      simp [Compiled.env, hn]
    have hcaught : Caught base
        ((s.set .lr ((program base).addr 39)).goto ((program base).addr 39)) :=
      ⟨by simp, 39, by omega, by omega, rfl⟩
    exact Program.not_leaves_of_inv (caught_step) (caught_in) hcaught (ht.from (.single hback))

theorem pc_of_calls (h : (program base).Calls .myLongjmperror s) :
    s.pc = (program base).addr 38 ∧ s.z = true := by
  obtain ⟨c, hfetch, hc⟩ := h
  obtain ⟨k, hk, hpc⟩ := Program.fetch_some hfetch
  have hlt : k < 43 := (List.getElem?_eq_some_iff.mp hk).1
  have hplace : ∀ k < 43, ∀ c ∈ [Cond.al, .eq, .ne],
      code[k]? = some (c, .bl .myLongjmperror) → k = 38 ∧ c = .eq := by decide
  obtain ⟨rfl, rfl⟩ := hplace k hlt c (by cases c <;> decide) hk
  exact ⟨hpc, hc⟩

theorem reaches_error (hpc : s.pc = (program base).addr mySiglongjmpEntry)
    (h : CanRestore c base x s) (hno : ¬ (x.reg .sp ≠ 0#32 ∧ x.reg .lr ≠ 0#32)) :
    ∃ u, (program base).Reaches c.env s u ∧ (program base).Calls .myLongjmperror u := by
  obtain ⟨u, hsu, hupc, h0, -, hin, -, -⟩ := reaches_label hpc h
  rw [← h0] at hin
  have hrest : (program base).Reaches c.env u ((restored u).goto ((program base).addr 38)) :=
    reaches_restored hupc (h0 ▸ h.aligned)
  have hz : (restored u).z = true := by
    rw [restored_z u hin, decide_eq_true_iff]
    tauto
  exact ⟨_, hsu.trans hrest, .eq, Program.fetch_at (k := 38) rfl rfl, hz⟩

theorem not_leaves_of_calls {u : Machine} (hu : (program base).Reaches c.env s u)
    (hcalls : (program base).Calls .myLongjmperror u) (t : Machine) :
    ¬ (program base).Leaves c.env s t := by
  obtain ⟨hpc, hz⟩ := pc_of_calls hcalls
  exact fun ht => not_leaves_of_error hz hpc t (ht.from hu)

theorem live_of_leaves {t : Machine} (hpc : s.pc = (program base).addr mySiglongjmpEntry)
    (h : CanRestore c base x s) (ht : (program base).Leaves c.env s t) :
    x.reg .sp ≠ 0#32 ∧ x.reg .lr ≠ 0#32 := by
  by_contra hno
  obtain ⟨u, hu, hcalls⟩ := reaches_error hpc h hno
  exact not_leaves_of_calls hu hcalls t ht

/-- `my_siglongjmp` gets out of its code exactly when the context it is given
has a stack pointer and a return address, and exactly otherwise it calls
`my_longjmperror`. -/
theorem siglongjmp_leaves_iff (c : Compiled) (base : Word) (s : Machine) (x : Context)
    (hpc : s.pc = (program base).addr mySiglongjmpEntry) (h : CanRestore c base x s) :
    ((∃ t, (program base).Leaves c.env s t) ↔ x.reg .sp ≠ 0#32 ∧ x.reg .lr ≠ 0#32) ∧
      ((∃ u, (program base).Reaches c.env s u ∧ (program base).Calls .myLongjmperror u) ↔
        ¬ (x.reg .sp ≠ 0#32 ∧ x.reg .lr ≠ 0#32)) := by
  have hleaves : x.reg .sp ≠ 0#32 ∧ x.reg .lr ≠ 0#32 → ∃ t, (program base).Leaves c.env s t := by
    rintro ⟨hsp, hlr⟩
    obtain ⟨t, ht, -⟩ := siglongjmp_restores hpc h hsp hlr
    exact ⟨t, ht⟩
  refine ⟨⟨fun ⟨_, ht⟩ => live_of_leaves hpc h ht, hleaves⟩, ?_, reaches_error hpc h⟩
  · rintro ⟨u, hu, hcalls⟩ hgood
    obtain ⟨t, ht⟩ := hleaves hgood
    exact not_leaves_of_calls hu hcalls t ht

theorem siglongjmp_leaves_iff_cleared :
    (¬ ∃ t, (program 0x4000#32).Leaves frugal.env
      (calling mySiglongjmpEntry 7#32 0x2000#32 0x8000#32 (fun _ => 0#32)) t) ∧
    ∃ u, (program 0x4000#32).Reaches frugal.env
      (calling mySiglongjmpEntry 7#32 0x2000#32 0x8000#32 (fun _ => 0#32)) u ∧
      (program 0x4000#32).Calls .myLongjmperror u := by
  have h := siglongjmp_leaves_iff frugal 0x4000#32
    (calling mySiglongjmpEntry 7#32 0x2000#32 0x8000#32 (fun _ => 0#32))
    ⟨fun _ => 0#32, fun _ => 0#64, 0#32, none⟩ rfl ?_
  · exact ⟨h.1.not.mpr (fun hn => hn.1 rfl), h.2.mpr (fun hn => hn.1 rfl)⟩
  · refine ⟨by decide, ⟨fun _ _ => rfl, fun _ _ => ⟨rfl, by simp; rfl⟩, rfl, rfl⟩,
      by decide, ?_⟩
    exact fun hn => absurd rfl hn

/-- What was saved in a buffer: the context, and the signals blocked then. -/
structure Record where
  context : Context
  blocked : Blocked

/-- A thread with the buffers it has saved its context in. -/
structure Thread where
  machine : Machine
  saved : Word → Option Record

/-- The buffers that are in use are objects that the stack below the stack
pointer does not reach. -/
def Thread.InUse (c : Compiled) (t : Thread) : Prop :=
  ∀ env r, t.saved env = some r → Aligned env ∧
    Apart env jbWords (below (t.machine.reg .sp) (4 + c.depth)) (4 + c.depth)

def maskOf (c : Compiled) (s : Machine) : Option Word :=
  if s.reg .r1 = 0#32 then none else some (c.sigset.bionic s.world.set)

/-- One step of a thread: a call of `my_sigsetjmp` from its entry to its return,
a call of `my_siglongjmp` with a buffer in use, or anything else the thread does
that leaves the buffers it goes on using alone. -/
inductive Step (c : Compiled) (base : Word) : Thread → Thread → Prop
  | setjmp (s t : Machine) (saved : Word → Option Record)
      (entry : s.pc = (program base).addr mySigsetjmpEntry) (ready : CanSave c base s)
      (use : Thread.InUse c ⟨s, saved⟩)
      (apart : ∀ env r, saved env = some r → env ≠ s.reg .r0 →
        Apart env jbWords (s.reg .r0) jbWords)
      (returned : (program base).Leaves c.env s t) :
      Step c base ⟨s, saved⟩
        ⟨t, Function.update saved (s.reg .r0) (some ⟨contextOf t (maskOf c s), s.world⟩)⟩
  | longjmp (s t : Machine) (saved : Word → Option Record)
      (entry : s.pc = (program base).addr mySiglongjmpEntry)
      (use : Thread.InUse c ⟨s, saved⟩) (stack : Aligned (s.reg .sp))
      (known : saved (s.reg .r0) ≠ none) (left : (program base).Leaves c.env s t) :
      Step c base ⟨s, saved⟩ ⟨t, saved⟩
  | other (s t : Machine) (saved kept : Word → Option Record)
      (still : ∀ env r, kept env = some r → saved env = some r)
      (alone : ∀ env r, kept env = some r → ∀ a, Inside env jbWords a → t.mem a = s.mem a) :
      Step c base ⟨s, saved⟩ ⟨t, kept⟩

structure Good (c : Compiled) (base : Word) (m : Memory) (env : Word) (r : Record) : Prop where
  context : r.context.In m env
  caller : (program base).fetch (r.context.reg .lr) = none
  mask : r.context.mask = none ∨ r.context.mask = some (c.sigset.bionic r.blocked.set)

def Holds (c : Compiled) (base : Word) (t : Thread) : Prop :=
  ∀ env r, t.saved env = some r → Good c base t.machine.mem env r

theorem Good.of_same {m m' : Memory} {env : Word} {r : Record} (h : Good c base m env r)
    (hsame : ∀ a, Inside env jbWords a → m' a = m a) : Good c base m' env r :=
  ⟨h.context.of_same hsame, h.caller, h.mask⟩

theorem good_of_saves {t : Machine} (ready : CanSave c base s) (h : Saves c s t) :
    Good c base t.mem (s.reg .r0) ⟨contextOf t (maskOf c s), s.world⟩ where
  context := h.context
  caller := by
    show (program base).fetch (t.reg .lr) = none
    rw [h.reg .lr (by decide) (by decide)]
    exact ready.caller
  mask := by
    by_cases hflag : s.reg .r1 = 0#32
    · exact .inl (if_pos hflag)
    · exact .inr (if_neg hflag)

theorem canRestore_of_holds {t : Thread} {r : Record} (h : Holds c base t) (huse : t.InUse c)
    (hsp : Aligned (t.machine.reg .sp)) (hr : t.saved (t.machine.reg .r0) = some r) :
    CanRestore c base r.context t.machine where
  aligned := (huse _ _ hr).1
  holds := (h _ _ hr).context
  caller := (h _ _ hr).caller
  stack := fun _ => ⟨hsp, (huse _ _ hr).2⟩

theorem inside_of_callStack {a : Word} (h : c.CallStack s a) :
    Inside (below (s.reg .sp) (4 + c.depth)) (4 + c.depth) a := by
  have hd := c.depth_small
  have hbelow : below (s.reg .sp) (2 + c.depth) = below (s.reg .sp) (0 + (2 + c.depth)) := by
    rw [Nat.zero_add]
  unfold Compiled.CallStack at h
  rw [hbelow] at h
  exact h.of_below (by omega) (by omega)

theorem holds_step {t u : Thread} (h : Holds c base t) (hstep : Step c base t u) :
    Holds c base u := by
  cases hstep with
  | setjmp s t saved entry ready use apart returned =>
    obtain ⟨t', ht', hs⟩ := sigsetjmp_saves entry ready
    obtain rfl := returned.unique ht'
    intro env r hr
    change Function.update saved (s.reg .r0) _ env = some r at hr
    by_cases he : env = s.reg .r0
    · subst he
      rw [Function.update_self, Option.some.injEq] at hr
      exact hr ▸ good_of_saves ready hs
    · rw [Function.update_of_ne he] at hr
      refine (h env r hr).of_same (fun a ha => hs.mem a (apart env r hr he a ha) (.inr ?_))
      exact fun hin => (use env r hr).2 a ha (inside_of_callStack hin)
  | longjmp s t saved entry use stack known left =>
    obtain ⟨r, hr⟩ := Option.ne_none_iff_exists'.mp known
    have hcan := canRestore_of_holds h use stack hr
    obtain ⟨hsp, hlr⟩ := live_of_leaves entry hcan left
    obtain ⟨t', ht', hres⟩ := siglongjmp_restores entry hcan hsp hlr
    obtain rfl := left.unique ht'
    intro env q hq
    exact (h env q hq).of_same (fun a ha => hres.mem a (.inr ((use env q hq).2 a ha)))
  | other s t saved kept still alone =>
    exact fun env r hr => (h env r (still env r hr)).of_same (alone env r hr)

theorem holds_run {t u : Thread} (h : Holds c base t)
    (hrun : Relation.ReflTransGen (Step c base) t u) : Holds c base u := by
  induction hrun with
  | refl => exact h
  | tail _ hstep ih => exact holds_step ih hstep

/-- After any run, a jump with a buffer in use goes back to the state in which
the last `my_sigsetjmp` with it returned, with the value given, which is 1 where
that is 0. If the mask was saved, the signals blocked are again those of then,
up to 32; the signals above are not blocked. -/
theorem siglongjmp_of_run (c : Compiled) (base : Word) (s₀ : Machine) (t : Thread) (r : Record)
    (hrun : Relation.ReflTransGen (Step c base) ⟨s₀, fun _ => none⟩ t)
    (entry : t.machine.pc = (program base).addr mySiglongjmpEntry) (huse : t.InUse c)
    (hstack : Aligned (t.machine.reg .sp)) (hr : t.saved (t.machine.reg .r0) = some r)
    (hsp : r.context.reg .sp ≠ 0#32) (hlr : r.context.reg .lr ≠ 0#32) :
    ∃ u, (program base).Leaves c.env t.machine u ∧ Restores c r.context t.machine u ∧
      ∀ i, u.world.set.getLsbD i =
        if r.context.mask = none then t.machine.world.set.getLsbD i
        else decide (i < 32) && r.blocked.set.getLsbD i := by
  have hgood : Holds c base t := holds_run (fun _ _ h => by cases h) hrun
  have hcan := canRestore_of_holds hgood huse hstack hr
  obtain ⟨u, hu, hres⟩ := siglongjmp_restores entry hcan hsp hlr
  refine ⟨u, hu, hres, fun i => ?_⟩
  rw [hres.world]
  rcases (hgood _ _ hr).mask with hnone | hsome
  · rw [hnone, if_pos rfl]
    rfl
  · rw [hsome, if_neg (Option.some_ne_none _)]
    exact drop_set_bionic c.sigset r.blocked i

theorem siglongjmp_of_run_once :
    ∃ t, ∃ r : Record, Relation.ReflTransGen (Step frugal 0x4000#32)
        ⟨calling mySigsetjmpEntry 1#32 0x2000#32 0x8000#32 (fun _ => 0#32), fun _ => none⟩ t ∧
      ∃ u, (program 0x4000#32).Leaves frugal.env t.machine u ∧
        Restores frugal r.context t.machine u ∧
        ∀ i, u.world.set.getLsbD i =
          if r.context.mask = none then t.machine.world.set.getLsbD i
          else decide (i < 32) && r.blocked.set.getLsbD i := by
  let s₀ := calling mySigsetjmpEntry 1#32 0x2000#32 0x8000#32 (fun _ => 0#32)
  have hcan : CanSave frugal 0x4000#32 s₀ :=
    ⟨by decide, by decide, fun _ => ⟨by decide, apart_frugal 2 (by decide)⟩⟩
  have hentry : s₀.pc = (program 0x4000#32).addr mySigsetjmpEntry := rfl
  obtain ⟨m, hm, hs⟩ := sigsetjmp_saves hentry hcan
  let r : Record := ⟨contextOf m (maskOf frugal s₀), s₀.world⟩
  let saved : Word → Option Record := Function.update (fun _ => none) 0x1000#32 (some r)
  have hbuf : ∀ env q, saved env = some q → env = 0x1000#32 := by
    intro env q hq
    by_contra hne
    rw [show saved env = none from Function.update_of_ne hne _ _] at hq
    cases hq
  have hsave : Step frugal 0x4000#32 ⟨s₀, fun _ => none⟩ ⟨m, saved⟩ :=
    .setjmp s₀ m _ rfl hcan (fun _ _ h => by cases h) (fun _ _ h => by cases h) hm
  let l := calling mySiglongjmpEntry 7#32 0x2000#32 0x8000#32 m.mem
  have hother : Step frugal 0x4000#32 ⟨m, saved⟩ ⟨l, saved⟩ :=
    .other m l saved saved (fun _ _ h => h) (fun _ _ _ _ _ => rfl)
  have huse : Thread.InUse frugal ⟨l, saved⟩ := by
    intro env q hq
    rw [hbuf env q hq]
    exact ⟨by decide, apart_frugal 4 (by decide)⟩
  have hsaved : saved 0x1000#32 = some r := Function.update_self _ _ _
  have hsp : m.reg .sp = 0x2000#32 := hs.reg .sp (by decide) (by decide)
  have hlr : m.reg .lr = 0x8000#32 := hs.reg .lr (by decide) (by decide)
  refine ⟨⟨l, saved⟩, r, .tail (.single hsave) hother, ?_⟩
  refine siglongjmp_of_run frugal 0x4000#32 s₀ ⟨l, saved⟩ r (.tail (.single hsave) hother) rfl huse
    (show Aligned 0x2000#32 by decide) hsaved ?_ ?_
  · show m.reg .sp ≠ 0#32
    rw [hsp]
    decide
  · show m.reg .lr ≠ 0#32
    rw [hlr]
    decide

def entryFlag : Bool → Nat × Word
  | true => (mySetjmpEntry, 1#32)
  | false => (my_SetjmpEntry, 0#32)

/-- `my_setjmp` saves the mask and `my__setjmp` does not; otherwise they do what
`my_sigsetjmp` does. -/
theorem setjmp_saves (c : Compiled) (base : Word) (s : Machine) (savesMask : Bool)
    (entry : s.pc = (program base).addr (entryFlag savesMask).1)
    (h : CanSave c base (s.set .r1 (entryFlag savesMask).2)) :
    ∃ t, (program base).Leaves c.env s t ∧ Saves c (s.set .r1 (entryFlag savesMask).2) t := by
  let u := (s.set .r1 (entryFlag savesMask).2).goto ((program base).addr mySigsetjmpEntry)
  have hu : (program base).Reaches c.env s u := by
    cases savesMask with
    | true =>
      have hmov : (program base).Reaches c.env s
          ((s.set .r1 1#32).goto ((program base).addr 1)) :=
        Program.reaches_run (stretch_at base 0 1) entry rfl
      have hb : (program base).step c.env ((s.set .r1 1#32).goto ((program base).addr 1)) =
          some u :=
        Program.step_b (l := Label.mySigsetjmp) (k := 1) (c := .al) rfl rfl rfl
      exact hmov.trans (.single hb)
    | false =>
      have hmov : (program base).Reaches c.env s
          ((s.set .r1 0#32).goto ((program base).addr 3)) :=
        Program.reaches_run (stretch_at base 2 1) entry rfl
      have hb : (program base).step c.env ((s.set .r1 0#32).goto ((program base).addr 3)) =
          some u :=
        Program.step_b (l := Label.mySigsetjmp) (k := 3) (c := .al) rfl rfl rfl
      exact hmov.trans (.single hb)
  have hcan : CanSave c base u := ⟨h.aligned, h.caller, h.stack⟩
  obtain ⟨t, ht, hs⟩ := sigsetjmp_saves (s := u) rfl hcan
  exact ⟨t, ⟨hu.trans ht.1, ht.2⟩,
    hs.pc, hs.ret, hs.reg, hs.vfp, hs.world, hs.context, hs.mem⟩

theorem setjmp_saves_mask :
    ∃ t, (program 0x4000#32).Leaves frugal.env
        (calling mySetjmpEntry 0#32 0x2000#32 0x8000#32 (fun _ => 0#32)) t ∧
      Saves frugal ((calling mySetjmpEntry 0#32 0x2000#32 0x8000#32 (fun _ => 0#32)).set .r1 1#32)
        t :=
  setjmp_saves frugal 0x4000#32 (calling mySetjmpEntry 0#32 0x2000#32 0x8000#32 (fun _ => 0#32))
    true rfl ⟨by decide, by decide, fun _ => ⟨by decide, apart_frugal 2 (by decide)⟩⟩

end FakeLibc.SetJmp

import FakeLibc.Lib.Run
import FakeLibc.PropertyStreams

namespace FakeLibc.PropertyBuffers

open FakeLibc.Lib.CString FakeLibc.Lib.Run FakeLibc.PropertyStreams
open FakeLibc.PropertyGet (Bytes Str Contains Follows lineValue getlines)

/-- The memory of `last_property` and of `last_value`, and of what stands behind
each as far as it was written. -/
structure Statics where
  lastProperty : Bytes
  lastValue : Bytes
deriving DecidableEq

def size : Nat := 4096

def start : Statics := ⟨List.replicate size 0, List.replicate size 0⟩

structure Call where
  name : Str
  value : Bytes
  file : Option Bytes

def step (s : Statics) (call : Call) : Option Statics :=
  (systemPropertyGet 2 (call.file.map .ofContent) ⟨s.lastProperty, s.lastValue, call.value⟩
    call.name).map (fun r => ⟨r.memory.lastProperty, r.memory.lastValue⟩)

/-- Nothing was written behind the array, and it holds a string. -/
structure Within (mem : Bytes) : Prop where
  length_eq : mem.length = size
  nul_mem : 0 ∈ mem

structure Safe (s : Statics) : Prop where
  lastProperty : Within s.lastProperty
  lastValue : Within s.lastValue

/-- The text that the call finds: what follows the name in the first line that
contains it. -/
def Finds (call : Call) (text : Bytes) : Prop :=
  ∃ content ∈ call.file, ∃ line,
    (getlines content).find? (fun line => Contains call.name line) = some line ∧
      Follows call.name line text

/-- Unless the name is the cached one, it is shorter than the array, and so is
the text that is found for it. -/
def Fits (s : Statics) (call : Call) : Prop :=
  call.name.1 ≠ (cstr 0 s.lastProperty).1 →
    call.name.1.length < size ∧ ∀ text, Finds call text → text.length < size

theorem length_strcpy (dst : Bytes) (src : Str) :
    (strcpy dst src).length = max dst.length (strlen src + 1) := by
  simp only [strcpy, strlen, List.length_append, List.length_cons, List.length_drop]
  omega

/-- A copy stays within the array precisely when the string fits. -/
theorem within_strcpy_iff {mem : Bytes} (h : mem.length = size) (src : Str) :
    Within (strcpy mem src) ↔ strlen src < size := by
  constructor
  · intro hw
    have hlength := hw.length_eq
    rw [length_strcpy, h] at hlength
    omega
  · intro hlt
    refine ⟨?_, ?_⟩
    · rw [length_strcpy, h]
      omega
    · rw [strcpy]
      exact List.mem_append_right _ List.mem_cons_self

theorem safe_start : Safe start := by
  have h : Within (List.replicate size 0) :=
    ⟨List.length_replicate, List.mem_replicate.mpr ⟨by decide, rfl⟩⟩
  exact ⟨h, h⟩

section Step

variable {s t : Statics} {call : Call}

theorem step_hit (hhit : call.name.1 = (cstr 0 s.lastProperty).1) : step s call = some s := by
  rw [step, get_cached 2 _ hhit]
  rfl

theorem step_miss (hmiss : call.name.1 ≠ (cstr 0 s.lastProperty).1) :
    ∃ v : Str, step s call = some ⟨strcpy s.lastProperty call.name, strcpy s.lastValue v⟩ ∧
      (∀ text, Finds call text → text = v.1) ∧ (v = empty ∨ Finds call v.1) := by
  cases hfile : call.file with
  | none =>
    refine ⟨empty, ?_, ?_, .inl rfl⟩
    · rw [step, hfile, Option.map_none, get_unopened 2 hmiss]
      rfl
    · rintro text ⟨content, hcontent, _⟩
      rw [hfile] at hcontent
      cases hcontent
  | some content =>
    obtain ⟨hline, hvalue⟩ | ⟨line, v, hline, hfollows, hvalue⟩ :=
      PropertyGet.findSome_cases content call.name
    · refine ⟨empty, ?_, ?_, .inl rfl⟩
      · rw [step, hfile, Option.map_some, get_eof 0 hmiss hvalue rfl]
        rfl
      · rintro text ⟨content', hcontent, line, hfirst, _⟩
        obtain rfl := Option.some.inj (hfile.symm.trans hcontent)
        rw [hline] at hfirst
        cases hfirst
    · have hv := PropertyGet.lineValue_eq_some_iff.mp hfollows
      refine ⟨v, ?_, ?_, .inr ⟨content, hfile, line, hline, hv⟩⟩
      · rw [step, hfile, Option.map_some, get_match 1 hmiss hvalue]
        simp [found, cstr_strcpy]
      · rintro text ⟨content', hcontent, line', hfirst, htext⟩
        obtain rfl := Option.some.inj (hfile.symm.trans hcontent)
        obtain rfl := Option.some.inj (hline.symm.trans hfirst)
        exact PropertyGet.follows_unique htext hv

theorem isSome_step (s : Statics) (call : Call) : (step s call).isSome := by
  by_cases hhit : call.name.1 = (cstr 0 s.lastProperty).1
  · rw [step_hit hhit]
    rfl
  · obtain ⟨v, h, _⟩ := step_miss hhit
    rw [h]
    rfl

theorem safe_step_iff (hs : Safe s) (h : step s call = some t) : Safe t ↔ Fits s call := by
  by_cases hhit : call.name.1 = (cstr 0 s.lastProperty).1
  · obtain rfl := Option.some.inj ((step_hit hhit).symm.trans h)
    exact iff_of_true hs (fun hmiss => absurd hhit hmiss)
  · obtain ⟨v, hstep, honly, hv⟩ := step_miss hhit
    obtain rfl := Option.some.inj (hstep.symm.trans h)
    have hname := within_strcpy_iff hs.lastProperty.length_eq call.name
    have hvalue := within_strcpy_iff hs.lastValue.length_eq v
    constructor
    · intro ht _
      refine ⟨hname.mp ht.lastProperty, fun text htext => ?_⟩
      rw [honly text htext]
      exact hvalue.mp ht.lastValue
    · intro hfits
      obtain ⟨hlt, htext⟩ := hfits hhit
      refine ⟨hname.mpr hlt, hvalue.mpr ?_⟩
      obtain rfl | hfinds := hv
      · exact Nat.succ_pos 4095
      · exact htext v.1 hfinds

end Step

/-- The arrays are kept to throughout a run precisely when what each of its calls
writes fits. -/
theorem safe_iff_fits (calls : List Call) :
    Always step Safe start calls ↔ Guarded step Fits start calls :=
  always_iff_guarded_of_iff (fun _ _ _ => safe_step_iff) safe_start
    (isSome_exec isSome_step start calls)

theorem long_not_nul : (0 : UInt8) ∉ List.replicate size (97 : UInt8) :=
  fun h => absurd (List.eq_of_mem_replicate h) (by decide)

def longCall : Call := ⟨⟨List.replicate size 97, long_not_nul⟩, [7], some [98, 61, 49, 10]⟩

/-- Such a name is written over the end. -/
theorem not_safe_long_name : ¬ Always step Safe start [longCall] := by
  intro h
  obtain ⟨t, ht⟩ := Option.isSome_iff_exists.mp (isSome_step start longCall)
  have hsafe : Safe t := h [longCall] t List.prefix_rfl (by rw [exec_cons, ht]; rfl)
  have hcached : (cstr 0 start.lastProperty).1 = [] :=
    cstr_append_nul nul_notMem_nil (List.replicate 4095 0)
  have hlt := ((safe_step_iff safe_start ht).mp hsafe (by rw [hcached]; exact nofun)).1
  rw [longCall, List.length_replicate] at hlt
  exact Nat.lt_irrefl size hlt

end FakeLibc.PropertyBuffers

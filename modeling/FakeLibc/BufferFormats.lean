import FakeLibc.FbDevStep
import FakeLibc.HwComposerList

namespace FakeLibc.BufferFormats

open FakeLibc.Lib.Run

def wanted (default asked : Nat) : Nat := if asked = 0 then default else asked

namespace FbDev

open FakeLibc.FbDevWindow FakeLibc.FbDevStep

structure Formatted where
  win : Window
  made : Buffer → Nat
  asked : Option Nat

/-- A dequeue that allocates does so with the format of the device. -/
def Formatted.makes (device : Nat) (s : Formatted) (c : Call) (b : Buffer) : Nat :=
  match c with
  | .dequeueBuffer _ =>
    if s.win.allocateBuffers ∧ s.win.bufs.next ≤ b then device else s.made b
  | _ => s.made b

def Formatted.asks (s : Formatted) : Call → Option Nat
  | .setBuffersFormat format => some format
  | _ => s.asked

def Formatted.step (legacy : Bool) (device : Nat) (s : Formatted) (c : Call) : Option Formatted :=
  (FbDevWindow.step legacy s.win c).map (fun w => ⟨w, s.makes device c, s.asks c⟩)

def Formatted.start (g : Garbage) (usage device framebuffers : Nat) : Formatted :=
  ⟨fbDevNativeWindow g usage device framebuffers, fun _ => 0, none⟩

/-- The buffer with which a dequeue returns. What lies in `m_frontBuf` before
the first allocation is none. -/
def Formatted.dequeued (legacy : Bool) (s : Formatted) (c : Call) : Option Buffer :=
  (returned legacy s.win c).filter (fun b => b < (seen s.win c).bufs.next)

def Honoured (legacy : Bool) (device : Nat) (s : Formatted) (c : Call) : Prop :=
  ∀ b ∈ s.dequeued legacy c, ∀ format ∈ s.asked, s.makes device c b = wanted device format

/-- When a buffer is dequeued, the format that was set is 0 or the default one. -/
def Asks (legacy : Bool) (device : Nat) (s : Formatted) (c : Call) : Prop :=
  (s.dequeued legacy c).isSome → ∀ format ∈ s.asked, format = 0 ∨ format = device

def Inv (device : Nat) (s : Formatted) : Prop := ∀ b < s.win.bufs.next, s.made b = device

variable {legacy : Bool} {device : Nat} {s t : Formatted} {c : Call}

theorem wanted_eq_iff (device format : Nat) :
    device = wanted device format ↔ format = 0 ∨ format = device := by
  rw [wanted]
  split
  next h => simp [h]
  next h => simp [h, eq_comm]

theorem bufs_of_step {w v : Window} (h : FbDevWindow.step legacy w c = some v) :
    v.bufs = (seen w c).bufs := by
  cases move_of_step h with
  | handOut free buf hd hb => rfl
  | wait free buf hd hb => rfl
  | queue hb hbusy => rfl
  | posted hb => rfl
  | cancel hb => rfl
  | set usage format count allocate hs => rw [seen_of_sets w hs]

theorem makes_eq (hi : Inv device s) {b : Buffer} (hb : b < (seen s.win c).bufs.next) :
    s.makes device c b = device := by
  cases c with
  | dequeueBuffer ok =>
    rw [Formatted.makes]
    split
    next => rfl
    next hold =>
      refine hi b ?_
      rw [seen, allocated] at hb
      split at hb
      next hflag => exact Nat.not_le.mp (fun hle => hold ⟨hflag, hle⟩)
      next => exact hb
  | _ => exact hi b hb

theorem inv_step (hi : Inv device s) (h : s.step legacy device c = some t) : Inv device t := by
  obtain ⟨v, hv, rfl⟩ := Option.map_eq_some_iff.mp h
  intro b hb
  rw [bufs_of_step hv] at hb
  exact makes_eq hi hb

theorem inv_start (g : Garbage) (usage device framebuffers : Nat) :
    Inv device (.start g usage device framebuffers) := by
  intro b hb
  rw [Formatted.start, fbDevNativeWindow, setBufferCount] at hb
  split at hb <;> cases hb

theorem honoured_iff (hi : Inv device s) : Honoured legacy device s c ↔ Asks legacy device s c := by
  rw [Honoured, Asks]
  cases hb : s.dequeued legacy c with
  | none => simp
  | some b =>
    have hold : b < (seen s.win c).bufs.next :=
      of_decide_eq_true (Option.filter_eq_some_iff.mp hb).2
    simp [makes_eq hi hold, wanted_eq_iff]

end FbDev

namespace HwComposer

open FakeLibc.HwComposerWindow FakeLibc.HwComposerTrace FakeLibc.HwComposerList

structure Formatted where
  win : Window
  made : Buffer → Nat
  asked : Option Nat

/-- A dequeue that allocates does so with the format that was set. -/
def Formatted.makes (s : Formatted) (c : Call) (b : Buffer) : Nat :=
  match c with
  | .dequeueBuffer _ =>
    if s.win.bufs.list = [] ∧ s.win.bufs.next ≤ b then s.win.bufFormat else s.made b
  | _ => s.made b

def Formatted.asks (s : Formatted) : Call → Option Nat
  | .setBuffersFormat format => some format
  | _ => s.asked

def Formatted.step (flags : Nat) (s : Formatted) (c : Call) : Option Formatted :=
  (HwComposerWindow.step flags s.win c).map (fun w => ⟨w, s.makes c, s.asks c⟩)

def Formatted.start (flags format : Nat) : Formatted :=
  ⟨hwComposerNativeWindow flags format, fun _ => 0, none⟩

def Formatted.dequeued (s : Formatted) : Call → Option Buffer
  | .dequeueBuffer ok => returned s.win ok
  | _ => none

def Honoured (default : Nat) (s : Formatted) (c : Call) : Prop :=
  ∀ b ∈ s.dequeued c, ∀ format ∈ s.asked, s.makes c b = wanted default format

/-- When a buffer is dequeued, the format that was set is not 0, unless the
default one is. -/
def Asks (default : Nat) (s : Formatted) (c : Call) : Prop :=
  (s.dequeued c).isSome → ∀ format ∈ s.asked, format = 0 → default = 0

structure Inv (s : Formatted) : Prop where
  current : ∀ b ∈ s.win.bufs.list, s.made b = s.win.bufFormat
  asked : ∀ format ∈ s.asked, s.win.bufFormat = format

variable {flags default : Nat} {s t : Formatted} {c : Call}

theorem eq_wanted_iff (default format : Nat) :
    format = wanted default format ↔ (format = 0 → default = 0) := by
  rw [wanted]
  split
  next h => simp [h, eq_comm]
  next h => simp [h]

theorem makes_eq (hi : Inv s) {ok : Nat} {b : Buffer} (hb : b ∈ (filled s.win ok).bufs.list) :
    s.makes (.dequeueBuffer ok) b = s.win.bufFormat := by
  rw [Formatted.makes]
  by_cases hnil : s.win.bufs.list = []
  · rw [filled_of_nil hnil, list_allocateBuffers hnil, List.mem_range'_1] at hb
    exact if_pos ⟨hnil, hb.1⟩
  · rw [filled_of_ne_nil hnil] at hb
    rw [if_neg (fun h => hnil h.1)]
    exact hi.current b hb

theorem inv_of_nil (hnil : s.win.bufs.list = [])
    (hasked : ∀ format ∈ s.asked, s.win.bufFormat = format) : Inv s := by
  refine ⟨fun b hb => ?_, hasked⟩
  rw [hnil] at hb
  cases hb

theorem inv_dequeueBuffer (hi : Inv s) {ok : Nat} {v : Window}
    (hv : dequeueBuffer s.win ok = some v) :
    Inv ⟨v, s.makes (.dequeueBuffer ok), s.asked⟩ := by
  obtain ⟨b, _, _, hbufs, _, _, _, _, hformat⟩ := dequeueBuffer_some hv
  refine ⟨fun d hd => ?_, fun format hf => ?_⟩
  · rw [hbufs] at hd
    exact (makes_eq hi hd).trans hformat.symm
  · exact hformat.trans (hi.asked format hf)

theorem inv_step (hi : Inv s) (h : s.step flags c = some t) : Inv t := by
  obtain ⟨v, hv, rfl⟩ := Option.map_eq_some_iff.mp h
  cases c with
  | dequeueBuffer ok => exact inv_dequeueBuffer hi hv
  | queueBuffer b fenceFd present =>
    simp only [HwComposerWindow.step, queueBuffer, Option.ite_none_right_eq_some,
      Option.some.injEq] at hv
    obtain ⟨_, _, rfl⟩ := hv
    exact ⟨hi.current, hi.asked⟩
  | cancelBuffer b fenceFd =>
    simp only [HwComposerWindow.step, Option.ite_none_right_eq_some, Option.some.injEq] at hv
    obtain ⟨_, rfl⟩ := hv
    exact ⟨hi.current, hi.asked⟩
  | setUsage usage =>
    obtain rfl := Option.some.inj hv
    rw [setUsage]
    split
    · exact inv_of_nil rfl hi.asked
    · exact ⟨hi.current, hi.asked⟩
  | setBuffersFormat format =>
    obtain rfl := Option.some.inj hv
    have hasked : ∀ x ∈ some format, format = x := fun x hx => Option.some.inj hx
    rw [setBuffersFormat]
    split
    next => exact inv_of_nil rfl hasked
    next hsame =>
      obtain rfl := Classical.not_not.mp hsame
      exact ⟨hi.current, hasked⟩
  | setBufferCount count =>
    obtain rfl := Option.some.inj hv
    rw [setBufferCount]
    split
    · exact inv_of_nil rfl hi.asked
    · exact ⟨hi.current, hi.asked⟩

theorem inv_start (flags format : Nat) : Inv (.start flags format) :=
  inv_of_nil rfl (fun _ hf => nomatch hf)

theorem honoured_iff (hi : Inv s) : Honoured default s c ↔ Asks default s c := by
  rw [Honoured, Asks]
  cases c with
  | dequeueBuffer ok =>
    cases hb : s.dequeued (.dequeueBuffer ok) with
    | none => simp
    | some b =>
      have hmade := makes_eq hi (List.mem_of_getElem? ((returned_eq s.win ok).symm.trans hb))
      cases hf : s.asked with
      | none => simp
      | some format =>
        have hformat := hi.asked format hf
        simp [hmade, hformat, eq_wanted_iff]
  | _ => simp [Formatted.dequeued]

end HwComposer

/-- The frame buffer window has but one format. The HWComposer window knows no
default one. -/
theorem honoured_iff_asks (legacy : Bool) (g : FbDevWindow.Garbage)
    (usage device framebuffers : Nat) (calls : List FbDevWindow.Call) (flags default : Nat)
    (calls' : List HwComposerWindow.Call) :
    (Guarded (FbDev.Formatted.step legacy device) (FbDev.Honoured legacy device)
        (.start g usage device framebuffers) calls ↔
      Guarded (FbDev.Formatted.step legacy device) (FbDev.Asks legacy device)
        (.start g usage device framebuffers) calls) ∧
    (Guarded (HwComposer.Formatted.step flags) (HwComposer.Honoured default)
        (.start flags default) calls' ↔
      Guarded (HwComposer.Formatted.step flags) (HwComposer.Asks default)
        (.start flags default) calls') := by
  constructor
  · refine guarded_congr ?_ (fun s c hi => FbDev.honoured_iff hi)
    exact always_of_step (fun _ _ _ => FbDev.inv_step)
      (FbDev.inv_start g usage device framebuffers) calls
  · refine guarded_congr ?_ (fun s c hi => HwComposer.honoured_iff hi)
    exact always_of_step (fun _ _ _ => HwComposer.inv_step) (HwComposer.inv_start flags default)
      calls'

/-- A format that is not the default one, and the default one by its name 0. -/
theorem not_honoured_five :
    ¬ Guarded (FbDev.Formatted.step false 1) (FbDev.Honoured false 1)
      (.start ⟨0, none, fun _ => 0⟩ 0x1000 1 2) [.setBuffersFormat 5, .dequeueBuffer 2] ∧
    ¬ Guarded (HwComposer.Formatted.step 0x1800) (HwComposer.Honoured 1) (.start 0x1800 1)
      [.setBuffersFormat 0, .dequeueBuffer 2] := by
  constructor
  · intro h
    have hmade := h [.setBuffersFormat 5] _ _ List.prefix_rfl rfl 0 rfl 5 rfl
    exact absurd hmade (by decide)
  · intro h
    have hmade := h [.setBuffersFormat 0] _ _ List.prefix_rfl rfl 0 rfl 0 rfl
    exact absurd hmade (by decide)

end FakeLibc.BufferFormats

import FakeLibc.FbDevStep
import FakeLibc.HwComposerWindow

namespace FakeLibc.OutstandingBuffers

open FakeLibc.Lib.Run FakeLibc.Lib.RefCount

section FbDev

open FakeLibc.FbDevWindow

/-- Every buffer that clients have is referenced by the window. -/
def FbDevReferenced (w : Window) : Prop := ∀ b ∈ outstanding w, 1 ≤ w.bufs.refs b

def FrontListed (legacy : Bool) (w : Window) : Prop :=
  freeNonFront w = none → ∀ b ∈ freeFront legacy w, b ∈ w.bufs.list

/-- A dequeue that allocates finds nothing outstanding, and none meets a front
pointer that was never set. -/
def FbDevKept (legacy : Bool) (w : Window) : Call → Prop
  | .dequeueBuffer _ =>
    if w.allocateBuffers then outstanding w = [] else w.freeBufs ≠ 0 → FrontListed legacy w
  | .wakeFree => w.freeBufs ≠ 0 → FrontListed legacy w
  | .wakeBuf => FrontListed legacy w
  | _ => True

structure FbDevInv (w : Window) : Prop where
  sound : w.bufs.Sound
  listed : ∀ b ∈ outstanding w, b ∈ w.bufs.list

theorem fbDevReferenced_of_inv {w : Window} (hi : FbDevInv w) : FbDevReferenced w :=
  fun b hb => hi.sound.pos_iff.mpr (hi.listed b hb)

theorem take_cases (legacy : Bool) (w : Window) :
    (∃ b ∈ (freeNonFront w).or (freeFront legacy w), take legacy w = handOut w b) ∨
      take legacy w = { w with waitBuf := w.waitBuf + 1 } := by
  unfold take
  cases (freeNonFront w).or (freeFront legacy w) with
  | none => exact .inr rfl
  | some b => exact .inl ⟨b, rfl, rfl⟩

theorem take_bufs (legacy : Bool) (w : Window) : (take legacy w).bufs = w.bufs := by
  obtain ⟨b, _, h⟩ | h := take_cases legacy w <;> rw [h]
  rfl

theorem awaitFree_bufs (legacy : Bool) (w : Window) : (awaitFree legacy w).bufs = w.bufs := by
  unfold awaitFree
  split
  · rfl
  · exact take_bufs legacy w

theorem outstanding_subset_take (legacy : Bool) (w : Window) :
    outstanding w ⊆ outstanding (take legacy w) := by
  obtain ⟨b, _, h⟩ | h := take_cases legacy w <;> rw [h]
  · exact List.subset_cons_self b (outstanding w)
  · exact List.Subset.refl _

theorem outstanding_subset_awaitFree (legacy : Bool) (w : Window) :
    outstanding w ⊆ outstanding (awaitFree legacy w) := by
  unfold awaitFree
  split
  · exact List.Subset.refl _
  · exact outstanding_subset_take legacy w

theorem fbDevInv_take {legacy : Bool} {w : Window} (hi : FbDevInv w)
    (hf : FrontListed legacy w) : FbDevInv (take legacy w) := by
  obtain ⟨b, hb, h⟩ | h := take_cases legacy w <;> rw [h]
  · refine ⟨hi.sound, fun c hc => ?_⟩
    obtain rfl | hc := List.mem_cons.mp hc
    · cases hn : freeNonFront w with
      | some d =>
        obtain rfl : d = c := by simpa [hn] using hb
        exact List.mem_of_find?_eq_some hn
      | none => exact hf hn c (by simpa [hn] using hb)
    · exact hi.listed c hc
  · exact ⟨hi.sound, hi.listed⟩

theorem fbDevInv_awaitFree {legacy : Bool} {w : Window} (hi : FbDevInv w)
    (hf : w.freeBufs ≠ 0 → FrontListed legacy w) : FbDevInv (awaitFree legacy w) := by
  unfold awaitFree
  split
  · exact ⟨hi.sound, hi.listed⟩
  · rename_i hfree
    exact fbDevInv_take hi (hf hfree)

theorem not_fbDevReferenced_take {legacy : Bool} {w : Window} (hi : FbDevInv w)
    (hf : ¬ FrontListed legacy w) : ¬ FbDevReferenced (take legacy w) := by
  simp only [FrontListed, Classical.not_imp, not_forall] at hf
  obtain ⟨hn, b, hb, hlist⟩ := hf
  have htake : take legacy w = handOut w b := by
    have hb : freeFront legacy w = some b := hb
    simp [take, hn, hb]
  intro hr
  rw [htake] at hr
  exact hlist (hi.sound.pos_iff.mp (hr b List.mem_cons_self))

theorem not_fbDevReferenced_awaitFree {legacy : Bool} {w : Window} (hi : FbDevInv w)
    (hf : ¬ (w.freeBufs ≠ 0 → FrontListed legacy w)) :
    ¬ FbDevReferenced (awaitFree legacy w) := by
  obtain ⟨hfree, hf⟩ := Classical.not_imp.mp hf
  rw [awaitFree, if_neg hfree]
  exact not_fbDevReferenced_take hi hf

theorem fbDevInv_reallocateBuffers {w : Window} (hi : FbDevInv w) (hout : outstanding w = [])
    (ok : Nat) : FbDevInv (reallocateBuffers w ok) := by
  refine ⟨hi.sound.clear.fill w.bufferCount ok, fun b hb => ?_⟩
  have hb : b ∈ outstanding w := hb
  simp [hout] at hb

theorem frontListed_reallocateBuffers (legacy : Bool) (w : Window) (ok : Nat) :
    FrontListed legacy (reallocateBuffers w ok) := by
  intro _ b hb
  cases legacy <;> simp [freeFront, reallocateBuffers, destroyBuffers] at hb

theorem not_fbDevReferenced_reallocateBuffers {w : Window} (hi : FbDevInv w)
    (hout : outstanding w ≠ []) (ok : Nat) (legacy : Bool) :
    ¬ FbDevReferenced (awaitFree legacy (reallocateBuffers w ok)) := by
  obtain ⟨b, hb⟩ := List.exists_mem_of_ne_nil _ hout
  intro hr
  have hrefs := hr b (outstanding_subset_awaitFree legacy (reallocateBuffers w ok) hb)
  rw [awaitFree_bufs] at hrefs
  have hzero : (reallocateBuffers w ok).bufs.refs b = 0 :=
    hi.sound.refs_fill_clear (hi.listed b hb) w.bufferCount ok
  omega

theorem FbDevInv.mono {w v : Window} (hi : FbDevInv w) (hbufs : v.bufs = w.bufs)
    (hout : outstanding v ⊆ outstanding w) : FbDevInv v :=
  ⟨hbufs ▸ hi.sound, fun b hb => hbufs ▸ hi.listed b (hout hb)⟩

theorem outstanding_queueBuffer {w : Window} {b : Buffer} (hb : b ∈ w.held) :
    outstanding (queueBuffer w b) ⊆ outstanding w := by
  intro c hc
  obtain hc | hc := List.mem_append.mp hc
  · exact List.mem_append_left _ (List.mem_of_mem_erase hc)
  · obtain rfl | hc := List.mem_cons.mp hc
    · exact List.mem_append_left _ hb
    · exact List.mem_append_right _ hc

theorem outstanding_posted (w : Window) (b : Buffer) :
    outstanding (posted w b) ⊆ outstanding w :=
  List.append_subset.mpr ⟨List.subset_append_left _ _,
    fun _ hc => List.mem_append_right _ (List.mem_of_mem_erase hc)⟩

theorem outstanding_cancelBuffer (w : Window) (b : Buffer) :
    outstanding (cancelBuffer w b) ⊆ outstanding w :=
  List.append_subset.mpr ⟨fun _ hc => List.mem_append_left _ (List.mem_of_mem_erase hc),
    List.subset_append_right _ _⟩

theorem fbDevInv_step {legacy : Bool} {w v : Window} {c : Call} (hi : FbDevInv w)
    (hc : FbDevKept legacy w c) (h : step legacy w c = some v) : FbDevInv v := by
  obtain ⟨he, rfl⟩ := FbDevStep.perform_of_step h
  cases c with
  | dequeueBuffer ok =>
    simp only [FbDevKept] at hc
    simp only [perform, dequeueBuffer]
    split at hc
    · rename_i ha
      rw [if_pos ha]
      exact fbDevInv_awaitFree (fbDevInv_reallocateBuffers hi hc ok)
        (fun _ => frontListed_reallocateBuffers legacy w ok)
    · rename_i ha
      rw [if_neg ha]
      exact fbDevInv_awaitFree hi hc
  | wakeFree => exact fbDevInv_awaitFree (w := { w with waitFree := _ }) ⟨hi.sound, hi.listed⟩ hc
  | wakeBuf => exact fbDevInv_take (w := { w with waitBuf := _ }) ⟨hi.sound, hi.listed⟩ hc
  | queueBuffer b => exact hi.mono rfl (outstanding_queueBuffer he.1)
  | posted b => exact hi.mono rfl (outstanding_posted w b)
  | cancelBuffer b => exact hi.mono rfl (outstanding_cancelBuffer w b)
  | setUsage usage => exact ⟨hi.sound, hi.listed⟩
  | setBuffersFormat format => exact ⟨hi.sound, hi.listed⟩
  | setBufferCount cnt =>
    simp only [perform, setBufferCount]
    split
    · exact ⟨hi.sound, hi.listed⟩
    · exact hi

theorem not_fbDevReferenced_of_not_kept {legacy : Bool} {w v : Window} {c : Call}
    (hi : FbDevInv w) (hc : ¬ FbDevKept legacy w c) (h : step legacy w c = some v) :
    ¬ FbDevReferenced v := by
  obtain ⟨_, rfl⟩ := FbDevStep.perform_of_step h
  cases c with
  | dequeueBuffer ok =>
    simp only [FbDevKept] at hc
    simp only [perform, dequeueBuffer]
    split at hc
    · rename_i ha
      rw [if_pos ha]
      exact not_fbDevReferenced_reallocateBuffers hi hc ok legacy
    · rename_i ha
      rw [if_neg ha]
      exact not_fbDevReferenced_awaitFree hi hc
  | wakeFree =>
    exact not_fbDevReferenced_awaitFree (w := { w with waitFree := _ }) ⟨hi.sound, hi.listed⟩ hc
  | wakeBuf =>
    exact not_fbDevReferenced_take (w := { w with waitBuf := _ }) ⟨hi.sound, hi.listed⟩ hc
  | _ => exact absurd trivial hc

theorem fbDevInv_start (g : Garbage) (usage format framebuffers : Nat) :
    FbDevInv (fbDevNativeWindow g usage format framebuffers) := by
  unfold fbDevNativeWindow setBufferCount
  split <;> exact ⟨sound_empty, by simp [outstanding]⟩

theorem fbDevReferenced_iff {legacy : Bool} {g : Garbage} {usage format framebuffers : Nat}
    {calls : List Call}
    (hrun : (exec (step legacy) (fbDevNativeWindow g usage format framebuffers) calls).isSome) :
    Always (step legacy) FbDevReferenced (fbDevNativeWindow g usage format framebuffers) calls ↔
      Guarded (step legacy) (FbDevKept legacy) (fbDevNativeWindow g usage format framebuffers)
        calls :=
  always_iff_guarded (fun _ => fbDevReferenced_of_inv) (fun _ _ _ => fbDevInv_step)
    (fun _ _ _ => not_fbDevReferenced_of_not_kept) (fbDevInv_start g usage format framebuffers) hrun

end FbDev

section HwComposer

open FakeLibc.HwComposerWindow

def HwComposerReferenced (w : Window) : Prop := ∀ b ∈ w.held, 1 ≤ w.bufs.refs b

/-- A setter that changes its value finds nothing outstanding. -/
def HwComposerKept (flags : Nat) (w : Window) : Call → Prop
  | .setUsage usage => w.usage ≠ usage ||| flags → w.held = []
  | .setBuffersFormat format => format ≠ w.bufFormat → w.held = []
  | .setBufferCount count => count ≠ w.bufferCount → w.held = []
  | _ => True

structure HwComposerInv (w : Window) : Prop where
  sound : w.bufs.Sound
  listed : ∀ b ∈ w.held, b ∈ w.bufs.list

theorem hwComposerReferenced_of_inv {w : Window} (hi : HwComposerInv w) :
    HwComposerReferenced w := fun b hb => hi.sound.pos_iff.mpr (hi.listed b hb)

theorem hwComposerInv_destroyBuffers {w : Window} (hi : HwComposerInv w) (hheld : w.held = []) :
    HwComposerInv (destroyBuffers w) :=
  ⟨hi.sound.clear, fun b hb => absurd hb (by simp [destroyBuffers, hheld])⟩

theorem not_hwComposerReferenced_destroyBuffers {w : Window} (hi : HwComposerInv w)
    (hheld : w.held ≠ []) : ¬ HwComposerReferenced (destroyBuffers w) := by
  obtain ⟨b, hb⟩ := List.exists_mem_of_ne_nil _ hheld
  intro hr
  have hrefs : 1 ≤ w.bufs.clear.refs b := hr b hb
  rw [hi.sound.refs_clear] at hrefs
  omega

theorem hwComposerInv_allocateBuffers {w : Window} (hi : HwComposerInv w)
    (hempty : w.bufs.list.isEmpty) (ok : Nat) : HwComposerInv (allocateBuffers w ok) := by
  refine ⟨hi.sound.fill w.bufferCount ok, fun b hb => ?_⟩
  have hb : b ∈ w.bufs.list := hi.listed b hb
  simp [List.isEmpty_iff.mp hempty] at hb

theorem hwComposerInv_dequeueBuffer {w v : Window} (hi : HwComposerInv w) {ok : Nat}
    (h : dequeueBuffer w ok = some v) : HwComposerInv v := by
  unfold dequeueBuffer at h
  obtain ⟨b, hb, rfl⟩ := Option.map_eq_some_iff.mp h
  have hi : HwComposerInv (if w.bufs.list.isEmpty then allocateBuffers w ok else w) := by
    split
    · rename_i hempty
      exact hwComposerInv_allocateBuffers hi hempty ok
    · exact hi
  refine ⟨hi.sound, fun c hc => ?_⟩
  obtain rfl | hc := List.mem_cons.mp hc
  · exact List.mem_of_getElem? hb
  · exact hi.listed c hc

theorem hwComposerInv_erase {w v : Window} (hi : HwComposerInv w) {b : Buffer}
    (hbufs : v.bufs = w.bufs) (hheld : v.held = w.held.erase b) : HwComposerInv v := by
  refine ⟨hbufs ▸ hi.sound, fun c hc => hbufs ▸ hi.listed c ?_⟩
  exact List.mem_of_mem_erase (hheld ▸ hc)

theorem hwComposerInv_step {flags : Nat} {w v : Window} {c : Call} (hi : HwComposerInv w)
    (hc : HwComposerKept flags w c) (h : step flags w c = some v) : HwComposerInv v := by
  cases c with
  | dequeueBuffer ok => exact hwComposerInv_dequeueBuffer hi h
  | queueBuffer b fenceFd present =>
    simp only [step, queueBuffer, Option.ite_none_right_eq_some, Option.some.injEq] at h
    obtain ⟨_, _, rfl⟩ := h
    exact hwComposerInv_erase hi rfl rfl
  | cancelBuffer b fenceFd =>
    simp only [step, Option.ite_none_right_eq_some, Option.some.injEq] at h
    obtain ⟨_, rfl⟩ := h
    exact hwComposerInv_erase hi rfl rfl
  | setUsage usage =>
    obtain rfl := Option.some.inj h
    simp only [setUsage]
    split
    · rename_i hne
      exact hwComposerInv_destroyBuffers (w := { w with usage := _ }) ⟨hi.sound, hi.listed⟩ (hc hne)
    · exact ⟨hi.sound, hi.listed⟩
  | setBuffersFormat format =>
    obtain rfl := Option.some.inj h
    simp only [setBuffersFormat]
    split
    · rename_i hne
      exact hwComposerInv_destroyBuffers (w := { w with bufFormat := _ }) ⟨hi.sound, hi.listed⟩
        (hc hne)
    · exact ⟨hi.sound, hi.listed⟩
  | setBufferCount count =>
    obtain rfl := Option.some.inj h
    simp only [setBufferCount]
    split
    · rename_i hne
      have hi := hwComposerInv_destroyBuffers hi (hc hne)
      exact ⟨hi.sound, hi.listed⟩
    · exact ⟨hi.sound, hi.listed⟩

theorem not_hwComposerReferenced_of_not_kept {flags : Nat} {w v : Window} {c : Call}
    (hi : HwComposerInv w) (hc : ¬ HwComposerKept flags w c) (h : step flags w c = some v) :
    ¬ HwComposerReferenced v := by
  cases c with
  | setUsage usage =>
    obtain ⟨hne, hheld⟩ := Classical.not_imp.mp hc
    obtain rfl := Option.some.inj h
    simp only [setUsage, if_pos hne]
    exact not_hwComposerReferenced_destroyBuffers (w := { w with usage := _ })
      ⟨hi.sound, hi.listed⟩ hheld
  | setBuffersFormat format =>
    obtain ⟨hne, hheld⟩ := Classical.not_imp.mp hc
    obtain rfl := Option.some.inj h
    simp only [setBuffersFormat, if_pos hne]
    exact not_hwComposerReferenced_destroyBuffers (w := { w with bufFormat := _ })
      ⟨hi.sound, hi.listed⟩ hheld
  | setBufferCount count =>
    obtain ⟨hne, hheld⟩ := Classical.not_imp.mp hc
    obtain rfl := Option.some.inj h
    simp only [setBufferCount, if_pos hne]
    intro hr
    exact not_hwComposerReferenced_destroyBuffers hi hheld (fun b hb => hr b hb)
  | _ => exact absurd trivial hc

theorem hwComposerReferenced_iff {flags format : Nat} {calls : List Call}
    (hrun : (exec (step flags) (hwComposerNativeWindow flags format) calls).isSome) :
    Always (step flags) HwComposerReferenced (hwComposerNativeWindow flags format) calls ↔
      Guarded (step flags) (HwComposerKept flags) (hwComposerNativeWindow flags format) calls :=
  always_iff_guarded (fun _ => hwComposerReferenced_of_inv) (fun _ _ _ => hwComposerInv_step)
    (fun _ _ _ => not_hwComposerReferenced_of_not_kept)
    ⟨sound_empty, by simp [hwComposerNativeWindow]⟩ hrun

end HwComposer

/-- Outstanding buffers stay referenced precisely when no buffer of the window
is dropped under a client. -/
theorem referenced_iff_kept {legacy : Bool} {g : FbDevWindow.Garbage}
    {usage fbFormat framebuffers flags format : Nat} {fbCalls : List FbDevWindow.Call}
    {calls : List HwComposerWindow.Call}
    (hfb : (exec (FbDevWindow.step legacy)
      (FbDevWindow.fbDevNativeWindow g usage fbFormat framebuffers) fbCalls).isSome)
    (hhwc : (exec (HwComposerWindow.step flags)
      (HwComposerWindow.hwComposerNativeWindow flags format) calls).isSome) :
    (Always (FbDevWindow.step legacy) FbDevReferenced
        (FbDevWindow.fbDevNativeWindow g usage fbFormat framebuffers) fbCalls ↔
      Guarded (FbDevWindow.step legacy) (FbDevKept legacy)
        (FbDevWindow.fbDevNativeWindow g usage fbFormat framebuffers) fbCalls) ∧
    (Always (HwComposerWindow.step flags) HwComposerReferenced
        (HwComposerWindow.hwComposerNativeWindow flags format) calls ↔
      Guarded (HwComposerWindow.step flags) (HwComposerKept flags)
        (HwComposerWindow.hwComposerNativeWindow flags format) calls) :=
  ⟨fbDevReferenced_iff hfb, hwComposerReferenced_iff hhwc⟩

/-- A frame is drawn on either window and its buffers are replaced afterwards. -/
theorem referenced_iff_kept_frame :
    (Always (FbDevWindow.step true) FbDevReferenced
        (FbDevWindow.fbDevNativeWindow ⟨7, some 9, fun _ => 3⟩ 4096 1 2)
        [.dequeueBuffer 2, .queueBuffer 0, .posted 0, .setBufferCount 3, .dequeueBuffer 3] ↔
      Guarded (FbDevWindow.step true) (FbDevKept true)
        (FbDevWindow.fbDevNativeWindow ⟨7, some 9, fun _ => 3⟩ 4096 1 2)
        [.dequeueBuffer 2, .queueBuffer 0, .posted 0, .setBufferCount 3, .dequeueBuffer 3]) ∧
    (Always (HwComposerWindow.step 6144) HwComposerReferenced
        (HwComposerWindow.hwComposerNativeWindow 6144 1)
        [.dequeueBuffer 2, .queueBuffer 0 5 id, .setBufferCount 3, .dequeueBuffer 3] ↔
      Guarded (HwComposerWindow.step 6144) (HwComposerKept 6144)
        (HwComposerWindow.hwComposerNativeWindow 6144 1)
        [.dequeueBuffer 2, .queueBuffer 0 5 id, .setBufferCount 3, .dequeueBuffer 3]) :=
  referenced_iff_kept (by decide) (by decide)

/-- A new buffer count drops the buffer that is being drawn on, at the next
dequeue in one window and at once in the other. -/
theorem not_referenced_setBufferCount :
    (¬ ∀ calls,
      (exec (FbDevWindow.step false)
        (FbDevWindow.fbDevNativeWindow ⟨0, none, fun _ => 0⟩ 4096 1 2) calls).isSome →
      Always (FbDevWindow.step false) FbDevReferenced
        (FbDevWindow.fbDevNativeWindow ⟨0, none, fun _ => 0⟩ 4096 1 2) calls) ∧
    ¬ ∀ calls,
      (exec (HwComposerWindow.step 6144)
        (HwComposerWindow.hwComposerNativeWindow 6144 1) calls).isSome →
      Always (HwComposerWindow.step 6144) HwComposerReferenced
        (HwComposerWindow.hwComposerNativeWindow 6144 1) calls := by
  constructor
  · intro h
    have hr := h [.dequeueBuffer 2, .setBufferCount 3, .dequeueBuffer 3] (by decide)
      _ _ List.prefix_rfl rfl
    exact absurd (hr 0 (by decide)) (by decide)
  · intro h
    have hr := h [.dequeueBuffer 2, .setBufferCount 3] (by decide) _ _ List.prefix_rfl rfl
    exact absurd (hr 0 (by decide)) (by decide)

end FakeLibc.OutstandingBuffers

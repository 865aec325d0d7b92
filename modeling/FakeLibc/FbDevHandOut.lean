import FakeLibc.FbDevStep

namespace FakeLibc.FbDevHandOut

open FakeLibc.Lib.Run FakeLibc.Lib.RefCount FakeLibc.FbDevWindow FakeLibc.FbDevStep

/-- The buffer with which a call returns is with nobody else, and it is not the
one that is shown. -/
def Exclusive (w : Window) (c : Call) : Prop :=
  ∀ b ∈ returned false w c, b ∉ outstanding w ∧ (perform false w c).frontBuf ≠ some b ∧
    (perform false w c).held = b :: w.held

structure Tracked (w : Window) : Prop where
  heldBusy : ∀ b ∈ w.held, w.busy b = 1
  postingBusy : ∀ b ∈ w.posting, w.busy b = 2
  heldNodup : w.held.Nodup
  postingNodup : w.posting.Nodup
  sound : w.bufs.Sound
  old : ∀ b ∈ outstanding w, b < w.bufs.next

variable {w v : Window} {c : Call} {b : Buffer}

theorem Tracked.not_mem_of_free (hi : Tracked w) (hb : w.busy b = 0) : b ∉ outstanding w := by
  intro hmem
  obtain hmem | hmem := List.mem_append.mp hmem
  · exact absurd (hb.symm.trans (hi.heldBusy b hmem)) (by decide)
  · exact absurd (hb.symm.trans (hi.postingBusy b hmem)) (by decide)

theorem Tracked.not_mem_posting (hi : Tracked w) (hb : b ∈ w.held) : b ∉ w.posting :=
  fun hp => absurd ((hi.heldBusy b hb).symm.trans (hi.postingBusy b hp)) (by decide)

theorem Tracked.waiting (hi : Tracked w) (free buf : Nat) :
    Tracked { w with waitFree := free, waitBuf := buf } :=
  ⟨hi.heldBusy, hi.postingBusy, hi.heldNodup, hi.postingNodup, hi.sound, hi.old⟩

theorem tracked_reallocateBuffers (hi : Tracked w) (ok : Nat) :
    Tracked (reallocateBuffers w ok) := by
  have hkeep : ∀ b ∈ outstanding w, (reallocateBuffers w ok).busy b = w.busy b := by
    intro b hb
    refine if_neg fun hmem => ?_
    have hmem : b ∈ (reallocateBuffers w ok).bufs.list := hmem
    rw [list_reallocateBuffers, List.mem_range'_1] at hmem
    exact absurd (hi.old b hb) (Nat.not_lt.mpr hmem.1)
  refine ⟨fun b hb => ?_, fun b hb => ?_, hi.heldNodup, hi.postingNodup,
    hi.sound.clear.fill w.bufferCount ok, fun b hb => ?_⟩
  · rw [hkeep b (List.mem_append_left _ hb)]
    exact hi.heldBusy b hb
  · rw [hkeep b (List.mem_append_right _ hb)]
    exact hi.postingBusy b hb
  · exact Nat.lt_of_lt_of_le (hi.old b hb) (next_le_fill w.bufs.clear _ _)

theorem mem_of_found (h : found false w = some b) :
    b ∈ w.bufs.list ∧ w.busy b = 0 ∧ w.frontBuf ≠ some b := by
  refine mem_of_freeNonFront ?_
  rw [← h]
  exact Option.or_none.symm

theorem tracked_handOut (hi : Tracked w) (h : found false w = some b) : Tracked (handOut w b) := by
  obtain ⟨hlist, hfree, _⟩ := mem_of_found h
  have hout := hi.not_mem_of_free hfree
  have hkeep : ∀ d ∈ outstanding w, (handOut w b).busy d = w.busy d := by
    intro d hd
    have hne : d ≠ b := fun heq => hout (heq ▸ hd)
    exact Function.update_of_ne hne ..
  refine ⟨fun d hd => ?_, fun d hd => ?_, ?_, hi.postingNodup, hi.sound, fun d hd => ?_⟩
  · obtain rfl | hd := List.mem_cons.mp hd
    · exact Function.update_self ..
    · rw [hkeep d (List.mem_append_left _ hd)]
      exact hi.heldBusy d hd
  · rw [hkeep d (List.mem_append_right _ hd)]
    exact hi.postingBusy d hd
  · exact List.nodup_cons.mpr ⟨fun hmem => hout (List.mem_append_left _ hmem), hi.heldNodup⟩
  · obtain rfl | hd := List.mem_cons.mp hd
    · exact hi.sound.old d hlist
    · exact hi.old d hd

theorem tracked_queueBuffer (hi : Tracked w) (hb : b ∈ w.held) : Tracked (queueBuffer w b) := by
  have hkeep : ∀ d, d ≠ b → (queueBuffer w b).busy d = w.busy d := fun d hd =>
    Function.update_of_ne hd ..
  refine ⟨fun d hd => ?_, fun d hd => ?_, hi.heldNodup.erase b, ?_, hi.sound, fun d hd => ?_⟩
  · obtain ⟨hne, hd⟩ := hi.heldNodup.mem_erase_iff.mp hd
    rw [hkeep d hne]
    exact hi.heldBusy d hd
  · obtain rfl | hd := List.mem_cons.mp hd
    · exact Function.update_self ..
    · rw [hkeep d (fun heq => hi.not_mem_posting hb (heq ▸ hd))]
      exact hi.postingBusy d hd
  · exact List.nodup_cons.mpr ⟨hi.not_mem_posting hb, hi.postingNodup⟩
  · obtain hd | hd := List.mem_append.mp hd
    · exact hi.old d (List.mem_append_left _ (List.mem_of_mem_erase hd))
    · obtain rfl | hd := List.mem_cons.mp hd
      · exact hi.old d (List.mem_append_left _ hb)
      · exact hi.old d (List.mem_append_right _ hd)

theorem tracked_posted (hi : Tracked w) (hb : b ∈ w.posting) : Tracked (posted w b) := by
  have hkeep : ∀ d, d ≠ b → (posted w b).busy d = w.busy d := fun d hd =>
    Function.update_of_ne hd ..
  refine ⟨fun d hd => ?_, fun d hd => ?_, hi.heldNodup, hi.postingNodup.erase b, hi.sound,
    fun d hd => ?_⟩
  · rw [hkeep d (fun heq => hi.not_mem_posting hd (heq ▸ hb))]
    exact hi.heldBusy d hd
  · obtain ⟨hne, hd⟩ := hi.postingNodup.mem_erase_iff.mp hd
    rw [hkeep d hne]
    exact hi.postingBusy d hd
  · obtain hd | hd := List.mem_append.mp hd
    · exact hi.old d (List.mem_append_left _ hd)
    · exact hi.old d (List.mem_append_right _ (List.mem_of_mem_erase hd))

theorem tracked_cancelBuffer (hi : Tracked w) (hb : b ∈ w.held) : Tracked (cancelBuffer w b) := by
  have hkeep : ∀ d, d ≠ b → (cancelBuffer w b).busy d = w.busy d := fun d hd =>
    Function.update_of_ne hd ..
  refine ⟨fun d hd => ?_, fun d hd => ?_, hi.heldNodup.erase b, hi.postingNodup, hi.sound,
    fun d hd => ?_⟩
  · obtain ⟨hne, hd⟩ := hi.heldNodup.mem_erase_iff.mp hd
    rw [hkeep d hne]
    exact hi.heldBusy d hd
  · rw [hkeep d (fun heq => hi.not_mem_posting hb (heq ▸ hd))]
    exact hi.postingBusy d hd
  · obtain hd | hd := List.mem_append.mp hd
    · exact hi.old d (List.mem_append_left _ (List.mem_of_mem_erase hd))
    · exact hi.old d (List.mem_append_right _ hd)

theorem tracked_seen (hi : Tracked w) (c : Call) : Tracked (seen w c) :=
  seen_of_both hi (tracked_reallocateBuffers hi) c

theorem tracked_step (hi : Tracked w) (h : step false w c = some v) : Tracked v := by
  cases move_of_step h with
  | handOut free buf hd hb =>
    exact (tracked_handOut (tracked_seen hi c) (found_of_returned hb)).waiting free buf
  | wait free buf hd hb => exact (tracked_seen hi c).waiting free buf
  | queue hb hbusy => exact tracked_queueBuffer hi hb
  | posted hb => exact tracked_posted hi hb
  | cancel hb => exact tracked_cancelBuffer hi hb
  | set usage format count allocate hs =>
    exact ⟨hi.heldBusy, hi.postingBusy, hi.heldNodup, hi.postingNodup, hi.sound, hi.old⟩

theorem tracked_fbDevNativeWindow (g : Garbage) (usage format framebuffers : Nat) :
    Tracked (fbDevNativeWindow g usage format framebuffers) := by
  rw [fbDevNativeWindow, setBufferCount]
  split <;> exact ⟨by simp, by simp, List.nodup_nil, List.nodup_nil, sound_empty,
    by simp [outstanding]⟩

theorem perform_of_returned (h : returned false w c = some b) :
    ∃ free buf, perform false w c =
      { handOut (seen w c) b with waitFree := free, waitBuf := buf } := by
  cases c with
  | dequeueBuffer ok => exact ⟨_, _, awaitFree_of_foundFree h⟩
  | wakeFree =>
    have h : foundFree false { w with waitFree := w.waitFree - 1 } = some b := h
    exact ⟨_, _, awaitFree_of_foundFree h⟩
  | wakeBuf =>
    have h : found false { w with waitBuf := w.waitBuf - 1 } = some b := h
    exact ⟨_, _, take_of_found h⟩
  | _ => cases h

theorem exclusive_of_tracked (hi : Tracked w) (c : Call) : Exclusive w c := by
  intro b hb
  obtain ⟨hlist, hfree, hfront⟩ := mem_of_found (found_of_returned hb)
  obtain ⟨free, buf, hperform⟩ := perform_of_returned hb
  have hout := (tracked_seen hi c).not_mem_of_free hfree
  rw [outstanding, seen_held, seen_posting] at hout
  rw [hperform]
  exact ⟨hout, hfront, congrArg (List.cons b) (seen_held w c)⟩

/-- Without the fallback to the front buffer, no dequeue returns a buffer that
is outstanding or shown, whatever the threads and the allocations do. -/
theorem exclusive_handOut (g : Garbage) (usage format framebuffers : Nat) (calls : List Call) :
    Guarded (step false) Exclusive (fbDevNativeWindow g usage format framebuffers) calls :=
  guarded_of_inv
    (always_of_step (fun _ _ _ => tracked_step)
      (tracked_fbDevNativeWindow g usage format framebuffers) calls)
    (fun _ c hi => exclusive_of_tracked hi c)

end FakeLibc.FbDevHandOut

import FakeLibc.HwComposerTrace

namespace FakeLibc.HwComposerHandOut

open FakeLibc.Lib.Run FakeLibc.Lib.RefCount FakeLibc.Lib.RoundRobin FakeLibc.HwComposerWindow
open FakeLibc.HwComposerTrace

/-- A client dequeues only while fewer buffers are out than the window was set
to, and changes no parameter. -/
def Plays (s : Traced) : Call → Prop
  | .dequeueBuffer _ => s.win.held.length < s.win.bufferCount
  | .queueBuffer .. | .cancelBuffer .. => True
  | .setUsage _ | .setBuffersFormat _ | .setBufferCount _ => False

instance decidablePlays : (s : Traced) → (c : Call) → Decidable (Plays s c)
  | s, .dequeueBuffer _ => inferInstanceAs (Decidable (s.win.held.length < s.win.bufferCount))
  | _, .queueBuffer .. | _, .cancelBuffer .. => .isTrue trivial
  | _, .setUsage _ | _, .setBuffersFormat _ | _, .setBufferCount _ => .isFalse not_false

def play (flags : Nat) (s : Traced) (c : Call) : Option Traced :=
  if Plays s c then tracedStep flags s c else none

def counted (flags width height format n : Nat) : Traced :=
  let s := tracedWindow flags width height format
  { s with win := setBufferCount s.win n }

/-- No buffer is out twice, and no buffer that is out has a fence. -/
def HeldOnce (s : Traced) : Prop := s.win.held.Nodup ∧ ∀ b ∈ s.win.held, s.win.fenceFd b = -1

/-- What was dequeued one round of the list ago has been returned. -/
def RoundReturned (s : Traced) : Call → Prop
  | .dequeueBuffer _ =>
    s.win.bufs.list.length ≤ s.dequeued.length →
      ∀ b ∈ s.dequeued[s.dequeued.length - s.win.bufs.list.length]?, b ∉ s.win.held
  | _ => True

structure Inv (s : Traced) : Prop where
  once : HeldOnce s
  seen : s.win.held ⊆ s.dequeued
  nodup : s.win.bufs.list.Nodup
  turn : InTurn s.win.bufs.list 0 s.dequeued
  index : s.win.nextBuffer = s.dequeued.length % s.win.bufs.list.length
  start : s.win.bufs.list = [] → s.dequeued = []

variable {flags : Nat} {s t : Traced} {c : Call}

theorem inv_filled (hi : Inv s) (ok : Nat) :
    (filled s.win ok).bufs.list.Nodup ∧ InTurn (filled s.win ok).bufs.list 0 s.dequeued ∧
      (filled s.win ok).nextBuffer = s.dequeued.length % (filled s.win ok).bufs.list.length ∧
      ∀ b ∈ s.win.held, (filled s.win ok).fenceFd b = -1 := by
  by_cases hnil : s.win.bufs.list = []
  · have hd := hi.start hnil
    have hheld : s.win.held = [] := List.eq_nil_of_subset_nil (hd ▸ hi.seen)
    have hlist : (filled s.win ok).bufs.list =
        List.range' s.win.bufs.next (min s.win.bufferCount ok) := by
      rw [filled, if_pos (by rw [hnil]; rfl), allocateBuffers, list_fill, hnil, List.nil_append]
    refine ⟨hlist ▸ List.nodup_range', hd ▸ inTurn_nil, ?_, by simp [hheld]⟩
    rw [filled, if_pos (by rw [hnil]; rfl), hd]
    exact (Nat.zero_mod _).symm
  · have hsame : filled s.win ok = s.win := if_neg (by rwa [List.isEmpty_iff])
    rw [hsame]
    exact ⟨hi.nodup, hi.turn, hi.index, hi.once.2⟩

/-- The buffer that is returned is out just when what was dequeued one round
ago has not come back: it is the same buffer. -/
theorem returned_mem_held_iff (hi : Inv s) {ok : Nat} {b : Buffer}
    (hb : returned s.win ok = some b) :
    b ∈ s.win.held ↔ ¬ RoundReturned s (.dequeueBuffer ok) := by
  obtain ⟨hnodup, hturn, hindex, _⟩ := inv_filled hi ok
  have hnext : (filled s.win ok).bufs.list[(0 + s.dequeued.length)
      % (filled s.win ok).bufs.list.length]? = some b := by
    rw [Nat.zero_add, ← hindex]
    exact (returned_eq s.win ok).symm.trans hb
  by_cases hnil : s.win.bufs.list = []
  · have hd := hi.start hnil
    have hheld : s.win.held = [] := List.eq_nil_of_subset_nil (hd ▸ hi.seen)
    have hr : RoundReturned s (.dequeueBuffer ok) := fun _ c _ => by simp [hheld]
    exact ⟨fun hmem => by simp [hheld] at hmem, fun hn => absurd hr hn⟩
  · have hsame : filled s.win ok = s.win := if_neg (by rwa [List.isEmpty_iff])
    rw [hsame] at hturn hnext hnodup
    constructor
    · intro hmem hr
      have hle := (hturn.next_mem_iff hnodup hnext).mp (hi.seen hmem)
      exact hr hle b ((hturn.getElem?_sub hnil hle).trans hnext) hmem
    · intro hn
      simp only [RoundReturned, not_forall, not_not] at hn
      obtain ⟨hle, c, hc, hmem⟩ := hn
      have heq : some c = some b := hc.symm.trans ((hturn.getElem?_sub hnil hle).trans hnext)
      exact Option.some.inj heq ▸ hmem

theorem step_of_play (h : play flags s c = some t) : Plays s c ∧ tracedStep flags s c = some t :=
  Option.ite_none_right_eq_some.mp h

theorem inv_erase (hi : Inv s) {w : Window} {b : Buffer} (hbufs : w.bufs = s.win.bufs)
    (hnext : w.nextBuffer = s.win.nextBuffer) (hheld : w.held = s.win.held.erase b)
    (hfence : ∀ d, d ≠ b → w.fenceFd d = s.win.fenceFd d) : Inv { s with win := w } := by
  refine ⟨⟨?_, ?_⟩, ?_, ?_, ?_, ?_, ?_⟩
  · rw [hheld]
    exact hi.once.1.erase b
  · intro d hd
    rw [hheld, hi.once.1.mem_erase_iff] at hd
    rw [hfence d hd.1]
    exact hi.once.2 d hd.2
  · rw [hheld]
    exact List.Subset.trans (List.erase_subset ..) hi.seen
  · rw [hbufs]
    exact hi.nodup
  · rw [hbufs]
    exact hi.turn
  · rw [hnext, hbufs]
    exact hi.index
  · rw [hbufs]
    exact hi.start

theorem inv_dequeueBuffer (hi : Inv s) {ok : Nat} (hc : RoundReturned s (.dequeueBuffer ok))
    (h : tracedStep flags s (.dequeueBuffer ok) = some t) : Inv t := by
  obtain ⟨w, hw, rfl⟩ := Option.map_eq_some_iff.mp h
  obtain ⟨b, hb, hheld, hbufs, hnext, hfence, _⟩ := dequeueBuffer_some hw
  obtain ⟨hnodup, hturn, hindex, hfences⟩ := inv_filled hi ok
  have hnot : b ∉ s.win.held := fun hmem => (returned_mem_held_iff hi hb).mp hmem hc
  have hget : (filled s.win ok).bufs.list[(0 + s.dequeued.length)
      % (filled s.win ok).bufs.list.length]? = some b := by
    rw [Nat.zero_add, ← hindex]
    exact (returned_eq s.win ok).symm.trans hb
  have hlt : (filled s.win ok).nextBuffer < (filled s.win ok).bufs.list.length :=
    (List.getElem?_eq_some_iff.mp ((returned_eq s.win ok).symm.trans hb)).1
  have hdeq : s.dequeued ++ (returned s.win ok).toList = s.dequeued ++ [b] := by
    rw [hb]
    rfl
  simp only [hdeq]
  refine ⟨⟨?_, ?_⟩, ?_, ?_, ?_, ?_, ?_⟩
  · rw [hheld]
    exact List.nodup_cons.mpr ⟨hnot, hi.once.1⟩
  · intro d hd
    simp only [hheld, List.mem_cons] at hd
    simp only [hfence]
    obtain rfl | hd := hd
    · exact Function.update_self ..
    · have hne : d ≠ b := fun heq => hnot (heq ▸ hd)
      rw [Function.update_of_ne hne]
      exact hfences d hd
  · intro d hd
    simp only [hheld, List.mem_cons] at hd
    rw [List.mem_append, List.mem_singleton]
    exact hd.symm.imp (fun hd => hi.seen hd) id
  · rw [hbufs]
    exact hnodup
  · rw [hbufs]
    exact hturn.concat hget
  · simp only [hnext, hbufs]
    rw [advance_eq_mod hlt, hindex, Nat.mod_add_mod, List.length_append, List.length_singleton]
  · intro hnil
    rw [hbufs] at hnil
    rw [hnil] at hlt
    exact absurd hlt (Nat.not_lt_zero _)

theorem inv_play (hi : Inv s) (hc : RoundReturned s c) (h : play flags s c = some t) : Inv t := by
  obtain ⟨hplays, h⟩ := step_of_play h
  cases c with
  | dequeueBuffer ok => exact inv_dequeueBuffer hi hc h
  | queueBuffer b fenceFd present =>
    obtain ⟨w, hw, rfl⟩ := Option.map_eq_some_iff.mp h
    simp only [step, queueBuffer, Option.ite_none_right_eq_some, Option.some.injEq] at hw
    obtain ⟨_, _, rfl⟩ := hw
    exact inv_erase hi rfl rfl rfl (fun d hd => Function.update_of_ne hd ..)
  | cancelBuffer b fenceFd =>
    obtain ⟨w, hw, rfl⟩ := Option.map_eq_some_iff.mp h
    simp only [step, Option.ite_none_right_eq_some, Option.some.injEq] at hw
    obtain ⟨_, rfl⟩ := hw
    exact inv_erase hi rfl rfl rfl (fun d hd => Function.update_of_ne hd ..)
  | _ => exact hplays.elim

theorem not_heldOnce_of_not_returned (hi : Inv s) (hc : ¬ RoundReturned s c)
    (h : play flags s c = some t) : ¬ HeldOnce t := by
  obtain ⟨hplays, h⟩ := step_of_play h
  cases c with
  | dequeueBuffer ok =>
    obtain ⟨w, hw, rfl⟩ := Option.map_eq_some_iff.mp h
    obtain ⟨b, hb, hheld, _⟩ := dequeueBuffer_some hw
    rintro ⟨hnodup, _⟩
    simp only [hheld, List.nodup_cons] at hnodup
    exact hnodup.1 ((returned_mem_held_iff hi hb).mpr hc)
  | queueBuffer b fenceFd present => exact absurd trivial hc
  | cancelBuffer b fenceFd => exact absurd trivial hc
  | _ => exact hplays.elim

theorem inv_counted (flags width height format n : Nat) :
    Inv (counted flags width height format n) := by
  have hlist : (counted flags width height format n).win.bufs.list = [] := by
    simp only [counted, setBufferCount]
    split <;> rfl
  have hheld : (counted flags width height format n).win.held = [] := by
    simp only [counted, setBufferCount]
    split <;> rfl
  have hnext : (counted flags width height format n).win.nextBuffer = 0 := by
    simp only [counted, setBufferCount]
    split <;> rfl
  refine ⟨⟨by simp [hheld], by simp [hheld]⟩, by simp [hheld], by simp [hlist], inTurn_nil, ?_,
    fun _ => rfl⟩
  rw [hnext]
  exact (Nat.zero_mod _).symm

/-- No buffer is handed out twice precisely when each comes back before the
list has gone round. -/
theorem heldOnce_iff_roundReturned {flags width height format n : Nat} {calls : List Call}
    (hrun : (exec (play flags) (counted flags width height format n) calls).isSome) :
    Always (play flags) HeldOnce (counted flags width height format n) calls ↔
      Guarded (play flags) RoundReturned (counted flags width height format n) calls :=
  always_iff_guarded (fun _ hi => hi.once) (fun _ _ _ => inv_play)
    (fun _ _ _ => not_heldOnce_of_not_returned) (inv_counted flags width height format n) hrun

/-- Three buffers that are returned in the order in which they came. -/
theorem heldOnce_iff_roundReturned_three :
    Always (play 6144) HeldOnce (counted 6144 64 48 1 3)
        [.dequeueBuffer 3, .dequeueBuffer 3, .queueBuffer 0 5 id, .dequeueBuffer 3,
          .dequeueBuffer 3] ↔
      Guarded (play 6144) RoundReturned (counted 6144 64 48 1 3)
        [.dequeueBuffer 3, .dequeueBuffer 3, .queueBuffer 0 5 id, .dequeueBuffer 3,
          .dequeueBuffer 3] :=
  heldOnce_iff_roundReturned (by decide)

/-- The second of two buffers comes back first, and the first one is handed out
again. -/
theorem not_heldOnce_out_of_order :
    ¬ ∀ n calls, 2 ≤ n → (exec (play 6144) (counted 6144 64 48 1 n) calls).isSome →
      Always (play 6144) HeldOnce (counted 6144 64 48 1 n) calls := by
  intro h
  have hheld := h 2 [.dequeueBuffer 2, .dequeueBuffer 2, .cancelBuffer 1 (-1), .dequeueBuffer 2]
    (by decide) (by decide) _ _ List.prefix_rfl rfl
  exact absurd hheld.1 (by decide)

end FakeLibc.HwComposerHandOut

import FakeLibc.HwComposerTrace

namespace FakeLibc.HwComposerList

open FakeLibc.Lib.Run FakeLibc.Lib.RefCount FakeLibc.Lib.RoundRobin FakeLibc.HwComposerWindow
open FakeLibc.HwComposerTrace

/-- The list has all its buffers, all with the parameters of the window. -/
structure Full (s : Traced) : Prop where
  count : s.win.bufs.list.length = s.win.bufferCount
  current : ∀ b ∈ s.win.bufs.list, s.made b = s.parameters
  index : s.win.nextBuffer < s.win.bufs.list.length

def EmptyOrFull (s : Traced) : Prop :=
  s.win.bufs.list = [] ∧ s.win.nextBuffer = 0 ∨ Full s

/-- Allocations succeed, and counts are positive. -/
def Succeeds (s : Traced) : Call → Prop
  | .dequeueBuffer ok => s.win.bufferCount ≤ ok
  | .setBufferCount count => 1 ≤ count
  | _ => True

instance decidableSucceeds : (s : Traced) → (c : Call) → Decidable (Succeeds s c)
  | s, .dequeueBuffer ok => inferInstanceAs (Decidable (s.win.bufferCount ≤ ok))
  | _, .setBufferCount count => inferInstanceAs (Decidable (1 ≤ count))
  | _, .queueBuffer .. | _, .cancelBuffer .. | _, .setUsage _ | _, .setBuffersFormat _ =>
    .isTrue trivial

/-- Moreover no setter changes a parameter. -/
def Unchanged (flags : Nat) (s : Traced) : Call → Prop
  | .dequeueBuffer ok => s.win.bufferCount ≤ ok
  | .setUsage usage => usage ||| flags = s.win.usage
  | .setBuffersFormat format => format = s.win.bufFormat
  | .setBufferCount count => count = s.win.bufferCount
  | _ => True

def dequeues : Call → Bool
  | .dequeueBuffer _ => true
  | _ => false

structure Inv (s : Traced) : Prop where
  pos : 1 ≤ s.win.bufferCount
  nodup : s.win.bufs.list.Nodup
  ready : EmptyOrFull s

def fill (s : Traced) (ok : Nat) : Traced := { s with win := filled s.win ok, made := s.madeBy }

variable {flags : Nat} {s t : Traced} {c : Call}

theorem filled_of_nil {w : Window} (h : w.bufs.list = []) (ok : Nat) :
    filled w ok = allocateBuffers w ok := if_pos (by rw [h]; rfl)

theorem filled_of_ne_nil {w : Window} (h : w.bufs.list ≠ []) (ok : Nat) : filled w ok = w :=
  if_neg (by rwa [List.isEmpty_iff])

theorem filled_bufferCount (w : Window) (ok : Nat) : (filled w ok).bufferCount = w.bufferCount := by
  rw [filled]
  split <;> rfl

theorem list_allocateBuffers {w : Window} (h : w.bufs.list = []) (ok : Nat) :
    (allocateBuffers w ok).bufs.list = List.range' w.bufs.next (min w.bufferCount ok) := by
  rw [allocateBuffers, list_fill, h, List.nil_append]

theorem full_fill (hi : Inv s) {ok : Nat} (hok : s.win.bufferCount ≤ ok) :
    Full (fill s ok) ∧ (fill s ok).win.bufs.list.Nodup := by
  obtain ⟨hnil, hnext⟩ | hfull := hi.ready
  · have hlist : (fill s ok).win.bufs.list = List.range' s.win.bufs.next s.win.bufferCount := by
      rw [fill, filled_of_nil hnil, list_allocateBuffers hnil, Nat.min_eq_left hok]
    refine ⟨⟨?_, ?_, ?_⟩, ?_⟩
    · rw [hlist, List.length_range', fill, filled_bufferCount]
    · intro b hb
      rw [hlist, List.mem_range'_1] at hb
      have hempty : s.win.bufs.list.isEmpty := by rw [hnil]; rfl
      have hpar : (fill s ok).parameters = s.parameters := by
        rw [fill, filled_of_nil hnil]
        rfl
      rw [hpar, fill, Traced.madeBy, if_pos hempty]
      exact if_pos hb.1
    · have hzero : (fill s ok).win.nextBuffer = 0 := by
        rw [fill, filled_of_nil hnil]
        rfl
      rw [hlist, List.length_range', hzero]
      exact hi.pos
    · rw [hlist]
      exact List.nodup_range'
  · have hne : s.win.bufs.list ≠ [] := by
      intro hnil
      have := hfull.index
      rw [hnil] at this
      exact absurd this (Nat.not_lt_zero _)
    have hsame : fill s ok = s := by
      rw [fill, filled_of_ne_nil hne, Traced.madeBy, if_neg (by rwa [List.isEmpty_iff])]
    rw [hsame]
    exact ⟨hfull, hi.nodup⟩

theorem full_dequeueBuffer (hi : Inv s) {ok : Nat} (hok : s.win.bufferCount ≤ ok)
    (h : tracedStep flags s (.dequeueBuffer ok) = some t) :
    Full t ∧ t.win.bufs.list.Nodup ∧ t.win.bufs = (filled s.win ok).bufs ∧
      t.win.bufferCount = s.win.bufferCount ∧
      ∃ b, (filled s.win ok).bufs.list[(filled s.win ok).nextBuffer]? = some b ∧
        t.dequeued = s.dequeued ++ [b] ∧
        t.win.nextBuffer =
          advance (filled s.win ok).bufs.list.length (filled s.win ok).nextBuffer := by
  obtain ⟨w, hw, rfl⟩ := Option.map_eq_some_iff.mp h
  obtain ⟨b, hb, hheld, hbufs, hnext, hfence, hcount, husage, hformat⟩ := dequeueBuffer_some hw
  have hget := (returned_eq s.win ok).symm.trans hb
  obtain ⟨hfull, hnodup⟩ := full_fill hi hok
  have hlist : w.bufs.list = (fill s ok).win.bufs.list := congrArg Pool.list hbufs
  refine ⟨⟨?_, ?_, ?_⟩, hlist ▸ hnodup, hbufs, hcount, b, hget, ?_, hnext⟩
  · rw [hlist, hfull.count, hcount, fill, filled_bufferCount]
  · intro c hc
    have hpar : (fill s ok).parameters = s.parameters := by
      rw [fill, filled]
      split <;> rfl
    have := hfull.current c (hlist ▸ hc)
    simp only [Traced.parameters, husage, hformat]
    exact this.trans hpar
  · simp only [hnext, hbufs]
    exact advance_lt hfull.index
  · simp only [hb]
    rfl

theorem unchanged_other (hc : Unchanged flags s c) (hne : ∀ ok, c ≠ .dequeueBuffer ok)
    (h : tracedStep flags s c = some t) :
    ∃ fenceFd held, t = { s with win := { s.win with fenceFd := fenceFd, held := held } } := by
  obtain ⟨w, hw, rfl⟩ := Option.map_eq_some_iff.mp h
  cases c with
  | dequeueBuffer ok => exact absurd rfl (hne ok)
  | queueBuffer b fenceFd present =>
    simp only [step, queueBuffer, Option.ite_none_right_eq_some, Option.some.injEq] at hw
    obtain ⟨_, _, rfl⟩ := hw
    exact ⟨_, _, rfl⟩
  | cancelBuffer b fenceFd =>
    simp only [step, Option.ite_none_right_eq_some, Option.some.injEq] at hw
    obtain ⟨_, rfl⟩ := hw
    exact ⟨_, _, rfl⟩
  | setUsage usage =>
    obtain rfl := Option.some.inj hw
    have heq : s.win.usage = usage ||| flags := hc.symm
    refine ⟨s.win.fenceFd, s.win.held, ?_⟩
    simp only [setUsage, ← heq, ne_eq, not_true_eq_false, if_false]
  | setBuffersFormat format =>
    obtain rfl := Option.some.inj hw
    refine ⟨s.win.fenceFd, s.win.held, ?_⟩
    simp only [setBuffersFormat, show format = s.win.bufFormat from hc, ne_eq, not_true_eq_false,
      if_false]
  | setBufferCount count =>
    obtain rfl := Option.some.inj hw
    refine ⟨s.win.fenceFd, s.win.held, ?_⟩
    simp only [setBufferCount, show count = s.win.bufferCount from hc, ne_eq, not_true_eq_false,
      if_false]

theorem changed_other (hpos : 1 ≤ s.win.bufferCount) (hc : Succeeds s c)
    (hu : ¬ Unchanged flags s c) (h : tracedStep flags s c = some t) :
    t.win.bufs.list = [] ∧ t.win.nextBuffer = 0 ∧ 1 ≤ t.win.bufferCount := by
  obtain ⟨w, hw, rfl⟩ := Option.map_eq_some_iff.mp h
  cases c with
  | dequeueBuffer ok => exact absurd hc hu
  | queueBuffer b fenceFd present => exact absurd trivial hu
  | cancelBuffer b fenceFd => exact absurd trivial hu
  | setUsage usage =>
    obtain rfl := Option.some.inj hw
    have hne : s.win.usage ≠ usage ||| flags := Ne.symm hu
    simp only [setUsage, if_pos hne]
    exact ⟨rfl, rfl, hpos⟩
  | setBuffersFormat format =>
    obtain rfl := Option.some.inj hw
    simp only [setBuffersFormat, if_pos (show format ≠ s.win.bufFormat from hu)]
    exact ⟨rfl, rfl, hpos⟩
  | setBufferCount count =>
    obtain rfl := Option.some.inj hw
    simp only [setBufferCount, if_pos (show count ≠ s.win.bufferCount from hu)]
    exact ⟨rfl, rfl, hc⟩

theorem inv_step (hi : Inv s) (hc : Succeeds s c) (h : tracedStep flags s c = some t) : Inv t := by
  by_cases hd : ∃ ok, c = .dequeueBuffer ok
  · obtain ⟨ok, rfl⟩ := hd
    obtain ⟨hfull, hnodup, _, hcount, _⟩ := full_dequeueBuffer hi hc h
    exact ⟨hcount ▸ hi.pos, hnodup, .inr hfull⟩
  · by_cases hu : Unchanged flags s c
    · obtain ⟨fenceFd, held, rfl⟩ := unchanged_other hu (not_exists.mp hd) h
      refine ⟨hi.pos, hi.nodup, hi.ready.imp id fun hfull => ?_⟩
      exact ⟨hfull.count, hfull.current, hfull.index⟩
    · obtain ⟨hlist, hnext, hpos⟩ := changed_other hi.pos hc hu h
      exact ⟨hpos, by rw [hlist]; exact List.nodup_nil, .inl ⟨hlist, hnext⟩⟩

theorem Unchanged.succeeds (hi : Inv s) (hc : Unchanged flags s c) : Succeeds s c := by
  cases c with
  | setBufferCount count => exact hi.pos.trans_eq hc.symm
  | dequeueBuffer ok => exact hc
  | _ => trivial

end FakeLibc.HwComposerList

import FakeLibc.HwComposerTrace
import FakeLibc.Lib.Ledger

namespace FakeLibc.HwComposerFences

open FakeLibc.Lib.Run FakeLibc.Lib.RefCount FakeLibc.Lib.Ledger FakeLibc.HwComposerWindow
open FakeLibc.HwComposerTrace

structure Fenced where
  win : Window
  log : List (Event Int)
  alive : Bool

inductive Action
  | call (c : Call)
  | destroy

/-- What a call does with descriptors. The one that is left in a buffer is
duplicated for the client and closed by the next dequeue. `present` takes over
the one it is given. -/
def fences (w : Window) : Call → List (Event Int)
  | .dequeueBuffer ok =>
    match returned w ok with
    | some b => entry (-1) .copy ((filled w ok).fenceFd b) ++
        entry (-1) .close ((filled w ok).fenceFd b)
    | none => []
  | .queueBuffer _ fenceFd present =>
    entry (-1) .own fenceFd ++ entry (-1) .pass fenceFd ++ entry (-1) .own (present fenceFd)
  | .cancelBuffer _ fenceFd => entry (-1) .own fenceFd
  | .setUsage _ | .setBuffersFormat _ | .setBufferCount _ => []

/-- `-1`, or a descriptor that the window has never owned. -/
def Fresh (log : List (Event Int)) (fd : Int) : Prop := fd = -1 ∨ .own fd ∉ log

/-- Clients and `present` give the window descriptors of its own. -/
def Gives (log : List (Event Int)) : Call → Prop
  | .queueBuffer _ fenceFd present =>
    Fresh log fenceFd ∧ Fresh (log ++ entry (-1) .own fenceFd) (present fenceFd)
  | .cancelBuffer _ fenceFd => Fresh log fenceFd
  | _ => True

instance decidableFresh (log : List (Event Int)) (fd : Int) : Decidable (Fresh log fd) :=
  inferInstanceAs (Decidable (_ ∨ _))

instance decidableGives (log : List (Event Int)) : (c : Call) → Decidable (Gives log c)
  | .queueBuffer .. => inferInstanceAs (Decidable (_ ∧ _))
  | .cancelBuffer _ fenceFd => decidableFresh log fenceFd
  | .dequeueBuffer _ | .setUsage _ | .setBuffersFormat _ | .setBufferCount _ => .isTrue trivial

def fencedStep (flags : Nat) (s : Fenced) : Action → Option Fenced
  | .call c =>
    if s.alive ∧ Gives s.log c then
      (step flags s.win c).map (fun w => { s with win := w, log := s.log ++ fences s.win c })
    else none
  | .destroy =>
    if s.alive then some { s with win := destroyBuffers s.win, alive := false } else none

/-- A buffer of the list carries the descriptor. -/
def Carried (list : List Buffer) (fenceFd : Buffer → Int) (fd : Int) : Prop :=
  ∃ b ∈ list, fenceFd b = fd

/-- Every descriptor is closed or passed on at most once, after it was
duplicated, and until then a buffer of the window carries it. -/
def UsedOnce (s : Fenced) : Prop := Linear (Carried s.win.bufs.list s.win.fenceFd) s.log

def Unfenced (w : Window) : Prop := ∀ b ∈ w.bufs.list, w.fenceFd b = -1

/-- No descriptor is overwritten, and none is put into a buffer that is not in
the list or is dropped from it. -/
def KeepsFences (flags : Nat) (s : Fenced) : Action → Prop
  | .call (.dequeueBuffer _) => True
  | .call (.queueBuffer b fenceFd present) => b ∈ s.win.bufs.list ∨ present fenceFd = -1
  | .call (.cancelBuffer b fenceFd) =>
    s.win.fenceFd b = -1 ∧ (b ∈ s.win.bufs.list ∨ fenceFd = -1)
  | .call (.setUsage usage) => s.win.usage ≠ usage ||| flags → Unfenced s.win
  | .call (.setBuffersFormat format) => format ≠ s.win.bufFormat → Unfenced s.win
  | .call (.setBufferCount count) => count ≠ s.win.bufferCount → Unfenced s.win
  | .destroy => Unfenced s.win

structure Tidy (list : List Buffer) (fenceFd : Buffer → Int) (log : List (Event Int)) : Prop where
  used : Linear (Carried list fenceFd) log
  live : ∀ b, fenceFd b ≠ -1 → b ∈ list ∧ Live log (fenceFd b)
  alone : ∀ b d, fenceFd b ≠ -1 → fenceFd b = fenceFd d → b = d
  none : .own (-1) ∉ log

section Tidy

variable {list list' : List Buffer} {f f' : Buffer → Int} {log : List (Event Int)} {b : Buffer}
  {fd : Int}

theorem entry_none (event : Int → Event Int) : entry (-1) event (-1) = [] := if_pos rfl

theorem entry_some (h : fd ≠ -1) (event : Int → Event Int) : entry (-1) event fd = [event fd] :=
  if_neg h

theorem Tidy.all_none (h : Tidy [] f log) (b : Buffer) : f b = -1 := by
  by_contra hb
  exact absurd (h.live b hb).1 List.not_mem_nil

theorem Tidy.of_nil (h : Tidy [] f log) (hf : ∀ b, f' b = -1) : Tidy list f' log := by
  refine ⟨h.used.mono ?_, fun b hb => absurd (hf b) hb, fun b d hb => absurd (hf b) hb, h.none⟩
  rintro x _ ⟨b, hb, _⟩
  exact absurd hb List.not_mem_nil

theorem Tidy.drop (h : Tidy list f log) (hf : ∀ b ∈ list, f b = -1) : Tidy [] f log := by
  have hnone : ∀ b, f b = -1 := fun b => by
    by_contra hb
    exact hb (hf b (h.live b hb).1)
  refine ⟨h.used.mono ?_, fun b hb => absurd (hnone b) hb, fun b d hb => absurd (hnone b) hb,
    h.none⟩
  rintro x hx ⟨b, hb, rfl⟩
  rw [hf b hb] at hx
  exact absurd hx.1 h.none

theorem Tidy.take (h : Tidy list f log) (b : Buffer) :
    Tidy list (Function.update f b (-1))
      (log ++ (entry (-1) .copy (f b) ++ entry (-1) .close (f b))) := by
  by_cases hb : f b = -1
  · rw [hb, entry_none, entry_none, List.append_nil, List.append_nil, ← hb,
      Function.update_eq_self]
    exact h
  · rw [entry_some hb, entry_some hb]
    have hlive := (h.live b hb).2
    have hother : ∀ d, Function.update f b (-1) d ≠ -1 →
        d ≠ b ∧ Function.update f b (-1) d = f d := by
      intro d hd
      have hdb : d ≠ b := by
        rintro rfl
        exact hd (Function.update_self ..)
      exact ⟨hdb, Function.update_of_ne hdb ..⟩
    refine ⟨(h.used.copy_close hlive).mono ?_, fun d hd => ?_, fun d e hd heq => ?_, ?_⟩
    · rintro x _ ⟨⟨d, hd, rfl⟩, hne⟩
      have hdb : d ≠ b := fun heq => hne (congrArg f heq)
      exact ⟨d, hd, Function.update_of_ne hdb ..⟩
    · obtain ⟨hdb, hfd⟩ := hother d hd
      rw [hfd] at hd ⊢
      obtain ⟨hmem, hl⟩ := h.live d hd
      have hne : f d ≠ f b := fun heq => hdb (h.alone d b hd heq)
      exact ⟨hmem, hl.append (by simpa [Spent] using hne)⟩
    · obtain ⟨_, hfd⟩ := hother d hd
      obtain ⟨_, hfe⟩ := hother e (heq ▸ hd)
      rw [hfd, hfe] at heq
      exact h.alone d e (hfd ▸ hd) heq
    · simpa using h.none

theorem Tidy.pass (h : Tidy list f log) (hfresh : Fresh log fd) :
    Tidy list f (log ++ (entry (-1) .own fd ++ entry (-1) .pass fd)) := by
  by_cases hfd : fd = -1
  · rw [hfd, entry_none, entry_none, List.append_nil, List.append_nil]
    exact h
  · rw [entry_some hfd, entry_some hfd]
    have hown := hfresh.resolve_left hfd
    refine ⟨h.used.own_pass hown, fun d hd => ?_, h.alone, by simpa [Ne.symm hfd] using h.none⟩
    obtain ⟨hmem, hl⟩ := h.live d hd
    have hne : f d ≠ fd := by
      rintro rfl
      exact hown hl.1
    exact ⟨hmem, hl.append (by simpa [Spent] using hne)⟩

theorem Tidy.put (h : Tidy list f log) (hb : f b = -1) (hfresh : Fresh log fd)
    (hlist : b ∈ list ∨ fd = -1) :
    Tidy list (Function.update f b fd) (log ++ entry (-1) .own fd) := by
  by_cases hfd : fd = -1
  · rw [hfd, entry_none, List.append_nil, ← hb, Function.update_eq_self]
    exact h
  · rw [entry_some hfd]
    have hown := hfresh.resolve_left hfd
    have hmemb := hlist.resolve_right hfd
    have hself : Function.update f b fd b = fd := Function.update_self ..
    have hother : ∀ d, d ≠ b → Function.update f b fd d = f d := fun d hd =>
      Function.update_of_ne hd ..
    have hne : ∀ d, f d ≠ -1 → f d ≠ fd := by
      rintro d hd rfl
      exact hown (h.live d hd).2.1
    refine ⟨(h.used.own fd).mono ?_, fun d hd => ?_, fun d e hd heq => ?_, ?_⟩
    · rintro x hx (⟨d, hd, rfl⟩ | rfl)
      · by_cases hdb : d = b
        · rw [hdb, hb] at hx
          exact absurd hx.1 (by simpa [Ne.symm hfd] using h.none)
        · exact ⟨d, hd, hother d hdb⟩
      · exact ⟨b, hmemb, hself⟩
    · by_cases hdb : d = b
      · rw [hdb, hself]
        refine ⟨hmemb, by simp, fun hs => ?_⟩
        exact h.used.not_spent hown (by simpa [Spent] using hs)
      · rw [hother d hdb] at hd ⊢
        obtain ⟨hmem, hl⟩ := h.live d hd
        exact ⟨hmem, hl.append (by simp [Spent])⟩
    · by_cases hdb : d = b
      · by_cases heb : e = b
        · rw [hdb, heb]
        · rw [hdb, hself, hother e heb] at heq
          exact absurd heq.symm (hne e (heq ▸ hfd))
      · rw [hother d hdb] at hd heq
        by_cases heb : e = b
        · rw [heb, hself] at heq
          exact absurd heq (hne d hd)
        · rw [hother e heb] at heq
          exact h.alone d e hd heq
    · simpa [Ne.symm hfd] using h.none

theorem Tidy.not_put (h : Tidy list f log) (hfresh : Fresh log fd)
    (hlist : ¬ (b ∈ list ∨ fd = -1)) :
    ¬ Linear (Carried list (Function.update f b fd)) (log ++ entry (-1) .own fd) := by
  obtain ⟨hb, hfd⟩ := not_or.mp hlist
  have hown := hfresh.resolve_left hfd
  rw [entry_some hfd]
  refine not_linear_of_live (r := fd) ⟨by simp, fun hs => ?_⟩ ?_
  · exact h.used.not_spent hown (by simpa [Spent] using hs)
  · rintro ⟨d, hd, heq⟩
    have hdb : d ≠ b := fun hdb => hb (hdb ▸ hd)
    rw [Function.update_of_ne hdb] at heq
    exact hown (heq ▸ (h.live d (heq ▸ hfd)).2.1)

theorem Tidy.not_overwrite (h : Tidy list f log) (hb : f b ≠ -1) (hfresh : Fresh log fd) :
    ¬ Linear (Carried list (Function.update f b fd)) (log ++ entry (-1) .own fd) := by
  have hlive := (h.live b hb).2
  have hne : fd ≠ f b := by
    rintro rfl
    exact hfresh.elim hb (fun hown => hown hlive.1)
  refine not_linear_of_live (r := f b) (hlive.append ?_) ?_
  · rw [entry]
    split <;> simp [Spent]
  · rintro ⟨d, _, heq⟩
    by_cases hdb : d = b
    · rw [hdb, Function.update_self] at heq
      exact hne heq
    · rw [Function.update_of_ne hdb] at heq
      exact hdb (h.alone b d hb heq.symm).symm

theorem Tidy.not_drop (h : Tidy list f log) (hf : ¬ ∀ b ∈ list, f b = -1) :
    ¬ Linear (Carried [] f') log := by
  simp only [not_forall] at hf
  obtain ⟨b, _, hb⟩ := hf
  refine not_linear_of_live (h.live b hb).2 ?_
  rintro ⟨d, hd, _⟩
  exact absurd hd List.not_mem_nil

end Tidy

def Inv (s : Fenced) : Prop := Tidy s.win.bufs.list s.win.fenceFd s.log

variable {flags : Nat} {s t : Fenced} {a : Action}

theorem inv_filled (hi : Inv s) (ok : Nat) :
    Tidy (filled s.win ok).bufs.list (filled s.win ok).fenceFd s.log := by
  by_cases hnil : s.win.bufs.list = []
  · rw [Inv, hnil] at hi
    refine hi.of_nil fun b => ?_
    rw [filled, if_pos (by rw [hnil]; rfl), allocateBuffers]
    simp only [hi.all_none, ite_self]
  · rw [filled, if_neg (by rwa [List.isEmpty_iff])]
    exact hi

theorem step_of_fencedStep {c : Call} (h : fencedStep flags s (.call c) = some t) :
    Gives s.log c ∧ ∃ w, step flags s.win c = some w ∧ w = t.win ∧
      t.log = s.log ++ fences s.win c := by
  rw [fencedStep, Option.ite_none_right_eq_some] at h
  obtain ⟨⟨_, hgives⟩, h⟩ := h
  obtain ⟨w, hw, rfl⟩ := Option.map_eq_some_iff.mp h
  exact ⟨hgives, w, hw, rfl, rfl⟩

theorem inv_dequeueBuffer (hi : Inv s) {ok : Nat}
    (h : fencedStep flags s (.call (.dequeueBuffer ok)) = some t) : Inv t := by
  obtain ⟨_, w, hw, hwin, hlog⟩ := step_of_fencedStep h
  obtain ⟨b, hb, _, hbufs, _, hfence, _⟩ := dequeueBuffer_some hw
  rw [Inv, ← hwin, hlog, hbufs, hfence, fences, hb]
  exact (inv_filled hi ok).take b

theorem inv_queueBuffer_iff (hi : Inv s) {b : Buffer} {fenceFd : Int} {present : Int → Int}
    (h : fencedStep flags s (.call (.queueBuffer b fenceFd present)) = some t) :
    (b ∈ s.win.bufs.list ∨ present fenceFd = -1 → Inv t) ∧
      (¬ (b ∈ s.win.bufs.list ∨ present fenceFd = -1) → ¬ UsedOnce t) := by
  obtain ⟨⟨hfd, hleft⟩, w, hw, hwin, hlog⟩ := step_of_fencedStep h
  simp only [step, queueBuffer, Option.ite_none_right_eq_some, Option.some.injEq] at hw
  obtain ⟨_, hnone, rfl⟩ := hw
  have hpass := Tidy.pass hi hfd
  have hfresh : Fresh (s.log ++ (entry (-1) .own fenceFd ++ entry (-1) .pass fenceFd))
      (present fenceFd) := by
    refine hleft.imp id fun hown => ?_
    rw [← List.append_assoc, List.mem_append, not_or]
    refine ⟨hown, ?_⟩
    rw [entry]
    split <;> simp
  have hlog' : t.log = s.log ++ (entry (-1) .own fenceFd ++ entry (-1) .pass fenceFd) ++
      entry (-1) .own (present fenceFd) := by
    simp only [hlog, fences, List.append_assoc]
  rw [Inv, UsedOnce, hlog', ← hwin]
  exact ⟨fun hc => hpass.put hnone hfresh hc, fun hc => hpass.not_put hfresh hc⟩

theorem inv_cancelBuffer_iff (hi : Inv s) {b : Buffer} {fenceFd : Int}
    (h : fencedStep flags s (.call (.cancelBuffer b fenceFd)) = some t) :
    (s.win.fenceFd b = -1 ∧ (b ∈ s.win.bufs.list ∨ fenceFd = -1) → Inv t) ∧
      (¬ (s.win.fenceFd b = -1 ∧ (b ∈ s.win.bufs.list ∨ fenceFd = -1)) → ¬ UsedOnce t) := by
  obtain ⟨hfd, w, hw, hwin, hlog⟩ := step_of_fencedStep h
  simp only [step, Option.ite_none_right_eq_some, Option.some.injEq] at hw
  obtain ⟨_, rfl⟩ := hw
  rw [Inv, UsedOnce, hlog, ← hwin]
  refine ⟨fun hc => Tidy.put hi hc.1 hfd hc.2, fun hc => ?_⟩
  by_cases hb : s.win.fenceFd b = -1
  · exact Tidy.not_put hi hfd (fun hl => hc ⟨hb, hl⟩)
  · exact Tidy.not_overwrite hi hb hfd

theorem inv_drop_iff (hi : Inv s) {p : Prop} [Decidable p] (hlog : t.log = s.log)
    (hlist : t.win.bufs.list = if p then [] else s.win.bufs.list)
    (hfence : t.win.fenceFd = s.win.fenceFd) :
    ((p → Unfenced s.win) → Inv t) ∧ (¬ (p → Unfenced s.win) → ¬ UsedOnce t) := by
  rw [Inv, UsedOnce, hlog, hlist, hfence]
  by_cases hp : p
  · rw [if_pos hp]
    exact ⟨fun hc => Tidy.drop hi (hc hp), fun hc => Tidy.not_drop hi (fun hu => hc fun _ => hu)⟩
  · rw [if_neg hp]
    exact ⟨fun _ => hi, fun hc => absurd (fun h => absurd h hp) hc⟩

theorem inv_step_iff (hi : Inv s) (h : fencedStep flags s a = some t) :
    (KeepsFences flags s a → Inv t) ∧ (¬ KeepsFences flags s a → ¬ UsedOnce t) := by
  cases a with
  | call c =>
    cases c with
    | dequeueBuffer ok => exact ⟨fun _ => inv_dequeueBuffer hi h, fun hc => absurd trivial hc⟩
    | queueBuffer b fenceFd present => exact inv_queueBuffer_iff hi h
    | cancelBuffer b fenceFd => exact inv_cancelBuffer_iff hi h
    | setUsage usage =>
      obtain ⟨_, w, hw, hwin, hlog⟩ := step_of_fencedStep h
      obtain rfl := Option.some.inj hw
      refine inv_drop_iff hi (hlog.trans (List.append_nil _)) ?_ ?_ <;> rw [← hwin, setUsage]
      · split <;> rfl
      · split <;> rfl
    | setBuffersFormat format =>
      obtain ⟨_, w, hw, hwin, hlog⟩ := step_of_fencedStep h
      obtain rfl := Option.some.inj hw
      refine inv_drop_iff hi (hlog.trans (List.append_nil _)) ?_ ?_ <;>
        rw [← hwin, setBuffersFormat]
      · split <;> rfl
      · split <;> rfl
    | setBufferCount count =>
      obtain ⟨_, w, hw, hwin, hlog⟩ := step_of_fencedStep h
      obtain rfl := Option.some.inj hw
      refine inv_drop_iff hi (hlog.trans (List.append_nil _)) ?_ ?_ <;> rw [← hwin, setBufferCount]
      · split <;> rfl
      · split <;> rfl
  | destroy =>
    rw [fencedStep, Option.ite_none_right_eq_some, Option.some.injEq] at h
    obtain ⟨_, rfl⟩ := h
    exact ⟨fun hc => Tidy.drop hi hc, fun hc => Tidy.not_drop hi hc⟩

end FakeLibc.HwComposerFences

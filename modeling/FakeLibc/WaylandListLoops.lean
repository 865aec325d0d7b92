import FakeLibc.Lib.ListIterator
import FakeLibc.Lib.Loop
import FakeLibc.WaylandStep
import Mathlib.Algebra.Group.Nat.Defs

namespace FakeLibc.WaylandListLoops

open FakeLibc.Lib.Run FakeLibc.Lib.Loop FakeLibc.Lib.ListIterator FakeLibc.WaylandWindow

def sizeSub (bits size cnt : Nat) : Nat := if cnt ≤ size then size - cnt else 2 ^ bits + size - cnt

/-- A loop over `m_bufList` and what it has passed to `destroyBuffer`. -/
structure Loop where
  win : Window
  it : Cursor Nat
  i : Nat
  destroyed : List Nat

/-- One pass of the loop by which `setBufferCount` makes the list shorter. -/
def shrinkPass (bits cnt : Nat) (s : Loop) : Loop ⊕ Option Loop :=
  if s.i ≤ sizeSub bits s.it.list.length cnt then
    match s.it.after, s.it.advance.bind Cursor.popFront with
    | b :: _, some it => .inl ⟨s.win.destroyBuffer b, it, s.i + 1, s.destroyed ++ [b]⟩
    | _, _ => .inr none
  else .inr (some s)

/-- One pass of the loop of `destroyBuffers`. -/
def destroyPass (s : Loop) : Loop ⊕ Option Loop :=
  match s.it.after with
  | [] => .inr (some s)
  | b :: _ =>
    match s.it.erase.bind Cursor.advance with
    | some it => .inl ⟨s.win.destroyBuffer b, it, s.i, s.destroyed ++ [b]⟩
    | none => .inr none

def enter (w : Window) : Loop := ⟨w, begin w.bufList, 0, []⟩

/-- The inner `none` says that an iterator has gone past the end. -/
def destroyBuffers (fuel : Nat) (w : Window) : Option (Option Loop) :=
  (loop destroyPass fuel (enter w)).map (Option.map (fun s =>
    { s with win := { s.win with bufList := [], freeBufs := 0 }, it := begin [] }))

section Shrink

variable {bits cnt i : Nat} {l : List Nat} {w : Window}

theorem shrinkPass_go {b : Nat} {destroyed : List Nat} (hcnt : cnt ≤ l.length + 1)
    (hi : i ≤ l.length + 1 - cnt) :
    shrinkPass bits cnt ⟨w, begin (b :: l), i, destroyed⟩ =
      .inl ⟨w.destroyBuffer b, begin l, i + 1, destroyed ++ [b]⟩ := by
  have hle : i ≤ sizeSub bits (begin (b :: l)).list.length cnt := by
    rw [list_begin, List.length_cons, sizeSub, if_pos hcnt]
    exact hi
  rw [shrinkPass, if_pos hle, popFront_advance]
  rfl

theorem shrinkPass_stop {destroyed : List Nat} (hcnt : cnt ≤ l.length) (hi : l.length - cnt < i) :
    shrinkPass bits cnt ⟨w, begin l, i, destroyed⟩ = .inr (some ⟨w, begin l, i, destroyed⟩) := by
  refine if_neg ?_
  rw [list_begin, sizeSub, if_pos hcnt]
  exact Nat.not_le.mpr hi

theorem loop_shrinkPass (bits : Nat) (hcnt : cnt ≤ l.length) (hi : 0 < i ∨ cnt < l.length)
    (w : Window) (destroyed : List Nat) :
    loop (shrinkPass bits cnt) (l.length + 1) ⟨w, begin l, i, destroyed⟩ =
      some (some ⟨(givenUp cnt i l).foldl Window.destroyBuffer w,
        begin (l.drop (givenUp cnt i l).length), i + (givenUp cnt i l).length,
        destroyed ++ givenUp cnt i l⟩) := by
  induction l generalizing i w destroyed with
  | nil =>
    have hpos : 0 < i := hi.resolve_right (Nat.not_lt_zero cnt)
    rw [loop_inr (shrinkPass_stop hcnt (by rw [List.length_nil]; omega)), givenUp]
    simp
  | cons b l ih =>
    rw [List.length_cons] at hcnt hi
    by_cases hle : i ≤ l.length + 1 - cnt
    · have hrest : cnt ≤ l.length := by omega
      have hgone : givenUp cnt i (b :: l) = b :: givenUp cnt (i + 1) l := if_pos hle
      rw [List.length_cons, loop_inl (shrinkPass_go hcnt hle), ih hrest (.inl i.succ_pos), hgone,
        List.foldl_cons, List.length_cons, List.drop_succ_cons, List.append_assoc,
        Nat.succ_add_eq_add_succ]
      rfl
    · have hgone : givenUp cnt i (b :: l) = [] := if_neg hle
      rw [loop_inr (shrinkPass_stop hcnt (by rw [List.length_cons]; omega)), hgone]
      simp

/-- The loop leaves the window that `setBufferCount` leaves. -/
theorem loop_shrinkPass_enter (bits : Nat) (hcnt : cnt < w.bufList.length) :
    ∃ s, loop (shrinkPass bits cnt) (w.bufList.length + 1) (enter w) = some (some s) ∧
      { s.win with bufList := s.it.list } = w.shrink cnt ∧
      s.destroyed = givenUp cnt 0 w.bufList :=
  ⟨_, loop_shrinkPass bits (Nat.le_of_lt hcnt) (.inr hcnt) w [], rfl, rfl⟩

theorem length_givenUp (hcnt : cnt ≤ l.length) (hi : 0 < i ∨ cnt < l.length) :
    (givenUp cnt i l).length = (l.length - cnt + 2 - i) / 2 := by
  induction l generalizing i with
  | nil =>
    have hpos : 0 < i := hi.resolve_right (Nat.not_lt_zero cnt)
    rw [givenUp, List.length_nil]
    omega
  | cons b l ih =>
    rw [List.length_cons] at hcnt hi ⊢
    rw [givenUp]
    split
    next hle =>
      rw [List.length_cons] at hle
      rw [List.length_cons, ih (by omega) (.inl i.succ_pos)]
      omega
    next hle =>
      rw [List.length_cons] at hle
      rw [List.length_nil]
      omega

end Shrink

section Destroy

def everySecond : List Nat → List Nat
  | [] => []
  | [a] => [a]
  | a :: _ :: l => a :: everySecond l

theorem everySecond_cons (a : Nat) (l : List Nat) :
    everySecond (a :: l) = a :: everySecond l.tail := by
  cases l <;> rfl

theorem destroyPass_go (l pre destroyed : List Nat) (a b : Nat) (w : Window) (i : Nat) :
    destroyPass ⟨w, ⟨pre, a :: b :: l⟩, i, destroyed⟩ =
      .inl ⟨w.destroyBuffer a, ⟨pre ++ [b], l⟩, i, destroyed ++ [a]⟩ := by
  simp only [destroyPass, advance_erase]

theorem destroyPass_last (pre destroyed : List Nat) (a : Nat) (w : Window) (i : Nat) :
    destroyPass ⟨w, ⟨pre, [a]⟩, i, destroyed⟩ = .inr none := by
  simp only [destroyPass, advance_erase_last]

/-- All that the loop can do: with a list of odd length the iterator goes past
the end, else the second buffer of each pair is left out. -/
theorem loop_destroyPass (l pre destroyed : List Nat) (w : Window) (i : Nat) :
    loop destroyPass (l.length + 1) ⟨w, ⟨pre, l⟩, i, destroyed⟩ =
      some (if l.length % 2 = 0 then
        some ⟨(everySecond l).foldl Window.destroyBuffer w, ⟨pre ++ everySecond l.tail, []⟩, i,
          destroyed ++ everySecond l⟩
      else none) := by
  induction l using everySecond.induct generalizing pre destroyed w with
  | case1 =>
    have hend : destroyPass ⟨w, ⟨pre, []⟩, i, destroyed⟩ = .inr _ := rfl
    rw [loop_inr hend]
    simp [everySecond]
  | case2 a => rw [loop_inr (destroyPass_last pre destroyed a w i), if_neg (by simp)]
  | case3 a b l ih =>
    have hlen : (a :: b :: l).length = l.length + 1 + 1 := rfl
    have hpar : (l.length + 1 + 1) % 2 = l.length % 2 := by omega
    have hrest := loop_mono (ih (pre ++ [b]) (destroyed ++ [a]) (w.destroyBuffer a))
      (Nat.le_succ (l.length + 1))
    rw [hlen, loop_inl (destroyPass_go l pre destroyed a b w i), hrest, hpar, List.tail_cons,
      everySecond_cons b, everySecond, List.foldl_cons, List.append_assoc, List.append_assoc]
    rfl

theorem length_everySecond (l : List Nat) : (everySecond l).length = (l.length + 1) / 2 := by
  induction l using everySecond.induct with
  | case1 => rfl
  | case2 a => simp [everySecond]
  | case3 a b l ih =>
    rw [everySecond, List.length_cons, ih, List.length_cons, List.length_cons]
    omega

/-- Each buffer of the list is destroyed once, and no iterator goes past the end. -/
def DestroysAll (w : Window) : Prop :=
  ∃ fuel s, destroyBuffers fuel w = some (some s) ∧ s.destroyed.Perm w.bufList ∧
    s.win.bufList = [] ∧ s.win.freeBufs = 0

theorem destroyed_of_destroyBuffers {w : Window} {fuel : Nat} {s : Loop}
    (h : destroyBuffers fuel w = some (some s)) :
    w.bufList.length % 2 = 0 ∧ s.destroyed = everySecond w.bufList := by
  obtain ⟨r, hr, hmap⟩ := Option.map_eq_some_iff.mp h
  obtain ⟨q, rfl, rfl⟩ := Option.map_eq_some_iff.mp hmap
  have huniq := loop_unique hr (loop_destroyPass w.bufList [] [] w 0)
  rw [eq_comm, Option.ite_none_right_eq_some, Option.some.injEq] at huniq
  obtain ⟨heven, rfl⟩ := huniq
  exact ⟨heven, rfl⟩

theorem bufList_eq_nil_of_destroysAll {w : Window} (h : DestroysAll w) : w.bufList = [] := by
  obtain ⟨fuel, s, hs, hperm, _⟩ := h
  obtain ⟨heven, hdestroyed⟩ := destroyed_of_destroyBuffers hs
  have hlen := hperm.length_eq
  rw [hdestroyed, length_everySecond] at hlen
  apply List.eq_nil_of_length_eq_zero
  omega

/-- `destroyBuffers` destroys all there is only where there is nothing. -/
theorem destroysAll_iff_empty (w : Window) : DestroysAll w ↔ w.bufList = [] := by
  constructor
  · exact bufList_eq_nil_of_destroysAll
  · intro hnil
    have hend : destroyPass (enter w) = .inr (some (enter w)) := by
      rw [enter, hnil]
      rfl
    refine ⟨1, { enter w with win := { w with bufList := [], freeBufs := 0 }, it := begin [] },
      ?_, ?_, rfl, rfl⟩
    · rw [destroyBuffers, loop_inr hend]
      rfl
    · rw [hnil]
      rfl

/-- The window has the three buffers of its constructor. -/
theorem not_destroysAll_three :
    ¬ ∀ as s, exec step (start 4 4) as = some s → s.ready = true → DestroysAll s.win := by
  intro h
  have hall := h [.setBufferCount 3, .roundtripDone 1, .roundtripDone 1, .roundtripDone 1] _ rfl rfl
  exact absurd (bufList_eq_nil_of_destroysAll hall) (List.cons_ne_nil _ _)

end Destroy

end FakeLibc.WaylandListLoops

import FakeLibc.WaylandWindow
import Mathlib.Data.List.Nodup

namespace FakeLibc.WaylandWindow

theorem not_locked_of_ready {s : State} (hr : s.ready = true) : s.locked = false := by
  simp only [State.ready, Bool.and_eq_true, Bool.not_eq_true'] at hr
  exact hr.2

/-- The functions that touch the window without its mutex. `resize` takes it only
for fields that nothing reads. -/
def Action.unlocked : Action → Bool
  | .setBuffersFormat _ => true
  | .setUsage _ => true
  | .setBuffersDimensions _ _ => true
  | .resize _ _ => true
  | _ => false

def Pc.swaps : Pc → Option Nat
  | .swapRead b => some b
  | .swapWait b => some b
  | _ => none

theorem dispatches_of_swaps {pc : Pc} {b : Nat} (h : pc.swaps = some b) : pc.dispatches = true := by
  cases pc with
  | swapRead c => rfl
  | swapWait c => rfl
  | _ => simp [Pc.swaps] at h

def State.swapEnds (s : State) (error : Bool) : Bool :=
  match s.pc with
  | .swapRead _ => !s.win.frameCallback
  | .swapWait _ => !s.win.frameCallback || error
  | _ => false

theorem swapEnds_of_not_swaps {s : State} (hpc : s.pc.swaps = none) (error : Bool) :
    s.swapEnds error = false := by
  cases hs : s.pc <;> simp [hs, State.swapEnds, Pc.swaps] at hpc ⊢

theorem swaps_of_ready {s : State} (hr : s.ready = true) : s.pc.swaps = none := by
  cases hpc : s.pc <;> simp [State.ready, hpc, Pc.dispatches, Pc.swaps] at hr ⊢

theorem mem_of_pick {w : Window} {b : Nat} (h : w.pick = some b) : b ∈ w.bufList := by
  obtain h | ⟨_, h⟩ := Option.or_eq_some_iff.mp h
  · exact List.mem_of_find?_eq_some h
  · exact List.mem_of_find?_eq_some h

theorem not_busy_of_pick {w : Window} {b : Nat} (h : w.pick = some b) :
    (w.bufs b).busy = false := by
  obtain h | ⟨_, h⟩ := Option.or_eq_some_iff.mp h
  · have hb := List.find?_some h
    simp only [Bool.and_eq_true, Bool.not_eq_true'] at hb
    exact hb.1
  · simpa only [Bool.not_eq_true'] using List.find?_some h

/-- All that a step can do. -/
inductive Move (s : State) : Action → Outcome → Prop
  | dequeueBuffer (hr : s.ready) :
    Move s .dequeueBuffer ⟨s.win, .dequeueRead, [.lock], .nothing⟩
  | queueBuffer (b : Nat) (hr : s.ready) :
    Move s (.queueBuffer b) ⟨s.win, .idle, [.lock, .access, .unlock, .ret], .nothing⟩
  | cancelBuffer (b : Nat) (hr : s.ready) (hb : b ∈ s.win.bufList) :
    Move s (.cancelBuffer b) ⟨s.win.cancel b, .idle, [.lock, .access, .unlock, .ret], .nothing⟩
  | finishSwap (stale : Option Nat) (b : Nat) (hr : s.ready)
    (hb : (s.win.front stale).or s.win.lastBuffer = some b) (hlt : b < s.win.next)
    (hnull : s.win.queue = [] → stale = none) :
    Move s (.finishSwap stale) ⟨s.win.takeFront b, .swapRead b, [.lock, .access], .nothing⟩
  | countIs (cnt : Int) (hr : s.ready) (hcnt : cnt = s.win.bufList.length) :
    Move s (.setBufferCount cnt) ⟨s.win, .idle, [.access, .ret], .nothing⟩
  | countStays (cnt : Int) (hr : s.ready) (hcnt : ¬ (0 ≤ cnt ∧ cnt < s.win.bufList.length)) :
    Move s (.setBufferCount cnt)
      ⟨s.win, .idle, [.access, .lock, .access, .unlock, .ret], .nothing⟩
  | shrink (cnt : Int) (hr : s.ready) (hcnt : 0 ≤ cnt ∧ cnt < s.win.bufList.length) :
    Move s (.setBufferCount cnt)
      ⟨s.win.shrink cnt.toNat, .idle, [.access, .lock, .access, .unlock, .ret], .nothing⟩
  | grow (cnt : Int) (n : Nat) (hr : s.ready) (hcnt : (cnt - s.win.bufList.length).toNat = n + 1) :
    Move s (.setBufferCount cnt)
      ⟨s.win.newBuffer, .adding (.count n) s.win.next, [.access, .lock, .access], .nothing⟩
  | setSwapInterval (interval : Int) (hr : s.ready) :
    Move s (.setSwapInterval interval)
      ⟨{ s.win with swapInterval := (min (max interval 0) 1).toNat }, .idle,
        [.lock, .unlock, .ret], .nothing⟩
  | prepareSwap (hr : s.ready) :
    Move s .prepareSwap ⟨s.win, .idle, [.lock, .unlock, .ret], .nothing⟩
  | postRegistered (other b : Nat) (hr : s.ready) (hb : s.win.registered other = some b) :
    Move s (.postBuffer other)
      ⟨s.win.setBusy b true, .postRead b, [.lock, .unlock, .lock], .nothing⟩
  | postNew (other : Nat) (hr : s.ready) (hb : s.win.registered other = none) :
    Move s (.postBuffer other)
      ⟨(s.win.wrap other).setBusy s.win.next true, .postRead s.win.next, [.lock, .unlock, .lock],
        .nothing⟩
  | releasePosted (b : Nat) (hd : s.pc.dispatches) (hw : (s.win.bufs b).wlbuffer)
    (hb : b ∈ s.win.posted) :
    Move s (.release b)
      ⟨s.win.releasePosted b, s.pc, [.access, .unlock, .leave s.locked], .nothing⟩
  | releaseFronted (b : Nat) (hd : s.pc.dispatches) (hw : (s.win.bufs b).wlbuffer)
    (hb : b ∉ s.win.posted) (hf : b ∈ s.win.fronted) (hl : b ∈ s.win.bufList) :
    Move s (.release b) ⟨s.win.releaseFronted b, s.pc, [.access, .leave s.locked], .nothing⟩
  | frame (hd : s.pc.dispatches) :
    Move s .frame ⟨{ s.win with frameCallback := false }, s.pc, [], .nothing⟩
  | dequeueBlocks (error : Bool) (hpc : s.pc = .dequeueRead) (hf : s.win.freeBufs = 0) :
    Move s (.readReturns error) ⟨s.win, .dequeueRead, [.access], .nothing⟩
  | dequeueNone (error : Bool) (hpc : s.pc = .dequeueRead) (hf : s.win.freeBufs ≠ 0)
    (hp : s.win.pick = none) :
    Move s (.readReturns error) ⟨s.win, .idle, [.access, .unlock, .ret], .nothing⟩
  | dequeuePick (error : Bool) (b : Nat) (hpc : s.pc = .dequeueRead) (hf : s.win.freeBufs ≠ 0)
    (hp : s.win.pick = some b) (hfits : s.win.Fits b) :
    Move s (.readReturns error)
      ⟨s.win.handOut b, .idle, [.access, .unlock, .ret], .dequeued b⟩
  | dequeueReplace (error : Bool) (b : Nat) (hpc : s.pc = .dequeueRead) (hf : s.win.freeBufs ≠ 0)
    (hp : s.win.pick = some b) (hfits : ¬ s.win.Fits b) :
    Move s (.readReturns error)
      ⟨(s.win.remove b).newBuffer, .adding .dequeue s.win.next, [.access], .nothing⟩
  | swapWaits (error : Bool) (b : Nat) (hpc : s.pc.swaps = some b) (he : s.swapEnds error = false) :
    Move s (.readReturns error) ⟨s.win, .swapWait b, [], .nothing⟩
  | swapFails (b : Nat) (hpc : s.pc.swaps = some b) (he : s.swapEnds true) :
    Move s (.readReturns true) ⟨s.win, .idle, [.ret], .unswapped⟩
  | swapAttaches (b : Nat) (hpc : s.pc.swaps = some b) (he : s.swapEnds false) :
    Move s (.readReturns false)
      ⟨s.win.attach b, .idle, [.access, .unlock, .ret], .attached b⟩
  | postFails (b : Nat) (hpc : s.pc = .postRead b) :
    Move s (.readReturns true) ⟨s.win, .idle, [.unlock, .ret], .nothing⟩
  | posts (b : Nat) (hpc : s.pc = .postRead b) :
    Move s (.readReturns false) ⟨s.win.post b, .idle, [.access, .unlock, .ret], .nothing⟩
  | addedForDequeue (format b : Nat) (hpc : s.pc = .adding .dequeue b) :
    Move s (.roundtripDone format)
      ⟨(s.win.listBuffer b format).handOut b, .idle, [.access, .unlock, .ret], .dequeued b⟩
  | addedLast (format b : Nat) (hpc : s.pc = .adding (.count 0) b) :
    Move s (.roundtripDone format)
      ⟨s.win.listBuffer b format, .idle, [.access, .unlock, .ret], .nothing⟩
  | addedMore (format b n : Nat) (hpc : s.pc = .adding (.count (n + 1)) b) :
    Move s (.roundtripDone format)
      ⟨(s.win.listBuffer b format).newBuffer, .adding (.count n) s.win.next, [.access], .nothing⟩
  | setter (a : Action) (ha : a.unlocked)
    (width height format usage windowWidth windowHeight : Nat) :
    Move s a
      ⟨{ s.win with
          width := width, height := height, format := format, usage := usage
          windowWidth := windowWidth, windowHeight := windowHeight }, s.pc, [], .nothing⟩

theorem move_dequeueAfterRead {s : State} {error : Bool} (hpc : s.pc = .dequeueRead) :
    Move s (.readReturns error) (dequeueAfterRead s.win) := by
  unfold dequeueAfterRead
  split
  · exact .dequeueBlocks error hpc ‹_›
  · cases hp : s.win.pick with
    | none => exact .dequeueNone error hpc ‹_› hp
    | some b =>
      by_cases hfits : s.win.Fits b
      · simp only [hfits, if_true]
        exact .dequeuePick error b hpc ‹_› hp hfits
      · simp only [hfits, if_false]
        exact .dequeueReplace error b hpc ‹_› hp hfits

theorem move_swapAfterRead {s : State} {error : Bool} {b : Nat} (hpc : s.pc.swaps = some b)
    (he : s.swapEnds error) : Move s (.readReturns error) (swapAfterRead s.win b error) := by
  cases error with
  | true => exact .swapFails b hpc he
  | false => exact .swapAttaches b hpc he

theorem move_afterRead {s : State} {error : Bool} {o : Outcome}
    (h : afterRead s.win error s.pc = some o) : Move s (.readReturns error) o := by
  cases hpc : s.pc with
  | dequeueRead =>
    rw [hpc, afterRead, Option.some.injEq] at h
    exact h ▸ move_dequeueAfterRead hpc
  | swapRead b =>
    rw [hpc, afterRead, Option.some.injEq] at h
    cases hf : s.win.frameCallback with
    | true =>
      simp only [hf, if_true] at h
      exact h ▸ .swapWaits error b (by simp [hpc, Pc.swaps]) (by simp [State.swapEnds, hpc, hf])
    | false =>
      simp only [hf, Bool.false_eq_true, if_false] at h
      exact h ▸ move_swapAfterRead (by simp [hpc, Pc.swaps]) (by simp [State.swapEnds, hpc, hf])
  | swapWait b =>
    rw [hpc, afterRead, Option.some.injEq] at h
    cases hf : s.win.frameCallback && !error with
    | true =>
      simp only [hf, if_true] at h
      have he : s.swapEnds error = false := by
        rw [State.swapEnds, hpc]
        simp_all
      exact h ▸ .swapWaits error b (by simp [hpc, Pc.swaps]) he
    | false =>
      simp only [hf, Bool.false_eq_true, if_false] at h
      have he : s.swapEnds error = true := by
        rw [State.swapEnds, hpc]
        cases error <;> simp_all
      exact h ▸ move_swapAfterRead (by simp [hpc, Pc.swaps]) he
  | postRead b =>
    rw [hpc, afterRead, Option.some.injEq] at h
    cases error with
    | true => exact h ▸ .postFails b hpc
    | false => exact h ▸ .posts b hpc
  | idle => simp [hpc, afterRead] at h
  | adding p b => simp [hpc, afterRead] at h

theorem move_afterRoundtrip {s : State} {format : Nat} {o : Outcome}
    (h : afterRoundtrip s.win format s.pc = some o) : Move s (.roundtripDone format) o := by
  cases hpc : s.pc with
  | adding p b =>
    rw [hpc] at h
    cases p with
    | dequeue =>
      obtain rfl := Option.some.inj h
      exact .addedForDequeue format b hpc
    | count n =>
      cases n with
      | zero =>
        obtain rfl := Option.some.inj h
        exact .addedLast format b hpc
      | succ n =>
        obtain rfl := Option.some.inj h
        exact .addedMore format b n hpc
  | _ => simp [hpc, afterRoundtrip] at h

theorem move_releaseBuffer {s : State} {b : Nat} {o : Outcome} (hd : s.pc.dispatches)
    (h : releaseBuffer s b = some o) : Move s (.release b) o := by
  unfold releaseBuffer at h
  split at h
  · split at h
    · exact Option.some.inj h ▸ .releasePosted b hd ‹_› ‹_›
    · split at h
      · rename_i hfl
        exact Option.some.inj h ▸ .releaseFronted b hd ‹_› ‹_› hfl.1 hfl.2
      · cases h
  · cases h

theorem move_setBufferCount {s : State} (cnt : Int) (hr : s.ready) :
    Move s (.setBufferCount cnt) (setBufferCount s.win cnt) := by
  unfold setBufferCount
  split
  · exact .countIs cnt hr ‹_›
  · split
    · exact .shrink cnt hr ‹_›
    · cases hn : (cnt - s.win.bufList.length).toNat with
      | zero => exact .countStays cnt hr ‹_›
      | succ n => exact .grow cnt n hr hn

theorem move_postBuffer {s : State} (other : Nat) (hr : s.ready) :
    Move s (.postBuffer other) (postBuffer s.win other) := by
  unfold postBuffer
  cases hb : s.win.registered other with
  | none => exact .postNew other hr hb
  | some b => exact .postRegistered other b hr hb

theorem move_of_next {s : State} {a : Action} {o : Outcome} (h : next s a = some o) :
    Move s a o := by
  cases a with
  | dequeueBuffer =>
    simp only [next, Option.ite_none_right_eq_some, Option.some.injEq] at h
    obtain ⟨hr, rfl⟩ := h
    exact .dequeueBuffer hr
  | queueBuffer b =>
    simp only [next, Option.ite_none_right_eq_some, Option.some.injEq] at h
    obtain ⟨hr, rfl⟩ := h
    exact .queueBuffer b hr
  | cancelBuffer b =>
    simp only [next, Option.ite_none_right_eq_some, Option.some.injEq] at h
    obtain ⟨⟨hr, hb⟩, rfl⟩ := h
    exact .cancelBuffer b hr hb
  | finishSwap stale =>
    simp only [next, finishSwap, Option.ite_none_right_eq_some, Option.bind_eq_some_iff,
      Option.some.injEq] at h
    obtain ⟨hr, b, hb, ⟨hlt, hnull⟩, rfl⟩ := h
    exact .finishSwap stale b hr hb hlt hnull
  | setBufferCount cnt =>
    simp only [next, Option.ite_none_right_eq_some, Option.some.injEq] at h
    obtain ⟨hr, rfl⟩ := h
    exact move_setBufferCount cnt hr
  | setSwapInterval interval =>
    simp only [next, Option.ite_none_right_eq_some, Option.some.injEq] at h
    obtain ⟨hr, rfl⟩ := h
    exact .setSwapInterval interval hr
  | prepareSwap =>
    simp only [next, Option.ite_none_right_eq_some, Option.some.injEq] at h
    obtain ⟨hr, rfl⟩ := h
    exact .prepareSwap hr
  | postBuffer other =>
    simp only [next, Option.ite_none_right_eq_some, Option.some.injEq] at h
    obtain ⟨hr, rfl⟩ := h
    exact move_postBuffer other hr
  | release b =>
    simp only [next, Option.ite_none_right_eq_some] at h
    exact move_releaseBuffer h.1 h.2
  | frame =>
    simp only [next, Option.ite_none_right_eq_some, Option.some.injEq] at h
    obtain ⟨hd, rfl⟩ := h
    exact .frame hd
  | readReturns error => exact move_afterRead h
  | roundtripDone format => exact move_afterRoundtrip h
  | setBuffersFormat format => exact Option.some.inj h ▸ .setter _ rfl _ _ _ _ _ _
  | setUsage usage => exact Option.some.inj h ▸ .setter _ rfl _ _ _ _ _ _
  | setBuffersDimensions width height => exact Option.some.inj h ▸ .setter _ rfl _ _ _ _ _ _
  | resize width height => exact Option.some.inj h ▸ .setter _ rfl _ _ _ _ _ _

theorem step_cases {s t : State} {a : Action} (h : step s a = some t) :
    ∃ o, Move s a o ∧ t = s.advance o := by
  obtain ⟨o, ho, rfl⟩ := Option.map_eq_some_iff.mp h
  exact ⟨o, move_of_next ho, rfl⟩

/-- The list has no buffer twice, and a buffer that is being made is not in it yet. -/
structure WellFormed (w : Window) (pc : Pc) : Prop where
  nodup : w.bufList.Nodup
  old : ∀ b ∈ w.bufList, b < w.next
  adding : ∀ p b, pc = .adding p b → b ∉ w.bufList ∧ b < w.next

theorem wellFormed_newBuffer {w : Window} {pc : Pc} (hw : WellFormed w pc) (p : Purpose) :
    WellFormed w.newBuffer (.adding p w.next) := by
  refine ⟨hw.nodup, fun b hb => Nat.lt_succ_of_lt (hw.old b hb), fun q b hq => ?_⟩
  obtain ⟨_, rfl⟩ := Pc.adding.inj hq
  exact ⟨fun hb => Nat.lt_irrefl _ (hw.old _ hb), Nat.lt_succ_self _⟩

theorem wellFormed_listBuffer {w : Window} {p : Purpose} {b : Nat}
    (hw : WellFormed w (.adding p b)) (format : Nat) :
    WellFormed (w.listBuffer b format) .idle := by
  obtain ⟨hb, hlt⟩ := hw.adding p b rfl
  refine ⟨?_, fun c hc => ?_, fun q c hq => by cases hq⟩
  · refine List.nodup_append.mpr ⟨hw.nodup, List.nodup_singleton b, fun c hc d hd hcd => ?_⟩
    rw [List.mem_singleton.mp hd] at hcd
    exact hb (hcd ▸ hc)
  · obtain hc | hc := List.mem_append.mp hc
    · exact hw.old c hc
    · exact List.mem_singleton.mp hc ▸ hlt

theorem wellFormed_remove {w : Window} {pc : Pc} (hw : WellFormed w pc) (b : Nat) :
    WellFormed (w.remove b) .idle :=
  ⟨hw.nodup.erase b, fun c hc => hw.old c (List.mem_of_mem_erase hc), fun q c hq => by cases hq⟩

theorem givenUp_append_drop (cnt i : Nat) (l : List Nat) :
    givenUp cnt i l ++ l.drop (givenUp cnt i l).length = l := by
  induction l generalizing i with
  | nil => rfl
  | cons b l ih =>
    by_cases hi : i ≤ (b :: l).length - cnt
    · rw [givenUp, if_pos hi, List.length_cons, List.drop_succ_cons, List.cons_append, ih]
    · rw [givenUp, if_neg hi, List.length_nil, List.drop_zero, List.nil_append]

theorem mem_shrink {w : Window} (hw : w.bufList.Nodup) (cnt b : Nat) :
    b ∈ (w.shrink cnt).bufList ↔ b ∈ w.bufList ∧ b ∉ givenUp cnt 0 w.bufList := by
  have happ := givenUp_append_drop cnt 0 w.bufList
  have hdisj := (List.nodup_append.mp (happ.symm ▸ hw)).2.2
  constructor
  · intro hb
    exact ⟨List.mem_of_mem_drop hb, fun hg => hdisj b hg b hb rfl⟩
  · rintro ⟨hb, hg⟩
    rw [← happ] at hb
    exact (List.mem_append.mp hb).resolve_left hg

theorem destroyBuffers_keep {β : Type*} (f : Window → β)
    (hf : ∀ (w : Window) (b : Nat), f (w.destroyBuffer b) = f w) (l : List Nat) (w : Window) :
    f (l.foldl Window.destroyBuffer w) = f w := by
  induction l generalizing w with
  | nil => rfl
  | cons b l ih => exact (ih (w.destroyBuffer b)).trans (hf w b)

theorem shrink_next (w : Window) (cnt : Nat) : (w.shrink cnt).next = w.next :=
  destroyBuffers_keep Window.next (fun _ _ => rfl) _ w

theorem wellFormed_shrink {w : Window} {pc : Pc} (hw : WellFormed w pc) (cnt : Nat) :
    WellFormed (w.shrink cnt) .idle := by
  refine ⟨hw.nodup.sublist (List.drop_sublist _ _), fun b hb => ?_, fun q c hq => by cases hq⟩
  rw [shrink_next]
  exact hw.old b (List.mem_of_mem_drop hb)

theorem WellFormed.mono {w v : Window} {pc pc' : Pc} (hw : WellFormed w pc)
    (hlist : v.bufList = w.bufList) (hnext : w.next ≤ v.next)
    (hpc : ∀ p b, pc' = .adding p b → pc = .adding p b) : WellFormed v pc' := by
  refine ⟨hlist ▸ hw.nodup, fun b hb => ?_, fun p b hb => ?_⟩
  · exact Nat.lt_of_lt_of_le (hw.old b (hlist ▸ hb)) hnext
  · obtain ⟨hb, hlt⟩ := hw.adding p b (hpc p b hb)
    exact ⟨hlist ▸ hb, Nat.lt_of_lt_of_le hlt hnext⟩

theorem wellFormed_move {s : State} {a : Action} {o : Outcome} (hw : WellFormed s.win s.pc)
    (h : Move s a o) : WellFormed o.win o.pc := by
  have hidle : ∀ (v : Window) (pc : Pc), v.bufList = s.win.bufList → s.win.next ≤ v.next →
      (∀ p b, pc ≠ .adding p b) → WellFormed v pc :=
    fun v pc hlist hnext hpc => hw.mono hlist hnext (fun p b hb => absurd hb (hpc p b))
  have hsame : ∀ v : Window, v.bufList = s.win.bufList → v.next = s.win.next →
      WellFormed v s.pc :=
    fun v hlist hnext => hw.mono hlist (Nat.le_of_eq hnext.symm) (fun _ _ h => h)
  cases h with
  | dequeueReplace error b hpc hf hp hfits => exact wellFormed_newBuffer (wellFormed_remove hw b) _
  | addedForDequeue format b hpc =>
    rw [hpc] at hw
    exact (wellFormed_listBuffer hw format).mono rfl (Nat.le_refl _) (fun _ _ h => h)
  | addedLast format b hpc =>
    rw [hpc] at hw
    exact wellFormed_listBuffer hw format
  | addedMore format b n hpc =>
    rw [hpc] at hw
    exact wellFormed_newBuffer (wellFormed_listBuffer hw format) _
  | shrink cnt hr hcnt => exact wellFormed_shrink hw _
  | grow cnt n hr hcnt => exact wellFormed_newBuffer hw _
  | postNew other hr hb => exact hidle _ _ rfl (Nat.le_succ _) (fun _ _ h => by cases h)
  | releasePosted b hd hw hb => exact hsame _ rfl rfl
  | releaseFronted b hd hw hb hf hl => exact hsame _ rfl rfl
  | frame hd => exact hsame _ rfl rfl
  | setter a ha width height format usage windowWidth windowHeight => exact hsame _ rfl rfl
  | _ => exact hidle _ _ rfl (Nat.le_refl _) (fun _ _ h => by cases h)

theorem wellFormed_step {s t : State} {a : Action} (hw : WellFormed s.win s.pc)
    (h : step s a = some t) : WellFormed t.win t.pc := by
  obtain ⟨o, hmove, rfl⟩ := step_cases h
  exact wellFormed_move hw hmove

theorem wellFormed_start (width height : Nat) :
    WellFormed (start width height).win (start width height).pc :=
  ⟨List.nodup_nil, fun _ h => absurd h List.not_mem_nil, fun _ _ h => by cases h⟩

end FakeLibc.WaylandWindow

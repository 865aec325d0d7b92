import FakeLibc.Lib.Circulation
import FakeLibc.WaylandFreeCount
import FakeLibc.WaylandPosting
import FakeLibc.WaylandRelease
import FakeLibc.WaylandSelection

namespace FakeLibc.WaylandOrderly

open FakeLibc.Lib.Run FakeLibc.Lib.Circulation FakeLibc.WaylandWindow FakeLibc.WaylandClient
open FakeLibc.WaylandRelease (mark mark_modify mark_takeFront mark_handOut mark_releaseFronted
  wlbuffer_destroyBuffer)

/-- What is queued and not shown yet. -/
def pending (c : Client) : List Nat := c.queued.drop c.swaps.length

/-- The client of an EGL surface: it queues the buffer that it has had for
longest, and after each `queueBuffer` comes one `finishSwap`, whose dispatch
meets no error. It cancels and posts nothing and never lowers the count. The
compositor releases what it was given. -/
def orderly (c : Client) : Action → Bool
  | .queueBuffer b => decide (c.held.head? = some b ∧ c.queued.length = c.swaps.length)
  | .finishSwap _ => decide (c.queued.length = c.swaps.length + 1)
  | .cancelBuffer _ => false
  | .postBuffer _ => false
  | .setBufferCount cnt => decide (c.state.win.bufList.length ≤ cnt)
  | .release b => decide (b ∈ c.given)
  | .readReturns error => !(c.state.swapEnds error && error)
  | _ => true

def busy (c : Client) (b : Nat) : Bool := (c.state.win.bufs b).busy

structure Inv (c : Client) : Prop where
  count : WaylandFreeCount.Inv c
  line : WaylandPosting.Inv c
  order : c.dequeued = c.queued ++ c.held
  one : c.queued.length ≤ c.swaps.length + 1
  swapping : ∀ b, c.state.pc.swaps = some b → pending c = [b]
  rounds : Rounds c.state.win.bufList (busy c) c.held (pending c) c.given
  fronted : c.state.win.fronted = c.given
  wlbuffer : ∀ b ∈ c.given, (c.state.win.bufs b).wlbuffer = true
  single : c.clashes = []

/-- What a window does for such a client. Its counter is exact, every listed
buffer is free or at one place of its round, and the `k`-th `finishSwap` has
shown what the `k`-th `queueBuffer` queued. A release finds its buffer, and
`dequeueBuffer` finds one whenever the counter is not zero. -/
structure Right (c : Client) : Prop where
  exact : WaylandFreeCount.Exact c
  rounds : Rounds c.state.win.bufList (busy c) c.held (pending c) c.given
  single : c.clashes = []
  posted : WaylandPosting.Posted c
  found : ∀ b ∈ c.given, c.state.pc.dispatches = true → (next c.state (.release b)).isSome
  picks : c.state.win.freeBufs ≠ 0 → c.state.win.pick.isSome
  total : (c.state.win.bufList.length : Int) =
    c.state.win.freeBufs + c.held.length + (pending c).length + c.given.length

variable {c d : Client} {a : Action} {o : Outcome}

theorem length_swaps_le (hi : Inv c) : c.swaps.length ≤ c.queued.length :=
  WaylandPosting.length_le_of_shows hi.line.shows

/-- The deque is what is pending and what the client holds. -/
theorem deque_eq (hi : Inv c) :
    c.state.pc.swaps.toList ++ c.state.win.queue = pending c ++ c.held := by
  rw [hi.line.queue, hi.order, List.drop_append_of_le_length (length_swaps_le hi), pending]

theorem length_pending (c : Client) : (pending c).length = c.queued.length - c.swaps.length :=
  List.length_drop

theorem Client.step_mono {allowed allowed' : Client → Action → Bool}
    (h : c.step allowed a = some d) (himp : allowed c a = true → allowed' c a = true) :
    c.step allowed' a = some d := by
  simp only [Client.step, Option.ite_none_right_eq_some] at h ⊢
  exact ⟨himp h.1, h.2⟩

theorem not_post (ha : orderly c a = true) (other : Nat) : a ≠ .postBuffer other := by
  rintro rfl
  cases ha

theorem returns_of_orderly (ha : orderly c a = true) : c.returns a = true := by
  cases a with
  | queueBuffer b =>
    obtain ⟨hhead, -⟩ := of_decide_eq_true ha
    exact decide_eq_true (List.mem_of_mem_head? hhead)
  | cancelBuffer b => cases ha
  | postBuffer other => cases ha
  | _ => rfl

theorem inOrder_of_orderly (hi : Inv c) (ha : orderly c a = true) :
    WaylandPosting.inOrder c a = true := by
  cases a with
  | queueBuffer b =>
    obtain ⟨hhead, -⟩ := of_decide_eq_true ha
    obtain ⟨l, hl⟩ := List.head?_eq_some_iff.mp hhead
    refine Bool.and_eq_true_iff.mpr ⟨decide_eq_true (List.mem_of_mem_head? hhead), ?_⟩
    rw [List.isSublist_iff_sublist, hi.order, hl, List.append_cons c.queued b l]
    exact List.sublist_append_left _ l
  | finishSwap stale =>
    have hlen : c.queued.length = c.swaps.length + 1 := of_decide_eq_true ha
    exact decide_eq_true (by omega)
  | cancelBuffer b => cases ha
  | postBuffer other => cases ha
  | _ => rfl

theorem front_of_orderly (hi : Inv c) {stale : Option Nat} {b : Nat} (hr : c.state.ready = true)
    (ha : orderly c (.finishSwap stale) = true)
    (hb : (c.state.win.front stale).or c.state.win.lastBuffer = some b) : pending c = [b] := by
  have hlen : c.queued.length = c.swaps.length + 1 := of_decide_eq_true ha
  obtain ⟨x, hx⟩ := List.length_eq_one_iff.mp (show (pending c).length = 1 by
    rw [length_pending]
    omega)
  have hdeque := deque_eq hi
  rw [swaps_of_ready hr, hx, Option.toList_none, List.nil_append] at hdeque
  have hbx : some x = some b := by
    rw [← hb, Window.front, hdeque]
    rfl
  rw [hx, Option.some.inj hbx]

theorem kept_count (hi : Inv c) (ha : orderly c a = true) (h : Move c.state a o) :
    WaylandFreeCount.Kept c.state a := by
  cases h with
  | cancelBuffer b hr hb => cases ha
  | finishSwap stale b hr hb hlt =>
    intro x hx _
    obtain rfl : b = x := Option.some.inj (hb.symm.trans hx)
    apply hi.rounds.busy_of_mem
    rw [front_of_orderly hi hr ha hb]
    simp
  | countIs cnt hr hcnt => exact fun _ hlt => absurd hcnt (Int.ne_of_lt hlt)
  | countStays cnt hr hcnt => exact fun hle hlt => absurd ⟨hle, hlt⟩ hcnt
  | shrink cnt hr hcnt =>
    have hle : (c.state.win.bufList.length : Int) ≤ cnt := of_decide_eq_true ha
    exact absurd hcnt.2 (Int.not_lt.mpr hle)
  | grow cnt n hr hcnt => exact fun _ hlt => by omega
  | releasePosted b hd hw hb =>
    rw [hi.count.sound.posted] at hb
    cases hb
  | releaseFronted b hd hw hb hf hl =>
    apply hi.rounds.busy_of_mem
    have hg : b ∈ c.given := hi.fronted ▸ hf
    simp [hg]
  | setter a hu width height format usage windowWidth windowHeight =>
    cases a <;> first | exact trivial | cases hu
  | _ => exact trivial

theorem kept_line (hi : Inv c) (ha : orderly c a = true) : WaylandPosting.Kept c a := by
  cases a with
  | readReturns error =>
    intro he
    have herr : error = false := by
      simpa [orderly, he] using ha
    refine ⟨herr, ?_⟩
    obtain ⟨b, hb⟩ : ∃ b, c.state.pc.swaps = some b := by
      cases hs : c.state.pc.swaps with
      | none =>
        rw [swapEnds_of_not_swaps hs] at he
        cases he
      | some b => exact ⟨b, rfl⟩
    have hlen := congrArg List.length (hi.swapping b hb)
    rw [length_pending, List.length_singleton] at hlen
    rw [hi.order, List.getElem?_append_left (by omega)]
  | _ => exact trivial

theorem order_move (hi : Inv c) (ha : orderly c a = true) (h : Move c.state a o) :
    (c.after a o).dequeued = (c.after a o).queued ++ (c.after a o).held := by
  have horder := hi.order
  cases h with
  | queueBuffer b hr =>
    obtain ⟨hhead, -⟩ := of_decide_eq_true ha
    obtain ⟨l, hl⟩ := List.head?_eq_some_iff.mp hhead
    show c.dequeued = (c.queued ++ [b]) ++ c.held.erase b
    rw [horder, hl, List.erase_cons_head, List.append_cons]
  | cancelBuffer b hr hb => cases ha
  | dequeuePick error b hpc hf hp hfits =>
    show c.dequeued ++ [b] = c.queued ++ (c.held ++ [b])
    rw [horder, List.append_assoc]
  | addedForDequeue format b hpc =>
    show c.dequeued ++ [b] = c.queued ++ (c.held ++ [b])
    rw [horder, List.append_assoc]
  | setter a hu width height format usage windowWidth windowHeight =>
    cases a <;> first | exact horder | cases hu
  | _ => exact horder

theorem one_move (hi : Inv c) (ha : orderly c a = true) (h : Move c.state a o) :
    (c.after a o).queued.length ≤ (c.after a o).swaps.length + 1 := by
  have hone := hi.one
  cases h with
  | queueBuffer b hr =>
    obtain ⟨-, hlen⟩ := of_decide_eq_true ha
    show (c.queued ++ [b]).length ≤ c.swaps.length + 1
    rw [List.length_append, List.length_singleton, hlen]
  | swapFails b hpc he =>
    show c.queued.length ≤ (c.swaps ++ [none]).length + 1
    rw [List.length_append, List.length_singleton]
    omega
  | swapAttaches b hpc he =>
    show c.queued.length ≤ (c.swaps ++ [some b]).length + 1
    rw [List.length_append, List.length_singleton]
    omega
  | setter a hu width height format usage windowWidth windowHeight =>
    cases a <;> first | exact hone | cases hu
  | _ => exact hone

theorem swapping_move (hi : Inv c) (ha : orderly c a = true) (h : Move c.state a o) (b : Nat)
    (hpc : o.pc.swaps = some b) : pending (c.after a o) = [b] := by
  cases h with
  | finishSwap stale d hr hd hlt =>
    obtain rfl : d = b := Option.some.inj hpc
    exact front_of_orderly hi hr ha hd
  | releasePosted d hd hw hd' => exact hi.swapping b hpc
  | releaseFronted d hd hw hd' hf hl => exact hi.swapping b hpc
  | frame hd => exact hi.swapping b hpc
  | swapWaits error d hd he => exact hi.swapping b (hd.trans hpc)
  | setter a hu width height format usage windowWidth windowHeight =>
    cases a <;> first | exact hi.swapping b hpc | cases hu
  | _ => cases hpc

theorem pending_attach {b : Nat} (hi : Inv c) (hpc : c.state.pc.swaps = some b) :
    c.queued.drop (c.swaps ++ [some b]).length = [] := by
  have hlen := congrArg List.length (hi.swapping b hpc)
  rw [length_pending, List.length_singleton] at hlen
  rw [List.drop_eq_nil_iff, List.length_append, List.length_singleton]
  omega

theorem filter_eq_erase {l : List Nat} (hl : l.Nodup) (b : Nat) :
    l.filter (· ≠ b) = l.erase b := by
  rw [hl.erase_eq_filter]
  apply List.filter_congr
  intro x _
  by_cases hx : x = b
  · simp [hx]
  · simp [hx]

theorem rounds_move (hi : Inv c) (ha : orderly c a = true) (h : Move c.state a o) :
    Rounds (c.after a o).state.win.bufList (busy (c.after a o)) (c.after a o).held
      (pending (c.after a o)) (c.after a o).given := by
  have hrounds := hi.rounds
  have hw := hi.count.sound.wellFormed
  cases h with
  | queueBuffer b hr =>
    obtain ⟨hhead, hlen⟩ := of_decide_eq_true ha
    obtain ⟨l, hl⟩ := List.head?_eq_some_iff.mp hhead
    have hpend : (c.queued ++ [b]).drop c.swaps.length = pending c ++ [b] := by
      rw [List.drop_append_of_le_length (Nat.le_of_eq hlen.symm), pending]
    rw [hl] at hrounds
    have hback := hrounds.back
    show Rounds c.state.win.bufList (busy c) (c.held.erase b)
      ((c.queued ++ [b]).drop c.swaps.length) c.given
    rw [hpend, hl, List.erase_cons_head]
    exact hback
  | cancelBuffer b hr hb => cases ha
  | finishSwap stale b hr hb hlt =>
    refine hrounds.congr fun x hx => ?_
    show ((c.state.win.takeFront b).bufs x).busy = busy c x
    rw [busy_takeFront]
    split
    next hxb =>
      have hmem : b ∈ c.held ++ (pending c ++ c.given) := by
        rw [front_of_orderly hi hr ha hb]
        simp
      rw [hxb]
      exact (hrounds.busy_of_mem hmem).symm
    next => rfl
  | shrink cnt hr hcnt =>
    have hle : (c.state.win.bufList.length : Int) ≤ cnt := of_decide_eq_true ha
    exact absurd hcnt.2 (Int.not_lt.mpr hle)
  | grow cnt n hr hcnt =>
    refine hrounds.congr fun x hx => ?_
    show (c.state.win.newBuffer.bufs x).busy = busy c x
    rw [busy_newBuffer, if_neg (Nat.ne_of_lt (hw.old x hx))]
    rfl
  | postRegistered other b hr hb => exact absurd rfl (not_post ha other)
  | postNew other hr hb => exact absurd rfl (not_post ha other)
  | releasePosted b hd hwl hb =>
    rw [hi.count.sound.posted] at hb
    cases hb
  | releaseFronted b hd hwl hb hf hl =>
    have hg : b ∈ c.given := hi.fronted ▸ hf
    show Rounds c.state.win.bufList _ c.held (pending c) (c.given.filter (· ≠ b))
    rw [filter_eq_erase hrounds.nodup_given b]
    exact hrounds.release hg (busy_releaseFronted c.state.win b)
  | dequeuePick error b hpc hf hp hfits =>
    exact hrounds.handOut (mem_of_pick hp) (not_busy_of_pick hp) (busy_handOut c.state.win b)
  | dequeueReplace error b hpc hf hp hfits =>
    refine (hrounds.discard (not_busy_of_pick hp)).congr fun x hx => ?_
    have hne : x ≠ (c.state.win.remove b).next :=
      Nat.ne_of_lt (hw.old x (List.mem_of_mem_erase hx))
    show ((c.state.win.remove b).newBuffer.bufs x).busy = busy c x
    rw [busy_newBuffer, if_neg hne, busy_remove]
    rfl
  | swapFails b hpc he =>
    rw [orderly, he] at ha
    cases ha
  | swapAttaches b hpc he =>
    rw [hi.swapping b hpc] at hrounds
    show Rounds c.state.win.bufList _ c.held (c.queued.drop (c.swaps ++ [some b]).length)
      (c.given ++ [b])
    rw [pending_attach hi hpc]
    exact hrounds.give.congr fun x _ => busy_attach c.state.win b x
  | posts b hpc => exact absurd hpc (hi.count.sound.posting b)
  | addedForDequeue format b hpc =>
    have hadd := hrounds.add (hw.adding _ b hpc).1 (hi.count.sound.adding _ b hpc)
    refine hadd.handOut (List.mem_append_right _ (List.mem_singleton_self b))
      (hi.count.sound.adding _ b hpc) fun x => ?_
    show (((c.state.win.listBuffer b format).handOut b).bufs x).busy = _
    rw [busy_handOut, busy_listBuffer]
    rfl
  | addedLast format b hpc =>
    exact (hrounds.add (hw.adding _ b hpc).1 (hi.count.sound.adding _ b hpc)).congr
      fun x _ => busy_listBuffer c.state.win b x format
  | addedMore format b n hpc =>
    have hadd := hrounds.add (hw.adding _ b hpc).1 (hi.count.sound.adding _ b hpc)
    refine hadd.congr fun x hx => ?_
    have hne : x ≠ (c.state.win.listBuffer b format).next := by
      obtain hx | hx := List.mem_append.mp hx
      · exact Nat.ne_of_lt (hw.old x hx)
      · rw [List.mem_singleton.mp hx]
        exact Nat.ne_of_lt (hw.adding _ b hpc).2
    show ((c.state.win.listBuffer b format).newBuffer.bufs x).busy = busy c x
    rw [busy_newBuffer, if_neg hne, busy_listBuffer]
    rfl
  | setter a hu width height format usage windowWidth windowHeight =>
    cases a <;> first | exact hrounds | cases hu
  | _ => exact hrounds

theorem not_owned {b : Nat} (hb : b ∉ c.held ++ (pending c ++ c.given)) :
    ¬ (b ∈ c.held ∨ b ∈ c.given) := by
  rintro (h | h)
  · exact hb (List.mem_append_left _ h)
  · exact hb (List.mem_append_right _ (List.mem_append_right _ h))

theorem fronted_move (hi : Inv c) (ha : orderly c a = true) (h : Move c.state a o) :
    (c.after a o).state.win.fronted = (c.after a o).given := by
  have hfronted := hi.fronted
  cases h with
  | cancelBuffer b hr hb => cases ha
  | shrink cnt hr hcnt =>
    have hle : (c.state.win.bufList.length : Int) ≤ cnt := of_decide_eq_true ha
    exact absurd hcnt.2 (Int.not_lt.mpr hle)
  | releasePosted b hd hwl hb =>
    rw [hi.count.sound.posted] at hb
    cases hb
  | releaseFronted b hd hwl hb hf hl =>
    show c.state.win.fronted.erase b = c.given.filter (· ≠ b)
    rw [filter_eq_erase hi.rounds.nodup_given b, hfronted]
  | swapAttaches b hpc he =>
    show c.state.win.fronted ++ [b] = c.given ++ [b]
    rw [hfronted]
  | setter a hu width height format usage windowWidth windowHeight =>
    cases a <;> first | exact hfronted | cases hu
  | _ => exact hfronted

theorem single_move (hi : Inv c) (h : Move c.state a o) : (c.after a o).clashes = [] := by
  have hsingle := hi.single
  cases h with
  | swapAttaches b hpc he =>
    have hnodup := hi.rounds.nodup
    rw [hi.swapping b hpc] at hnodup
    have hb : b ∉ c.held :=
      fun hb => (List.nodup_append.mp hnodup).2.2 b hb b (List.mem_cons_self ..) rfl
    show (if b ∈ c.held then c.clashes ++ [b] else c.clashes) = []
    rw [if_neg hb, hsingle]
  | dequeuePick error b hpc hf hp hfits =>
    have hb := hi.rounds.notMem_of_free (not_busy_of_pick hp)
    exact (if_neg (not_owned hb)).trans hsingle
  | addedForDequeue format b hpc =>
    have hb : b ∉ c.held ++ (pending c ++ c.given) :=
      fun hb => (hi.count.sound.wellFormed.adding _ b hpc).1 (hi.rounds.listed b hb)
    exact (if_neg (not_owned hb)).trans hsingle
  | setter a hu width height format usage windowWidth windowHeight =>
    cases a <;> exact hsingle
  | _ => exact hsingle

theorem wlbuffer_of_mark {v w : Window} {b : Nat} (h : mark (v.bufs b) = mark (w.bufs b)) :
    (v.bufs b).wlbuffer = (w.bufs b).wlbuffer :=
  congrArg Prod.fst h

theorem mark_listBuffer (w : Window) (b c format : Nat) :
    mark ((w.listBuffer b format).bufs c) = mark (w.bufs c) :=
  mark_modify _ b c rfl

theorem wlbuffer_newBuffer {w : Window} {b : Nat} (hb : b < w.next) :
    (w.newBuffer.bufs b).wlbuffer = (w.bufs b).wlbuffer := by
  have hnew : w.newBuffer.bufs b = w.bufs b := Function.update_of_ne (Nat.ne_of_lt hb) ..
  rw [hnew]

theorem wlbuffer_move (hi : Inv c) (ha : orderly c a = true) (h : Move c.state a o) :
    ∀ b ∈ (c.after a o).given, ((c.after a o).state.win.bufs b).wlbuffer = true := by
  have hwl := hi.wlbuffer
  have hw := hi.count.sound.wellFormed
  have hold : ∀ b ∈ c.given, b < c.state.win.next := fun b hb =>
    hw.old b (hi.rounds.listed b (List.mem_append_right _ (List.mem_append_right _ hb)))
  have hmark : ∀ v : Window, (∀ b, mark (v.bufs b) = mark (c.state.win.bufs b)) →
      ∀ b ∈ c.given, (v.bufs b).wlbuffer = true :=
    fun v hv b hb => (wlbuffer_of_mark (hv b)).trans (hwl b hb)
  cases h with
  | cancelBuffer b hr hb => cases ha
  | finishSwap stale b hr hb hlt => exact hmark _ (mark_takeFront c.state.win b)
  | shrink cnt hr hcnt =>
    have hle : (c.state.win.bufList.length : Int) ≤ cnt := of_decide_eq_true ha
    exact absurd hcnt.2 (Int.not_lt.mpr hle)
  | grow cnt n hr hcnt => exact fun x hx => (wlbuffer_newBuffer (hold x hx)).trans (hwl x hx)
  | postRegistered other b hr hb => exact absurd rfl (not_post ha other)
  | postNew other hr hb => exact absurd rfl (not_post ha other)
  | releasePosted b hd hwlb hb =>
    rw [hi.count.sound.posted] at hb
    cases hb
  | releaseFronted b hd hwlb hb hf hl =>
    intro x hx
    exact hmark _ (mark_releaseFronted c.state.win b) x (List.mem_of_mem_filter hx)
  | dequeuePick error b hpc hf hp hfits => exact hmark _ (mark_handOut c.state.win b)
  | dequeueReplace error b hpc hf hp hfits =>
    intro x hx
    have hxb : x ≠ b := by
      rintro rfl
      exact not_owned (hi.rounds.notMem_of_free (not_busy_of_pick hp)) (.inr hx)
    have hremove : ((c.state.win.remove b).bufs x).wlbuffer = (c.state.win.bufs x).wlbuffer :=
      (wlbuffer_destroyBuffer c.state.win b x).trans (if_neg hxb)
    have hnew : ((c.state.win.remove b).newBuffer.bufs x).wlbuffer =
        ((c.state.win.remove b).bufs x).wlbuffer := wlbuffer_newBuffer (hold x hx)
    exact hnew.trans (hremove.trans (hwl x hx))
  | swapAttaches b hpc he =>
    intro x hx
    show (((c.state.win.attach b).bufs x)).wlbuffer = true
    rw [Window.attach, modify_bufs]
    split
    next => rfl
    next hxb =>
      obtain hx | hx := List.mem_append.mp hx
      · exact hwl x hx
      · exact absurd (List.mem_singleton.mp hx) hxb
  | posts b hpc => exact absurd hpc (hi.count.sound.posting b)
  | addedForDequeue format b hpc =>
    exact hmark _ fun x => (mark_handOut _ b x).trans (mark_listBuffer c.state.win b x format)
  | addedLast format b hpc => exact hmark _ fun x => mark_listBuffer c.state.win b x format
  | addedMore format b n hpc =>
    intro x hx
    have hlist := hmark _ (fun x => mark_listBuffer c.state.win b x format) x hx
    have hnew : ((c.state.win.listBuffer b format).newBuffer.bufs x).wlbuffer =
        ((c.state.win.listBuffer b format).bufs x).wlbuffer := wlbuffer_newBuffer (hold x hx)
    exact hnew.trans hlist
  | setter a hu width height format usage windowWidth windowHeight =>
    cases a <;> first | exact hwl | cases hu
  | _ => exact hwl

theorem inv_step (hi : Inv c) (h : c.step orderly a = some d) : Inv d := by
  obtain ⟨ha, o, hmove, rfl⟩ := Client.step_cases h
  exact {
    count := WaylandFreeCount.inv_step hi.count (kept_count hi ha hmove)
      (Client.step_mono h returns_of_orderly)
    line := WaylandPosting.inv_step hi.line (kept_line hi ha)
      (Client.step_mono h (inOrder_of_orderly hi))
    order := order_move hi ha hmove
    one := one_move hi ha hmove
    swapping := swapping_move hi ha hmove
    rounds := rounds_move hi ha hmove
    fronted := fronted_move hi ha hmove
    wlbuffer := wlbuffer_move hi ha hmove
    single := single_move hi hmove }

theorem inv_start (width height : Nat) : Inv (Client.start width height) where
  count := ⟨sound_start width height, rfl⟩
  line := ⟨(fun _ _ h => by cases h), rfl, Nat.le_refl 0⟩
  order := rfl
  one := Nat.zero_le 1
  swapping := fun _ h => by cases h
  rounds := Rounds.nil _
  fronted := rfl
  wlbuffer := fun _ h => absurd h List.not_mem_nil
  single := rfl

theorem pick_of_exact (he : WaylandFreeCount.Exact c) (hf : c.state.win.freeBufs ≠ 0) :
    c.state.win.pick.isSome := by
  rw [Option.isSome_iff_ne_none]
  intro hnone
  have hzero : WaylandFreeCount.free c.state.win = 0 := by
    apply List.countP_eq_zero.mpr
    intro b hb hfree
    exact WaylandSelection.pick_eq_none_iff.mp hnone b hb ((Bool.not_eq_true' _).mp hfree)
  apply hf
  rw [he.1, hzero]
  rfl

theorem released_of_given (hi : Inv c) {b : Nat} (hb : b ∈ c.given)
    (hd : c.state.pc.dispatches = true) : (next c.state (.release b)).isSome := by
  have hlisted := hi.rounds.listed b (List.mem_append_right _ (List.mem_append_right _ hb))
  have hposted : b ∉ c.state.win.posted := by
    rw [hi.count.sound.posted]
    exact List.not_mem_nil
  have hfronted : b ∈ c.state.win.fronted := by
    rw [hi.fronted]
    exact hb
  rw [next, if_pos hd, releaseBuffer, if_pos (hi.wlbuffer b hb), if_neg hposted,
    if_pos ⟨hfronted, hlisted⟩]
  rfl

theorem right_of_inv (hi : Inv c) : Right c where
  exact := WaylandFreeCount.exact_of_inv hi.count
  rounds := hi.rounds
  single := hi.single
  posted := hi.line.shows
  found := fun _ hb hd => released_of_given hi hb hd
  picks := pick_of_exact (WaylandFreeCount.exact_of_inv hi.count)
  total := by
    have hlen := hi.rounds.length_eq hi.count.sound.wellFormed.nodup
    have hexact : c.state.win.freeBufs = WaylandFreeCount.free c.state.win :=
      (WaylandFreeCount.exact_of_inv hi.count).1
    have hfree : c.state.win.bufList.countP (fun b => !busy c b) =
      WaylandFreeCount.free c.state.win := rfl
    omega

/-- In every run of such a client, whatever the compositor sends and whoever
resizes the window in between, the window keeps its account of the buffers. -/
theorem always_right (width height : Nat) (as : List Action) :
    Always (Client.step orderly) Right (Client.start width height) as :=
  (always_of_step (fun _ _ _ => inv_step) (inv_start width height) as).mono
    (fun _ => right_of_inv)

/-- Two frames. The window is resized in between, and the buffer that does not
fit any more is replaced. -/
example :
    (exec (Client.step orderly) (Client.start 4 4)
        [.setBufferCount 2, .roundtripDone 1, .roundtripDone 1, .dequeueBuffer, .readReturns false,
          .queueBuffer 0, .finishSwap none, .readReturns false, .resize 8 8, .dequeueBuffer,
          .readReturns false, .roundtripDone 1, .queueBuffer 2, .finishSwap none, .release 0,
          .frame, .readReturns false]).map (fun c => (c.swaps, c.given, c.state.win.freeBufs)) =
      some ([some 0, some 2], [2], 1) := by
  decide

end FakeLibc.WaylandOrderly

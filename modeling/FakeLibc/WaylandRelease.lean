import FakeLibc.WaylandClient

namespace FakeLibc.WaylandRelease

open FakeLibc.Lib.Run FakeLibc.WaylandWindow FakeLibc.WaylandClient

/-- The window with what its compositor has to release: `pending` has a buffer
as often as its `wl_buffer` was attached and not released. `late` are the
buffers that `finishSwap` attached when they were not in the list any more. -/
structure Composed where
  state : State
  pending : List Nat
  late : List Nat

def posts : Pc → Option Nat
  | .postRead b => some b
  | _ => none

def attached (s : State) (a : Action) (o : Outcome) : Option Nat :=
  match o.out with
  | .attached b => some b
  | _ =>
    match a with
    | .readReturns false => posts s.pc
    | _ => none

def Composed.owed (c : Composed) (a : Action) (o : Outcome) : List Nat :=
  match a with
  | .release b => c.pending.erase b
  | a =>
    match attached c.state a o with
    | some b => c.pending ++ [b]
    | none => c.pending

/-- Nothing is released once its `wl_buffer` is gone. -/
def Composed.after (c : Composed) (a : Action) (o : Outcome) : Composed where
  state := c.state.advance o
  pending := (c.owed a o).filter (fun b => (o.win.bufs b).wlbuffer)
  late :=
    match o.out with
    | .attached b => if b ∈ c.state.win.bufList then c.late else b :: c.late
    | _ => c.late

/-- Events come while the queue is dispatched, and a release only for what is pending. -/
def Composed.sends (c : Composed) : Action → Bool
  | .release b => c.state.pc.dispatches && decide (b ∈ c.pending)
  | _ => true

def Composed.step (c : Composed) (a : Action) : Option Composed :=
  if c.sends a then (next c.state a).map (c.after a) else none

def Composed.start (width height : Nat) : Composed := ⟨WaylandWindow.start width height, [], []⟩

/-- `releaseBuffer` finds the buffer where its assertions look for it. -/
def Found (c : Composed) : Action → Prop
  | .release b =>
    c.sends (.release b) →
      b ∈ c.state.win.posted ∨ b ∈ c.state.win.fronted ∧ b ∈ c.state.win.bufList
  | _ => True

/-- The buffer was posted, or `finishSwap` attached it only while it was in the list. -/
def InTime (c : Composed) : Action → Prop
  | .release b => c.sends (.release b) → b ∈ c.state.win.posted ∨ b ∉ c.late
  | _ => True

structure Keeps (w v : Window) : Prop where
  fronted : v.fronted = w.fronted
  posted : v.posted = w.posted
  next : w.next ≤ v.next
  sub : ∀ b ∈ v.bufList, b ∈ w.bufList
  gone : ∀ b ∈ w.bufList, b ∈ v.bufList ∨ (v.bufs b).wlbuffer = false
  wlbuffer : ∀ b < w.next, (w.bufs b).wlbuffer = false → (v.bufs b).wlbuffer = false
  other : ∀ b < w.next, (v.bufs b).other = (w.bufs b).other

/-- Each pending release has its place in one of the two lists. A buffer that is
shown was attached late, or it is in the list, or it has lost its `wl_buffer`. -/
structure Accounted (w : Window) (pc : Pc) (pending late : List Nat) : Prop where
  wellFormed : WellFormed w pc
  count : ∀ b, pending.count b ≤ w.posted.count b + w.fronted.count b
  old : ∀ b ∈ w.fronted, b < w.next
  fronted : ∀ b ∈ w.fronted,
    b ∈ late ∨ b ∈ w.bufList ∨ (w.bufs b).wlbuffer = false ∧ (w.bufs b).other = none
  late : ∀ b ∈ late, b ∉ w.bufList ∧ b < w.next ∧ ∀ p, pc ≠ .adding p b
  own : ∀ b, b ∈ w.bufList ∨ (∃ p, pc = .adding p b) → (w.bufs b).other = none
  posting : ∀ b, pc = .postRead b → (w.bufs b).other ≠ none
  swaps : ∀ b, pc.swaps = some b → b < w.next

def mark (buf : Buf) : Bool × Option Nat := (buf.wlbuffer, buf.other)

section Mark

variable (w : Window) (b c : Nat)

theorem mark_modify {f : Buf → Buf} (hf : mark (f (w.bufs b)) = mark (w.bufs b)) :
    mark ((w.modify b f).bufs c) = mark (w.bufs c) := by
  rw [modify_bufs]
  split
  next hc => rw [hf, hc]
  next => rfl

theorem other_modify {f : Buf → Buf} (hf : (f (w.bufs b)).other = (w.bufs b).other) :
    ((w.modify b f).bufs c).other = (w.bufs c).other := by
  rw [modify_bufs]
  split
  next hc => rw [hf, hc]
  next => rfl

theorem mark_setYoungest : mark ((w.setYoungest b).bufs c) = mark (w.bufs c) := by
  simp only [Window.setYoungest]
  split
  next => rfl
  next => split <;> rfl

theorem mark_setBusy (busy : Bool) : mark ((w.setBusy b busy).bufs c) = mark (w.bufs c) :=
  mark_modify w b c rfl

theorem mark_releasePosted : mark ((w.releasePosted b).bufs c) = mark (w.bufs c) :=
  mark_setBusy _ b c false

theorem mark_handOut : mark ((w.handOut b).bufs c) = mark (w.bufs c) := mark_setBusy _ b c true

theorem mark_takeFront : mark ((w.takeFront b).bufs c) = mark (w.bufs c) := mark_setBusy _ b c true

theorem mark_cancel : mark ((w.cancel b).bufs c) = mark (w.bufs c) :=
  (mark_setYoungest _ b c).trans (mark_setBusy _ b c false)

theorem mark_releaseFronted : mark ((w.releaseFronted b).bufs c) = mark (w.bufs c) :=
  (mark_setYoungest _ b c).trans (mark_setBusy _ b c false)

end Mark

variable {w v : Window} {pc pc' : Pc} {pending late : List Nat} {b : Nat}

theorem keeps_of_mark (hfronted : v.fronted = w.fronted) (hposted : v.posted = w.posted)
    (hlist : v.bufList = w.bufList) (hnext : w.next ≤ v.next)
    (hmark : ∀ b < w.next, mark (v.bufs b) = mark (w.bufs b)) : Keeps w v where
  fronted := hfronted
  posted := hposted
  next := hnext
  sub := fun _ hb => hlist ▸ hb
  gone := fun _ hb => .inl (hlist ▸ hb)
  wlbuffer := fun b hb h => (congrArg Prod.fst (hmark b hb)).trans h
  other := fun b hb => congrArg Prod.snd (hmark b hb)

theorem Keeps.trans {u : Window} (h : Keeps w v) (h' : Keeps v u)
    (hold : ∀ b ∈ w.bufList, b < w.next) : Keeps w u where
  fronted := h'.fronted.trans h.fronted
  posted := h'.posted.trans h.posted
  next := h.next.trans h'.next
  sub := fun b hb => h.sub b (h'.sub b hb)
  gone := fun b hb => by
    obtain hlist | hwl := h.gone b hb
    · exact h'.gone b hlist
    · exact .inr (h'.wlbuffer b ((hold b hb).trans_le h.next) hwl)
  wlbuffer := fun b hb hw => h'.wlbuffer b (hb.trans_le h.next) (h.wlbuffer b hb hw)
  other := fun b hb => (h'.other b (hb.trans_le h.next)).trans (h.other b hb)

theorem keeps_newBuffer (w : Window) : Keeps w w.newBuffer := by
  refine keeps_of_mark rfl rfl rfl (Nat.le_succ _) fun b hb => ?_
  have h : w.newBuffer.bufs b = w.bufs b := Function.update_of_ne (Nat.ne_of_lt hb) ..
  rw [h]

theorem keeps_wrap (w : Window) (other : Nat) : Keeps w (w.wrap other) := by
  refine keeps_of_mark rfl rfl rfl (Nat.le_succ _) fun b hb => ?_
  have h : (w.wrap other).bufs b = w.bufs b := Function.update_of_ne (Nat.ne_of_lt hb) ..
  rw [h]

theorem keeps_setBusy (w : Window) (b : Nat) (busy : Bool) : Keeps w (w.setBusy b busy) :=
  keeps_of_mark rfl rfl rfl (Nat.le_refl _) fun c _ => mark_modify w b c rfl

theorem keeps_handOut (w : Window) (b : Nat) : Keeps w (w.handOut b) :=
  keeps_of_mark rfl rfl rfl (Nat.le_refl _) fun c _ => mark_handOut w b c

theorem other_setBusy (w : Window) (b c : Nat) (busy : Bool) :
    ((w.setBusy b busy).bufs c).other = (w.bufs c).other := other_modify w b c rfl

theorem other_of_registered {other : Nat} (h : w.registered other = some b) :
    (w.bufs b).other = some other := by
  have hb := List.find?_some h
  exact of_decide_eq_true hb

theorem posts_of_swaps {pc : Pc} (h : pc.swaps = some b) : posts pc = none := by
  cases pc with
  | postRead c => cases h
  | _ => rfl

theorem wlbuffer_destroyBuffer (w : Window) (b c : Nat) :
    ((w.destroyBuffer b).bufs c).wlbuffer = if c = b then false else (w.bufs c).wlbuffer := by
  rw [Window.destroyBuffer, modify_bufs]
  split <;> rfl

theorem other_destroyBuffer (w : Window) (b c : Nat) :
    ((w.destroyBuffer b).bufs c).other = (w.bufs c).other := other_modify _ b c rfl

theorem keeps_remove (hw : w.bufList.Nodup) (b : Nat) : Keeps w (w.remove b) where
  fronted := rfl
  posted := rfl
  next := Nat.le_refl _
  sub := fun _ hc => List.mem_of_mem_erase hc
  gone := fun c hc => by
    by_cases hcb : c = b
    · exact .inr ((wlbuffer_destroyBuffer w b c).trans (if_pos hcb))
    · exact .inl ((hw.mem_erase_iff).mpr ⟨hcb, hc⟩)
  wlbuffer := fun c _ h => by
    refine (wlbuffer_destroyBuffer w b c).trans ?_
    split
    next => rfl
    next => exact h
  other := fun c _ => other_destroyBuffer w b c

theorem wlbuffer_destroyBuffers (l : List Nat) (w : Window) (c : Nat) :
    ((l.foldl Window.destroyBuffer w).bufs c).wlbuffer =
      if c ∈ l then false else (w.bufs c).wlbuffer := by
  induction l generalizing w with
  | nil => rfl
  | cons b l ih =>
    rw [List.foldl_cons, ih, wlbuffer_destroyBuffer]
    by_cases hl : c ∈ l <;> by_cases hb : c = b <;> simp [hl, hb]

theorem keeps_shrink (hw : w.bufList.Nodup) (cnt : Nat) : Keeps w (w.shrink cnt) where
  fronted := destroyBuffers_keep Window.fronted (fun _ _ => rfl) _ w
  posted := destroyBuffers_keep Window.posted (fun _ _ => rfl) _ w
  next := Nat.le_of_eq (shrink_next w cnt).symm
  sub := fun _ hb => List.mem_of_mem_drop hb
  gone := fun b hb => by
    by_cases hg : b ∈ givenUp cnt 0 w.bufList
    · exact .inr ((wlbuffer_destroyBuffers _ w b).trans (if_pos hg))
    · exact .inl ((mem_shrink hw cnt b).mpr ⟨hb, hg⟩)
  wlbuffer := fun b _ h => by
    refine (wlbuffer_destroyBuffers _ w b).trans ?_
    split
    next => rfl
    next => exact h
  other := fun b _ =>
    destroyBuffers_keep (fun v => (v.bufs b).other) (fun v d => other_destroyBuffer v d b) _ w

theorem accounted_keeps (h : Accounted w pc pending late) (hk : Keeps w v)
    (hwf : WellFormed v pc')
    (hadd : ∀ p b, pc' = .adding p b →
      pc = .adding p b ∨ w.next ≤ b ∧ (v.bufs b).other = none)
    (hpost : ∀ b, pc' = .postRead b → (v.bufs b).other ≠ none)
    (hswap : ∀ b, pc'.swaps = some b → b < v.next) : Accounted v pc' pending late where
  wellFormed := hwf
  count := fun b => by
    rw [hk.posted, hk.fronted]
    exact h.count b
  old := fun b hb => (h.old b (hk.fronted ▸ hb)).trans_le hk.next
  fronted := fun b hb => by
    have hb : b ∈ w.fronted := hk.fronted ▸ hb
    have hlt := h.old b hb
    obtain hlate | hlist | ⟨hwl, hother⟩ := h.fronted b hb
    · exact .inl hlate
    · obtain hlist' | hwl := hk.gone b hlist
      · exact .inr (.inl hlist')
      · exact .inr (.inr ⟨hwl, (hk.other b hlt).trans (h.own b (.inl hlist))⟩)
    · exact .inr (.inr ⟨hk.wlbuffer b hlt hwl, (hk.other b hlt).trans hother⟩)
  late := fun b hb => by
    obtain ⟨hlist, hlt, hadding⟩ := h.late b hb
    refine ⟨fun hb => hlist (hk.sub b hb), hlt.trans_le hk.next, fun p hp => ?_⟩
    obtain hpc | ⟨hle, _⟩ := hadd p b hp
    · exact hadding p hpc
    · exact absurd hlt (Nat.not_lt.mpr hle)
  own := fun b hb => by
    obtain hb | ⟨p, hp⟩ := hb
    · have hb := hk.sub b hb
      exact (hk.other b (h.wellFormed.old b hb)).trans (h.own b (.inl hb))
    · obtain hpc | ⟨_, hother⟩ := hadd p b hp
      · have hlt := (h.wellFormed.adding p b hpc).2
        exact (hk.other b hlt).trans (h.own b (.inr ⟨p, hpc⟩))
      · exact hother
  posting := hpost
  swaps := hswap

theorem accounted_idle (h : Accounted w pc pending late) (hk : Keeps w v) (hwf : WellFormed v pc')
    (hpc : pc' = .idle ∨ pc' = .dequeueRead) : Accounted v pc' pending late := by
  obtain rfl | rfl := hpc <;> exact accounted_keeps h hk hwf nofun nofun nofun

theorem accounted_stays (h : Accounted w pc pending late) (hk : Keeps w v) (hwf : WellFormed v pc)
    (hmark : ∀ b, mark (v.bufs b) = mark (w.bufs b)) : Accounted v pc pending late := by
  refine accounted_keeps h hk hwf (fun _ _ h => .inl h) (fun b hb => ?_) (fun b hb => ?_)
  · have hother : (v.bufs b).other = (w.bufs b).other := congrArg Prod.snd (hmark b)
    rw [hother]
    exact h.posting b hb
  · exact (h.swaps b hb).trans_le hk.next

theorem bufs_modify_of_ne (w : Window) {b c : Nat} (f : Buf → Buf) (h : c ≠ b) :
    (w.modify b f).bufs c = w.bufs c := (modify_bufs w b c f).trans (if_neg h)

theorem accounted_attach (h : Accounted w pc pending late) (hpc : pc.swaps = some b) :
    Accounted (w.attach b) .idle (pending ++ [b])
      (if b ∈ w.bufList then late else b :: late) where
  wellFormed := h.wellFormed.mono rfl (Nat.le_refl _) nofun
  count := fun c => by
    have hle := h.count c
    have hfronted : (w.attach b).fronted = w.fronted ++ [b] := rfl
    have hposted : (w.attach b).posted = w.posted := rfl
    rw [hfronted, hposted, List.count_append, List.count_append]
    omega
  old := fun c hc => by
    obtain hc | hc := List.mem_append.mp hc
    · exact h.old c hc
    · exact List.mem_singleton.mp hc ▸ h.swaps b hpc
  fronted := fun c hc => by
    by_cases hcb : c = b
    · rw [hcb]
      split
      next hb => exact .inr (.inl hb)
      next => exact .inl List.mem_cons_self
    · have hc : c ∈ w.fronted := (List.mem_append.mp hc).resolve_right (by simpa using hcb)
      have hbuf : (w.attach b).bufs c = w.bufs c := bufs_modify_of_ne _ _ hcb
      rw [hbuf]
      refine (h.fronted c hc).imp_left fun hlate => ?_
      split
      next => exact hlate
      next => exact List.mem_cons_of_mem b hlate
  late := fun c hc => by
    have hc : c ∈ late ∨ c = b ∧ b ∉ w.bufList := by
      split at hc
      next => exact .inl hc
      next hb => exact (List.mem_cons.mp hc).symm.imp_right (fun hcb => ⟨hcb, hb⟩)
    obtain hc | ⟨rfl, hb⟩ := hc
    · exact ⟨(h.late c hc).1, (h.late c hc).2.1, nofun⟩
    · exact ⟨hb, h.swaps c hpc, nofun⟩
  own := fun c hc => by
    have hc : c ∈ w.bufList := hc.resolve_right nofun
    exact (other_modify _ b c rfl).trans (h.own c (.inl hc))
  posting := nofun
  swaps := nofun

theorem accounted_post (h : Accounted w pc pending late) (hpc : pc = .postRead b) :
    Accounted (w.post b) .idle (pending ++ [b]) late where
  wellFormed := h.wellFormed.mono rfl (Nat.le_refl _) nofun
  count := fun c => by
    have hle := h.count c
    have hfronted : (w.post b).fronted = w.fronted := rfl
    have hposted : (w.post b).posted = w.posted ++ [b] := rfl
    rw [hfronted, hposted, List.count_append, List.count_append]
    omega
  old := h.old
  fronted := fun c hc => by
    refine (h.fronted c hc).imp_right (fun hc => hc.imp_right fun ⟨hwl, hother⟩ => ?_)
    have hcb : c ≠ b := fun hcb => h.posting b hpc (hcb ▸ hother)
    have hbuf : (w.post b).bufs c = w.bufs c := bufs_modify_of_ne _ _ hcb
    rw [hbuf]
    exact ⟨hwl, hother⟩
  late := fun c hc => ⟨(h.late c hc).1, (h.late c hc).2.1, nofun⟩
  own := fun c hc => by
    have hc : c ∈ w.bufList := hc.resolve_right nofun
    exact (other_modify _ b c rfl).trans (h.own c (.inl hc))
  posting := nofun
  swaps := nofun

theorem accounted_listBuffer {p : Purpose} (h : Accounted w (.adding p b) pending late)
    (format : Nat) : Accounted (w.listBuffer b format) .idle pending late where
  wellFormed := wellFormed_listBuffer h.wellFormed format
  count := h.count
  old := h.old
  fronted := fun c hc => by
    have hmark : mark ((w.listBuffer b format).bufs c) = mark (w.bufs c) := mark_modify _ b c rfl
    have hwl : ((w.listBuffer b format).bufs c).wlbuffer = (w.bufs c).wlbuffer :=
      congrArg Prod.fst hmark
    have hother : ((w.listBuffer b format).bufs c).other = (w.bufs c).other :=
      congrArg Prod.snd hmark
    rw [hwl, hother]
    exact (h.fronted c hc).imp_right (fun hc => hc.imp_left (List.mem_append_left [b]))
  late := fun c hc => by
    obtain ⟨hlist, hlt, hadding⟩ := h.late c hc
    refine ⟨fun hmem => ?_, hlt, nofun⟩
    obtain hmem | hmem := List.mem_append.mp hmem
    · exact hlist hmem
    · rw [List.mem_singleton.mp hmem] at hadding
      exact hadding p rfl
  own := fun c hc => by
    refine (other_modify _ b c rfl).trans (h.own c ?_)
    obtain hc | hc := List.mem_append.mp (hc.resolve_right nofun)
    · exact .inl hc
    · exact .inr ⟨p, by rw [List.mem_singleton.mp hc]⟩
  posting := nofun
  swaps := nofun

theorem accounted_release (h : Accounted w pc pending late)
    (hfronted : ∀ c ∈ v.fronted, c ∈ w.fronted)
    (hcount : v.posted.count b + v.fronted.count b + 1 = w.posted.count b + w.fronted.count b)
    (hkeep : ∀ c, c ≠ b →
      v.posted.count c + v.fronted.count c = w.posted.count c + w.fronted.count c)
    (hlist : v.bufList = w.bufList) (hnext : v.next = w.next)
    (hmark : ∀ c, mark (v.bufs c) = mark (w.bufs c)) : Accounted v pc (pending.erase b) late where
  wellFormed := h.wellFormed.mono hlist (Nat.le_of_eq hnext.symm) (fun _ _ h => h)
  count := fun c => by
    have hle := h.count c
    by_cases hcb : c = b
    · rw [hcb] at hle ⊢
      rw [List.count_erase_self]
      omega
    · rw [List.count_erase_of_ne hcb, hkeep c hcb]
      exact hle
  old := fun c hc => hnext ▸ h.old c (hfronted c hc)
  fronted := fun c hc => by
    have hwl : (v.bufs c).wlbuffer = (w.bufs c).wlbuffer := congrArg Prod.fst (hmark c)
    have hother : (v.bufs c).other = (w.bufs c).other := congrArg Prod.snd (hmark c)
    rw [hwl, hother, hlist]
    exact h.fronted c (hfronted c hc)
  late := fun c hc => hlist ▸ hnext ▸ h.late c hc
  own := fun c hc => (congrArg Prod.snd (hmark c)).trans (h.own c (hlist ▸ hc))
  posting := fun c hc => by
    have hother : (v.bufs c).other = (w.bufs c).other := congrArg Prod.snd (hmark c)
    rw [hother]
    exact h.posting c hc
  swaps := fun c hc => hnext ▸ h.swaps c hc

theorem count_erase_add_one {l : List Nat} (hb : b ∈ l) : (l.erase b).count b + 1 = l.count b := by
  have hpos := List.count_pos_iff.mpr hb
  rw [List.count_erase_self]
  omega

theorem accounted_releasePosted (h : Accounted w pc pending late) (hb : b ∈ w.posted) :
    Accounted (w.releasePosted b) pc (pending.erase b) late := by
  have hposted : (w.releasePosted b).posted = w.posted.erase b := rfl
  have hfronted : (w.releasePosted b).fronted = w.fronted := rfl
  refine accounted_release h (fun c hc => hc) ?_ (fun c hcb => ?_) rfl rfl
    (mark_releasePosted w b)
  · have hcount := count_erase_add_one hb
    rw [hposted, hfronted]
    omega
  · rw [hposted, hfronted, List.count_erase_of_ne hcb]

theorem accounted_releaseFronted (h : Accounted w pc pending late) (hb : b ∈ w.fronted) :
    Accounted (w.releaseFronted b) pc (pending.erase b) late := by
  have hposted : (w.releaseFronted b).posted = w.posted := rfl
  have hfronted : (w.releaseFronted b).fronted = w.fronted.erase b := rfl
  refine accounted_release h (fun c hc => List.mem_of_mem_erase hc) ?_ (fun c hcb => ?_) rfl rfl
    (mark_releaseFronted w b)
  · have hcount := count_erase_add_one hb
    rw [hposted, hfronted]
    omega
  · rw [hposted, hfronted, List.count_erase_of_ne hcb]

theorem keeps_refl (w : Window) : Keeps w w :=
  keeps_of_mark rfl rfl rfl (Nat.le_refl _) fun _ _ => rfl

section Move

variable {c : Composed} {a : Action} {o : Outcome}

theorem attached_of_read {s : State} {error : Bool} (hout : ∀ b, o.out ≠ .attached b)
    (hpc : posts s.pc = none) : attached s (.readReturns error) o = none := by
  cases ho : o.out with
  | attached b => exact absurd ho (hout b)
  | _ => cases error <;> simp [attached, ho, hpc]

theorem owed_of_read {error : Bool} (hout : ∀ b, o.out ≠ .attached b)
    (hpc : posts c.state.pc = none) : c.owed (.readReturns error) o = c.pending := by
  simp only [Composed.owed, attached_of_read hout hpc]

theorem other_newBuffer (w : Window) : (w.newBuffer.bufs w.next).other = none := by
  simp [Window.newBuffer]

theorem other_wrap (w : Window) (other : Nat) :
    ((w.wrap other).bufs w.next).other = some other := by
  simp [Window.wrap]

theorem accounted_move (h : Accounted c.state.win c.state.pc c.pending c.late)
    (hmove : Move c.state a o) : Accounted o.win o.pc (c.owed a o) (c.after a o).late := by
  have hwf := wellFormed_move h.wellFormed hmove
  have hnodup := h.wellFormed.nodup
  cases hmove with
  | dequeueBuffer hr => exact accounted_idle h (keeps_refl _) hwf (.inr rfl)
  | queueBuffer b hr => exact accounted_idle h (keeps_refl _) hwf (.inl rfl)
  | cancelBuffer b hr hb =>
    refine accounted_idle h (keeps_of_mark rfl rfl rfl (Nat.le_refl _) fun d _ => ?_) hwf (.inl rfl)
    exact mark_cancel c.state.win b d
  | finishSwap stale b hr hb hlt =>
    have hk : Keeps c.state.win (c.state.win.takeFront b) :=
      keeps_of_mark rfl rfl rfl (Nat.le_refl _) fun d _ => mark_takeFront _ b d
    refine accounted_keeps h hk hwf nofun nofun fun d hd => ?_
    obtain rfl := Option.some.inj hd
    exact hlt
  | countIs cnt hr hcnt => exact accounted_idle h (keeps_refl _) hwf (.inl rfl)
  | countStays cnt hr hcnt => exact accounted_idle h (keeps_refl _) hwf (.inl rfl)
  | shrink cnt hr hcnt => exact accounted_idle h (keeps_shrink hnodup _) hwf (.inl rfl)
  | grow cnt n hr hcnt =>
    refine accounted_keeps h (keeps_newBuffer _) hwf (fun p b hb => .inr ?_) nofun nofun
    obtain ⟨_, rfl⟩ := Pc.adding.inj hb
    exact ⟨Nat.le_refl _, other_newBuffer _⟩
  | setSwapInterval interval hr =>
    refine accounted_idle h ?_ hwf (.inl rfl)
    exact keeps_of_mark rfl rfl rfl (Nat.le_refl _) fun _ _ => rfl
  | prepareSwap hr => exact accounted_idle h (keeps_refl _) hwf (.inl rfl)
  | postRegistered other b hr hb =>
    refine accounted_keeps h (keeps_setBusy _ b true) hwf nofun (fun d hd => ?_) nofun
    obtain rfl := Pc.postRead.inj hd
    rw [other_setBusy, other_of_registered hb]
    exact Option.some_ne_none other
  | postNew other hr hb =>
    have hk : Keeps c.state.win _ :=
      (keeps_wrap c.state.win other).trans (keeps_setBusy _ c.state.win.next true)
        h.wellFormed.old
    refine accounted_keeps h hk hwf nofun (fun d hd => ?_) nofun
    obtain rfl := Pc.postRead.inj hd
    rw [other_setBusy, other_wrap]
    exact Option.some_ne_none other
  | releasePosted b hd hw hb => exact accounted_releasePosted h hb
  | releaseFronted b hd hw hb hf hl => exact accounted_releaseFronted h hf
  | frame hd =>
    refine accounted_stays h ?_ hwf fun _ => rfl
    exact keeps_of_mark rfl rfl rfl (Nat.le_refl _) fun _ _ => rfl
  | dequeueBlocks error hpc hf =>
    rw [owed_of_read (fun _ h => by cases h) (hpc ▸ rfl)]
    exact accounted_idle h (keeps_refl _) hwf (.inr rfl)
  | dequeueNone error hpc hf hp =>
    rw [owed_of_read (fun _ h => by cases h) (hpc ▸ rfl)]
    exact accounted_idle h (keeps_refl _) hwf (.inl rfl)
  | dequeuePick error b hpc hf hp hfits =>
    rw [owed_of_read (fun _ h => by cases h) (hpc ▸ rfl)]
    exact accounted_idle h (keeps_handOut _ b) hwf (.inl rfl)
  | dequeueReplace error b hpc hf hp hfits =>
    rw [owed_of_read (fun _ h => by cases h) (hpc ▸ rfl)]
    have hk := (keeps_remove hnodup b).trans (keeps_newBuffer _) h.wellFormed.old
    refine accounted_keeps h hk hwf (fun p d hd => .inr ?_) nofun nofun
    obtain ⟨_, rfl⟩ := Pc.adding.inj hd
    exact ⟨Nat.le_refl _, other_newBuffer _⟩
  | swapWaits error b hpc he =>
    rw [owed_of_read (fun _ h => by cases h) (posts_of_swaps hpc)]
    refine accounted_keeps h (keeps_refl _) hwf nofun nofun fun d hd => ?_
    obtain rfl := Option.some.inj hd
    exact h.swaps _ hpc
  | swapFails b hpc he =>
    exact accounted_idle h (keeps_refl _) hwf (.inl rfl)
  | swapAttaches b hpc he => exact accounted_attach h hpc
  | postFails b hpc => exact accounted_idle h (keeps_refl _) hwf (.inl rfl)
  | posts b hpc =>
    have howed : c.owed (.readReturns false)
        ⟨c.state.win.post b, .idle, [.access, .unlock, .ret], .nothing⟩ = c.pending ++ [b] := by
      simp only [Composed.owed, attached, hpc, posts]
    rw [howed]
    exact accounted_post h hpc
  | addedForDequeue format b hpc =>
    rw [hpc] at h
    exact accounted_idle (accounted_listBuffer h format) (keeps_handOut _ b) hwf (.inl rfl)
  | addedLast format b hpc =>
    rw [hpc] at h
    exact accounted_listBuffer h format
  | addedMore format b n hpc =>
    rw [hpc] at h
    have hlisted := accounted_listBuffer h format
    refine accounted_keeps hlisted (keeps_newBuffer _) hwf (fun p d hd => .inr ?_) nofun nofun
    obtain ⟨_, rfl⟩ := Pc.adding.inj hd
    exact ⟨Nat.le_refl _, other_newBuffer _⟩
  | setter a hu width height format usage windowWidth windowHeight =>
    have hk : Keeps c.state.win
        { c.state.win with
          width := width, height := height, format := format, usage := usage
          windowWidth := windowWidth, windowHeight := windowHeight } :=
      keeps_of_mark rfl rfl rfl (Nat.le_refl _) fun _ _ => rfl
    have hstays := accounted_stays h hk hwf fun _ => rfl
    cases a <;> first | exact hstays | cases hu

end Move

structure Inv (c : Composed) : Prop where
  accounted : Accounted c.state.win c.state.pc c.pending c.late
  sent : ∀ b ∈ c.pending, (c.state.win.bufs b).wlbuffer = true

theorem inv_step {c d : Composed} {a : Action} (hi : Inv c) (h : c.step a = some d) : Inv d := by
  rw [Composed.step, Option.ite_none_right_eq_some, Option.map_eq_some_iff] at h
  obtain ⟨_, o, ho, rfl⟩ := h
  have haccounted := accounted_move hi.accounted (move_of_next ho)
  refine ⟨{ haccounted with count := fun b => ?_ }, fun b hb => (List.mem_filter.mp hb).2⟩
  exact (List.filter_sublist.count_le b).trans (haccounted.count b)

theorem inv_start (width height : Nat) : Inv (Composed.start width height) where
  accounted :=
    { wellFormed := wellFormed_start width height
      count := fun _ => Nat.zero_le _
      old := nofun
      fronted := nofun
      late := nofun
      own := fun _ hb => hb.elim nofun nofun
      posting := nofun
      swaps := nofun }
  sent := nofun

theorem pending_of_sends {c : Composed} (h : c.sends (.release b) = true) : b ∈ c.pending := by
  simp only [Composed.sends, Bool.and_eq_true, decide_eq_true_eq] at h
  exact h.2

theorem Inv.posted_or_fronted {c : Composed} (hi : Inv c) (hb : b ∈ c.pending) :
    b ∈ c.state.win.posted ∨ b ∈ c.state.win.fronted := by
  by_contra h
  push Not at h
  have hcount := hi.accounted.count b
  rw [List.count_eq_zero_of_not_mem h.1, List.count_eq_zero_of_not_mem h.2] at hcount
  exact absurd (List.count_pos_iff.mpr hb) (Nat.not_lt.mpr hcount)

/-- A pending release is found precisely if it is in time. -/
theorem found_iff_of_inv {c : Composed} (hi : Inv c) (a : Action) : Found c a ↔ InTime c a := by
  cases a with
  | release b =>
    refine forall_congr' fun hsends => ?_
    have hb := pending_of_sends hsends
    constructor
    · rintro (hposted | ⟨_, hlist⟩)
      · exact .inl hposted
      · exact .inr fun hlate => (hi.accounted.late b hlate).1 hlist
    · intro htime
      obtain hposted | hfronted := hi.posted_or_fronted hb
      · exact .inl hposted
      · obtain hposted | hlate := htime
        · exact .inl hposted
        · obtain h | h | ⟨hwl, _⟩ := hi.accounted.fronted b hfronted
          · exact absurd h hlate
          · exact .inr ⟨hfronted, h⟩
          · exact absurd ((hi.sent b hb).symm.trans hwl) (by decide)
  | _ => exact Iff.rfl

/-- The assertions of `releaseBuffer` hold in a run precisely when every release
is for a buffer that was posted, or attached only while it was in the list. -/
theorem found_iff_inTime (width height : Nat) (as : List Action) :
    Guarded Composed.step Found (Composed.start width height) as ↔
      Guarded Composed.step InTime (Composed.start width height) as :=
  guarded_congr (always_of_step (fun _ _ _ hi h => inv_step hi h) (inv_start width height) as)
    (fun _ a hi => found_iff_of_inv hi a)

/-- The count is lowered while the client draws into a buffer, which is then
shown and released. -/
theorem not_found_setBufferCount :
    ¬ ∀ as, Guarded Composed.step Found (Composed.start 4 4) as := by
  intro h
  have hfound := h [.setBufferCount 3, .roundtripDone 1, .roundtripDone 1, .roundtripDone 1,
    .dequeueBuffer, .readReturns false, .setBufferCount 2, .queueBuffer 0, .finishSwap none,
    .readReturns false, .dequeueBuffer, .release 0]
    [.setBufferCount 3, .roundtripDone 1, .roundtripDone 1, .roundtripDone 1,
    .dequeueBuffer, .readReturns false, .setBufferCount 2, .queueBuffer 0, .finishSwap none,
    .readReturns false, .dequeueBuffer] (.release 0) _ List.prefix_rfl rfl (by decide)
  exact absurd hfound (by decide)

end FakeLibc.WaylandRelease

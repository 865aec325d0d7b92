import FakeLibc.WaylandClient

namespace FakeLibc.WaylandSelection

open FakeLibc.Lib.Run FakeLibc.WaylandWindow FakeLibc.WaylandClient

def IsFirst {α : Type*} (p : α → Prop) (l : List α) (a : α) : Prop :=
  p a ∧ ∃ before after, l = before ++ a :: after ∧ ∀ b ∈ before, ¬ p b

def Free (w : Window) (b : Nat) : Prop := (w.bufs b).busy = false

def Youngest (w : Window) (b : Nat) : Prop := (w.bufs b).youngest = true

def FreeOld (w : Window) (b : Nat) : Prop := Free w b ∧ ¬ Youngest w b

/-- Of two listed buffers at most one is the youngest. -/
def OneYoungest (w : Window) : Prop :=
  ∀ b ∈ w.bufList, ∀ c ∈ w.bufList, Youngest w b → Youngest w c → b = c

structure Selects (w : Window) : Prop where
  oneYoungest : OneYoungest w
  free : ∀ b, w.pick = some b → b ∈ w.bufList ∧ Free w b
  first : ∀ b, IsFirst (FreeOld w) w.bufList b → w.pick = some b
  otherwise : ∀ b ∈ w.bufList, Free w b → (∀ c ∈ w.bufList, ¬ FreeOld w c) →
    Youngest w b ∧ w.pick = some b
  none : w.pick = none ↔ ∀ b ∈ w.bufList, ¬ Free w b

section Search

variable {w : Window} {b : Nat}

theorem isFirst_iff {α : Type*} {p : α → Bool} {l : List α} {a : α} :
    l.find? p = some a ↔ IsFirst (fun b => p b = true) l a := by
  simp only [List.find?_eq_some_iff_append, IsFirst, Bool.not_eq_true', Bool.not_eq_true]

theorem freeOld_iff :
    (!(w.bufs b).busy && !(w.bufs b).youngest) = true ↔ FreeOld w b := by
  simp only [FreeOld, Free, Youngest, Bool.and_eq_true, Bool.not_eq_true', Bool.not_eq_true]

theorem pick_of_first (h : IsFirst (FreeOld w) w.bufList b) : w.pick = some b := by
  have hfind : w.bufList.find? (fun c => !(w.bufs c).busy && !(w.bufs c).youngest) = some b := by
    rw [isFirst_iff]
    simpa only [freeOld_iff] using h
  rw [Window.pick, hfind, Option.some_or]

theorem youngest_of_no_freeOld (h : ∀ c ∈ w.bufList, ¬ FreeOld w c) (hb : b ∈ w.bufList)
    (hfree : Free w b) : Youngest w b := by
  by_contra hold
  exact h b hb ⟨hfree, hold⟩

theorem pick_eq_none_iff : w.pick = none ↔ ∀ b ∈ w.bufList, ¬ Free w b := by
  rw [Window.pick, Option.or_eq_none_iff, List.find?_eq_none, List.find?_eq_none]
  constructor
  · rintro ⟨_, h⟩ b hb hfree
    exact h b hb (by rw [hfree]; rfl)
  · intro h
    refine ⟨fun b hb hold => h b hb (freeOld_iff.mp hold).1, fun b hb hfree => h b hb ?_⟩
    exact (Bool.not_eq_true' _).mp hfree

theorem pick_otherwise (hone : OneYoungest w) (hb : b ∈ w.bufList) (hfree : Free w b)
    (h : ∀ c ∈ w.bufList, ¬ FreeOld w c) : w.pick = some b := by
  cases hp : w.pick with
  | none => exact absurd hfree (pick_eq_none_iff.mp hp b hb)
  | some c =>
    have hc := mem_of_pick hp
    have hyc := youngest_of_no_freeOld h hc (not_busy_of_pick hp)
    have hyb := youngest_of_no_freeOld h hb hfree
    rw [hone c hc b hb hyc hyb]

theorem selects_of_oneYoungest (h : OneYoungest w) : Selects w where
  oneYoungest := h
  free _ hp := ⟨mem_of_pick hp, not_busy_of_pick hp⟩
  first _ hb := pick_of_first hb
  otherwise _ hb hfree hold :=
    ⟨youngest_of_no_freeOld hold hb hfree, pick_otherwise h hb hfree hold⟩
  none := pick_eq_none_iff

end Search

section Youngest

variable (w : Window) (b c : Nat)

theorem youngest_modify (f : Buf → Buf) (hf : (f (w.bufs b)).youngest = (w.bufs b).youngest) :
    ((w.modify b f).bufs c).youngest = (w.bufs c).youngest := by
  rw [modify_bufs]
  split
  next hc => rw [hf, hc]
  next => rfl

theorem youngest_setYoungest :
    ((w.setYoungest b).bufs c).youngest = true ↔
      c = b ∨ c ∉ w.bufList ∧ (w.bufs c).youngest = true := by
  simp only [Window.setYoungest]
  by_cases hc : c = b
  · simp [hc]
  · by_cases hl : c ∈ w.bufList <;> simp [hc, hl]

@[simp] theorem youngest_setBusy (busy : Bool) :
    ((w.setBusy b busy).bufs c).youngest = (w.bufs c).youngest := youngest_modify w b c _ rfl

@[simp] theorem youngest_releasePosted :
    ((w.releasePosted b).bufs c).youngest = (w.bufs c).youngest := youngest_setBusy _ b c false

@[simp] theorem youngest_handOut :
    ((w.handOut b).bufs c).youngest = (w.bufs c).youngest := youngest_setBusy _ b c true

@[simp] theorem youngest_takeFront :
    ((w.takeFront b).bufs c).youngest = (w.bufs c).youngest := youngest_setBusy _ b c true

@[simp] theorem youngest_attach :
    ((w.attach b).bufs c).youngest = (w.bufs c).youngest := youngest_modify _ b c _ rfl

@[simp] theorem youngest_post :
    ((w.post b).bufs c).youngest = (w.bufs c).youngest := youngest_modify _ b c _ rfl

@[simp] theorem youngest_listBuffer (format : Nat) :
    ((w.listBuffer b format).bufs c).youngest = (w.bufs c).youngest := youngest_modify _ b c _ rfl

@[simp] theorem youngest_destroyBuffer :
    ((w.destroyBuffer b).bufs c).youngest = (w.bufs c).youngest := youngest_modify _ b c _ rfl

@[simp] theorem youngest_remove :
    ((w.remove b).bufs c).youngest = (w.bufs c).youngest := youngest_destroyBuffer w b c

@[simp] theorem youngest_shrink (cnt : Nat) :
    ((w.shrink cnt).bufs c).youngest = (w.bufs c).youngest :=
  destroyBuffers_keep (fun v => (v.bufs c).youngest) (fun v d => youngest_destroyBuffer v d c) _ w

@[simp] theorem youngest_newBuffer :
    (w.newBuffer.bufs c).youngest = if c = w.next then false else (w.bufs c).youngest := by
  have h : w.newBuffer.bufs c = if c = w.next then _ else w.bufs c :=
    Function.update_apply _ _ _ _
  rw [h]
  split <;> rfl

@[simp] theorem youngest_wrap (other : Nat) :
    ((w.wrap other).bufs c).youngest = if c = w.next then false else (w.bufs c).youngest := by
  have h : (w.wrap other).bufs c = if c = w.next then _ else w.bufs c :=
    Function.update_apply _ _ _ _
  rw [h]
  split <;> rfl

end Youngest

structure Inv (s : State) : Prop where
  wellFormed : WellFormed s.win s.pc
  oneYoungest : OneYoungest s.win
  adding : ∀ p b, s.pc = .adding p b → ¬ Youngest s.win b

variable {w v : Window} {b : Nat}

theorem OneYoungest.mono (h : OneYoungest w) (hlist : ∀ b ∈ v.bufList, b ∈ w.bufList)
    (hold : ∀ b ∈ v.bufList, Youngest v b → Youngest w b) : OneYoungest v :=
  fun b hb c hc hyb hyc =>
    h b (hlist b hb) c (hlist c hc) (hold b hb hyb) (hold c hc hyc)

theorem OneYoungest.congr (h : OneYoungest w) (hlist : v.bufList = w.bufList)
    (hflag : ∀ b, (v.bufs b).youngest = true → (w.bufs b).youngest = true) : OneYoungest v :=
  h.mono (fun _ hb => hlist ▸ hb) (fun b _ => hflag b)

theorem oneYoungest_setYoungest (w : Window) (b : Nat) : OneYoungest (w.setYoungest b) := by
  have hb : ∀ c ∈ w.bufList, Youngest (w.setYoungest b) c → c = b := fun c hc hy =>
    ((youngest_setYoungest w b c).mp hy).resolve_right (fun hn => hn.1 hc)
  intro c hc d hd hyc hyd
  rw [hb c hc hyc, hb d hd hyd]

theorem oneYoungest_newBuffer (h : OneYoungest w) : OneYoungest w.newBuffer :=
  h.congr rfl (fun b hy => by rw [youngest_newBuffer] at hy; split at hy <;> simp_all)

theorem oneYoungest_listBuffer (h : OneYoungest w) (hb : ¬ Youngest w b) (format : Nat) :
    OneYoungest (w.listBuffer b format) := by
  have hlist : ∀ c ∈ (w.listBuffer b format).bufList, Youngest (w.listBuffer b format) c →
      c ∈ w.bufList ∧ Youngest w c := by
    intro c hc hy
    rw [Youngest, youngest_listBuffer] at hy
    obtain hc | hc := List.mem_append.mp hc
    · exact ⟨hc, hy⟩
    · exact absurd (List.mem_singleton.mp hc ▸ hy) hb
  intro c hc d hd hyc hyd
  obtain ⟨hcl, hyc⟩ := hlist c hc hyc
  obtain ⟨hdl, hyd⟩ := hlist d hd hyd
  exact h c hcl d hdl hyc hyd

theorem oneYoungest_move {s : State} {a : Action} {o : Outcome} (hi : Inv s) (h : Move s a o) :
    OneYoungest o.win := by
  have hone := hi.oneYoungest
  cases h with
  | cancelBuffer b hr hb => exact oneYoungest_setYoungest _ b
  | releaseFronted b hd hw hb hf hl => exact oneYoungest_setYoungest _ b
  | finishSwap stale b hr hb hlt => exact hone.congr rfl (by simp)
  | postRegistered other b hr hb => exact hone.congr rfl (by simp)
  | releasePosted b hd hw hb => exact hone.congr rfl (by simp)
  | dequeuePick error b hpc hf hp hfits => exact hone.congr rfl (by simp)
  | swapAttaches b hpc he => exact hone.congr rfl (by simp)
  | posts b hpc => exact hone.congr rfl (by simp)
  | shrink cnt hr hcnt =>
    exact hone.mono (fun b hb => List.mem_of_mem_drop hb)
      (fun b _ hy => (youngest_shrink s.win b _).symm.trans hy)
  | grow cnt n hr hcnt => exact oneYoungest_newBuffer hone
  | dequeueReplace error b hpc hf hp hfits =>
    refine oneYoungest_newBuffer (hone.mono (fun c hc => List.mem_of_mem_erase hc) ?_)
    exact fun c _ hy => (youngest_remove s.win b c).symm.trans hy
  | postNew other hr hb => exact hone.congr rfl (by simp)
  | addedForDequeue format b hpc =>
    exact (oneYoungest_listBuffer hone (hi.adding _ b hpc) format).congr rfl (by simp)
  | addedLast format b hpc => exact oneYoungest_listBuffer hone (hi.adding _ b hpc) format
  | addedMore format b n hpc =>
    exact oneYoungest_newBuffer (oneYoungest_listBuffer hone (hi.adding _ b hpc) format)
  | _ => exact hone

theorem adding_move {s : State} {a : Action} {o : Outcome} (hi : Inv s) (h : Move s a o)
    (p : Purpose) (b : Nat) (hpc : o.pc = .adding p b) : ¬ Youngest o.win b := by
  cases h with
  | releasePosted c hd hw hc =>
    rw [Youngest, youngest_releasePosted]
    exact hi.adding p b hpc
  | releaseFronted c hd hw hc hf hl =>
    intro hy
    obtain rfl | ⟨_, hy⟩ := (youngest_setYoungest _ c b).mp hy
    · exact (hi.wellFormed.adding p b hpc).1 hl
    · exact hi.adding p b hpc ((youngest_setBusy _ c b false).symm.trans hy)
  | frame hd => exact hi.adding p b hpc
  | setter a ha width height format usage windowWidth windowHeight => exact hi.adding p b hpc
  | grow cnt n hr hcnt =>
    obtain ⟨_, rfl⟩ := Pc.adding.inj hpc
    simp [Youngest]
  | dequeueReplace error c hc hf hp hfits =>
    obtain ⟨_, rfl⟩ := Pc.adding.inj hpc
    simp [Youngest, Window.remove, Window.destroyBuffer, Window.modify]
  | addedMore format c n hc =>
    obtain ⟨_, rfl⟩ := Pc.adding.inj hpc
    simp [Youngest, Window.listBuffer, Window.modify]
  | _ => cases hpc

theorem inv_step {s t : State} {a : Action} (hi : Inv s) (h : step s a = some t) : Inv t := by
  obtain ⟨o, hmove, rfl⟩ := step_cases h
  exact ⟨wellFormed_move hi.wellFormed hmove, oneYoungest_move hi hmove, adding_move hi hmove⟩

theorem inv_start (width height : Nat) : Inv (start width height) where
  wellFormed := wellFormed_start width height
  oneYoungest := fun _ hb => absurd hb List.not_mem_nil
  adding := fun _ _ h => by cases h

/-- Whatever the callers and the compositor do, the search finds the first free
buffer that is not the youngest, or else the youngest. -/
theorem always_selects (width height : Nat) (as : List Action) :
    Always step (fun s => Selects s.win) (start width height) as :=
  (always_of_step (fun _ _ _ => inv_step) (inv_start width height) as).mono
    (fun _ hi => selects_of_oneYoungest hi.oneYoungest)

end FakeLibc.WaylandSelection

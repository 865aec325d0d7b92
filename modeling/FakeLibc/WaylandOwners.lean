import FakeLibc.Lib.Custody
import FakeLibc.WaylandClient

namespace FakeLibc.WaylandOwners

open FakeLibc.Lib.Run FakeLibc.Lib.Custody FakeLibc.WaylandWindow FakeLibc.WaylandClient

/-- The client returns what it holds, and the compositor releases what it was given. -/
def releases (c : Client) : Action → Bool
  | .release b => decide (b ∈ c.given)
  | a => c.returns a

def Single (c : Client) : Prop := c.clashes = []

/-- A `finishSwap` that shows its buffer was not called while the client held
it, and a buffer that was given when it counted as free is not handed out before
it is released. -/
def Kept (c : Client) : Action → Prop
  | .readReturns error =>
    (c.state.swapEnds error = true → error = false → c.premature = false) ∧
      (c.state.pc = .dequeueRead → c.state.win.freeBufs ≠ 0 →
        ∀ b, c.state.win.pick = some b → c.state.win.Fits b → b ∉ c.early)
  | _ => True

structure Inv (c : Client) : Prop where
  sound : Sound c.state
  single : Single c
  owned : Owned (fun b => (c.state.win.bufs b).busy) c.held c.given c.early
  old : ∀ b, b ∈ c.held ∨ b ∈ c.given → b < c.state.win.next
  adding : ∀ p b, c.state.pc = .adding p b → b ∉ c.held ∧ b ∉ c.given
  swaps : ∀ b, c.state.pc.swaps = some b → b < c.state.win.next ∧ (c.premature = true ↔ b ∈ c.held)

theorem fresh_of_pick {c : Client} {b : Nat} (hi : Inv c) (hp : c.state.win.pick = some b)
    (he : b ∉ c.early) : b ∉ c.held ∧ b ∉ c.given :=
  ⟨hi.owned.not_held (not_busy_of_pick hp), hi.owned.not_given (not_busy_of_pick hp) he⟩

theorem not_held_of_swaps {c : Client} {b : Nat} (hi : Inv c) (hk : Kept c (.readReturns false))
    (hpc : c.state.pc.swaps = some b) (he : c.state.swapEnds false = true) : b ∉ c.held := by
  intro hb
  have hpremature := (hi.swaps b hpc).2.mpr hb
  rw [hk.1 he rfl] at hpremature
  cases hpremature

theorem returns_of_releases {c : Client} {a : Action} (h : releases c a = true) :
    c.returns a = true := by
  cases a with
  | release b => rfl
  | _ => exact h

theorem not_post_of_releases {c : Client} {a : Action} (h : releases c a = true) :
    ∀ other, a ≠ .postBuffer other :=
  not_post_of_returns (returns_of_releases h)

theorem owned_win {c : Client} (hi : Inv c) (w : Window)
    (hbusy : ∀ b < c.state.win.next, (w.bufs b).busy = (c.state.win.bufs b).busy) :
    Owned (fun b => (w.bufs b).busy) c.held c.given c.early :=
  owned_congr hi.owned (fun b hb => hbusy b (hi.old b hb))

theorem owned_move {c : Client} {a : Action} {o : Outcome} (hi : Inv c) (ha : releases c a = true)
    (hk : Kept c a) (h : Move c.state a o) :
    Owned (fun b => ((c.after a o).state.win.bufs b).busy) (c.after a o).held (c.after a o).given
      (c.after a o).early := by
  cases h with
  | queueBuffer b hr => exact owned_return hi.owned b
  | cancelBuffer b hr hb =>
    exact owned_cancel hi.owned (of_decide_eq_true ha) (busy_cancel c.state.win b)
  | finishSwap stale b hr hb hlt => exact owned_take hi.owned (busy_takeFront c.state.win b)
  | shrink cnt hr hcnt =>
    exact owned_win hi (c.state.win.shrink _) (fun b _ => busy_shrink c.state.win b cnt.toNat)
  | grow cnt n hr hcnt =>
    refine owned_win hi c.state.win.newBuffer (fun b hb => ?_)
    rw [busy_newBuffer, if_neg (Nat.ne_of_lt hb)]
  | postRegistered other b hr hb => exact absurd rfl (not_post_of_releases ha other)
  | postNew other hr hb => exact absurd rfl (not_post_of_releases ha other)
  | releasePosted b hd hw hb => simp [hi.sound.posted] at hb
  | releaseFronted b hd hw hb hf hl =>
    exact owned_release hi.owned (of_decide_eq_true ha) (busy_releaseFronted c.state.win b)
  | dequeuePick error b hpc hf hp hfits =>
    obtain ⟨hheld, hgiven⟩ := fresh_of_pick hi hp (hk.2 hpc hf b hp hfits)
    exact owned_handOut hi.owned hheld hgiven (busy_handOut c.state.win b)
  | dequeueReplace error b hpc hf hp hfits =>
    refine owned_win hi (c.state.win.remove b).newBuffer (fun d hd => ?_)
    have hne : d ≠ (c.state.win.remove b).next := Nat.ne_of_lt hd
    rw [busy_newBuffer, if_neg hne, busy_remove]
  | swapAttaches b hpc he =>
    exact owned_congr (owned_attach hi.owned (not_held_of_swaps hi hk hpc he))
      (fun d _ => busy_attach c.state.win b d)
  | posts b hpc => exact absurd hpc (hi.sound.posting b)
  | addedForDequeue format b hpc =>
    obtain ⟨hheld, hgiven⟩ := hi.adding _ b hpc
    have hbusy : ∀ d, (((c.state.win.listBuffer b format).handOut b).bufs d).busy =
        if d = b then true else (c.state.win.bufs d).busy := by
      intro d
      rw [busy_handOut, busy_listBuffer]
    exact owned_handOut hi.owned hheld hgiven hbusy
  | addedLast format b hpc =>
    exact owned_win hi (c.state.win.listBuffer b format)
      (fun d _ => busy_listBuffer c.state.win b d format)
  | addedMore format b n hpc =>
    refine owned_win hi (c.state.win.listBuffer b format).newBuffer (fun d hd => ?_)
    have hne : d ≠ (c.state.win.listBuffer b format).next := Nat.ne_of_lt hd
    rw [busy_newBuffer, if_neg hne, busy_listBuffer]
  | setter a hu width height format usage windowWidth windowHeight =>
    cases a <;> first | exact hi.owned | cases hu
  | _ => exact hi.owned

theorem single_move {c : Client} {a : Action} {o : Outcome} (hi : Inv c) (hk : Kept c a)
    (h : Move c.state a o) : Single (c.after a o) := by
  cases h with
  | dequeuePick error b hpc hf hp hfits =>
    obtain ⟨hheld, hgiven⟩ := fresh_of_pick hi hp (hk.2 hpc hf b hp hfits)
    exact (if_neg (fun h => h.elim hheld hgiven)).trans hi.single
  | swapAttaches b hpc he => exact (if_neg (not_held_of_swaps hi hk hpc he)).trans hi.single
  | addedForDequeue format b hpc =>
    obtain ⟨hheld, hgiven⟩ := hi.adding _ b hpc
    exact (if_neg (fun h => h.elim hheld hgiven)).trans hi.single
  | setter a hu width height format usage windowWidth windowHeight =>
    cases a <;> exact hi.single
  | _ => exact hi.single

theorem next_le_of_move {s : State} {a : Action} {o : Outcome} (h : Move s a o) :
    s.win.next ≤ o.win.next := by
  cases h with
  | shrink cnt hr hcnt => exact Nat.le_of_eq (shrink_next s.win _).symm
  | grow cnt n hr hcnt => exact Nat.le_succ _
  | postNew other hr hb => exact Nat.le_succ _
  | dequeueReplace error b hpc hf hp hfits => exact Nat.le_succ _
  | addedMore format b n hpc => exact Nat.le_succ _
  | _ => exact Nat.le_refl _

theorem adding_of_move {s : State} {a : Action} {o : Outcome} {p : Purpose} {b : Nat}
    (h : Move s a o) (hpc : o.pc = .adding p b) :
    o.out = .nothing ∧ (s.pc = .adding p b ∨ b = s.win.next) := by
  cases h with
  | grow cnt n hr hcnt => exact ⟨rfl, .inr (Pc.adding.inj hpc).2.symm⟩
  | releasePosted c hd hw hc => exact ⟨rfl, .inl hpc⟩
  | releaseFronted c hd hw hc hf hl => exact ⟨rfl, .inl hpc⟩
  | frame hd => exact ⟨rfl, .inl hpc⟩
  | dequeueReplace error c hdeq hf hp hfits => exact ⟨rfl, .inr (Pc.adding.inj hpc).2.symm⟩
  | addedMore format c n hadd => exact ⟨rfl, .inr (Pc.adding.inj hpc).2.symm⟩
  | setter a hu width height format usage windowWidth windowHeight => exact ⟨rfl, .inl hpc⟩
  | _ => cases hpc

theorem had_of_gives {c : Client} {a : Action} {b : Nat}
    (hb : b ∈ (c.gives a).held ∨ b ∈ (c.gives a).given) : b ∈ c.held ∨ b ∈ c.given := by
  cases a with
  | queueBuffer d => exact hb.imp_left List.mem_of_mem_erase
  | cancelBuffer d => exact hb.imp_left List.mem_of_mem_erase
  | release d => exact hb.imp_right (fun h => (List.mem_filter.mp h).1)
  | _ => exact hb

theorem had_of_has {c : Client} {a : Action} {o : Outcome} {b : Nat}
    (hb : b ∈ (c.after a o).held ∨ b ∈ (c.after a o).given) :
    (b ∈ c.held ∨ b ∈ c.given) ∨ o.out = .dequeued b ∨ o.out = .attached b := by
  cases hout : o.out with
  | nothing =>
    simp only [Client.after, hout, Client.gets] at hb
    exact .inl (had_of_gives hb)
  | dequeued d =>
    simp only [Client.after, hout, Client.gets, List.mem_append, List.mem_singleton] at hb
    obtain (hb | rfl) | hb := hb
    · exact .inl (had_of_gives (.inl hb))
    · exact .inr (.inl rfl)
    · exact .inl (had_of_gives (.inr hb))
  | attached d =>
    simp only [Client.after, hout, Client.gets, List.mem_append, List.mem_singleton] at hb
    obtain hb | hb | rfl := hb
    · exact .inl (had_of_gives (.inl hb))
    · exact .inl (had_of_gives (.inr hb))
    · exact .inr (.inr rfl)
  | unswapped =>
    simp only [Client.after, hout, Client.gets] at hb
    exact .inl (had_of_gives hb)

theorem out_lt {c : Client} {a : Action} {o : Outcome} {b : Nat} (hi : Inv c)
    (h : Move c.state a o) (hb : o.out = .dequeued b ∨ o.out = .attached b) :
    b < c.state.win.next := by
  have hw := hi.sound.wellFormed
  cases h with
  | dequeuePick error d hpc hf hp hfits =>
    obtain hb | hb := hb
    · exact Output.dequeued.inj hb ▸ hw.old d (mem_of_pick hp)
    · cases hb
  | swapAttaches d hpc he =>
    obtain hb | hb := hb
    · cases hb
    · exact Output.attached.inj hb ▸ (hi.swaps d hpc).1
  | addedForDequeue format d hpc =>
    obtain hb | hb := hb
    · exact Output.dequeued.inj hb ▸ (hw.adding _ d hpc).2
    · cases hb
  | _ => obtain hb | hb := hb <;> cases hb

theorem old_move {c : Client} {a : Action} {o : Outcome} (hi : Inv c) (h : Move c.state a o)
    (b : Nat) (hb : b ∈ (c.after a o).held ∨ b ∈ (c.after a o).given) : b < o.win.next := by
  apply Nat.lt_of_lt_of_le _ (next_le_of_move h)
  obtain hb | hb := had_of_has hb
  · exact hi.old b hb
  · exact out_lt hi h hb

theorem adding_move {c : Client} {a : Action} {o : Outcome} (hi : Inv c) (h : Move c.state a o)
    (p : Purpose) (b : Nat) (hpc : o.pc = .adding p b) :
    b ∉ (c.after a o).held ∧ b ∉ (c.after a o).given := by
  obtain ⟨hout, hadd⟩ := adding_of_move h hpc
  have hnot : ¬ (b ∈ c.held ∨ b ∈ c.given) := by
    intro hb
    obtain hadd | rfl := hadd
    · exact hb.elim (hi.adding p b hadd).1 (hi.adding p b hadd).2
    · exact Nat.lt_irrefl _ (hi.old _ hb)
  have hafter : ¬ (b ∈ (c.after a o).held ∨ b ∈ (c.after a o).given) := by
    intro hb
    obtain hb | hb | hb := had_of_has hb
    · exact hnot hb
    · rw [hout] at hb
      cases hb
    · rw [hout] at hb
      cases hb
  exact not_or.mp hafter

theorem swaps_move {c : Client} {a : Action} {o : Outcome} (hi : Inv c) (h : Move c.state a o)
    (b : Nat) (hpc : o.pc.swaps = some b) :
    b < o.win.next ∧ ((c.after a o).premature = true ↔ b ∈ (c.after a o).held) := by
  cases h with
  | finishSwap stale d hr hd hlt =>
    obtain rfl : d = b := Option.some.inj hpc
    refine ⟨hlt, ?_⟩
    have hpre : (c.after (.finishSwap stale)
        ⟨c.state.win.takeFront d, .swapRead d, [.lock, .access], .nothing⟩).premature =
          decide (d ∈ c.held) := by
      simp only [Client.after, Client.gives, Client.gets, hd, Option.any_some]
    rw [hpre, decide_eq_true_iff]
    exact Iff.rfl
  | releasePosted d hd hw hd' => exact hi.swaps b hpc
  | releaseFronted d hd hw hd' hf hl => exact hi.swaps b hpc
  | frame hd => exact hi.swaps b hpc
  | swapWaits error d hd he => exact hi.swaps b (hd.trans hpc)
  | setter a hu width height format usage windowWidth windowHeight =>
    cases a <;> first | exact hi.swaps b hpc | cases hu
  | _ => cases hpc

theorem inv_step {c d : Client} {a : Action} (hi : Inv c) (hk : Kept c a)
    (h : c.step releases a = some d) : Inv d := by
  obtain ⟨ha, o, hmove, rfl⟩ := Client.step_cases h
  exact {
    sound := sound_move hi.sound (not_post_of_releases ha) hmove
    single := single_move hi hk hmove
    owned := owned_move hi ha hk hmove
    old := old_move hi hmove
    adding := adding_move hi hmove
    swaps := swaps_move hi hmove }

theorem kept_of_not_swaps {c : Client} {error : Bool} (hpc : c.state.pc.swaps = none)
    (hpick : c.state.pc = .dequeueRead → c.state.win.freeBufs ≠ 0 →
      ∀ b, c.state.win.pick = some b → c.state.win.Fits b → b ∉ c.early) :
    Kept c (.readReturns error) := by
  refine ⟨fun he => ?_, hpick⟩
  rw [swapEnds_of_not_swaps hpc] at he
  cases he

theorem kept_of_swaps {c : Client} {error : Bool} {b : Nat} (hpc : c.state.pc.swaps = some b)
    (hpre : c.state.swapEnds error = true → error = false → c.premature = false) :
    Kept c (.readReturns error) := by
  refine ⟨hpre, fun hdeq => ?_⟩
  rw [hdeq] at hpc
  cases hpc

theorem not_single_of_not_kept {c d : Client} {a : Action} (hi : Inv c) (hk : ¬ Kept c a)
    (h : c.step releases a = some d) : ¬ Single d := by
  obtain ⟨_, o, hmove, rfl⟩ := Client.step_cases h
  intro hs
  apply hk
  cases hmove with
  | dequeueBlocks error hpc hf => exact kept_of_not_swaps (hpc ▸ rfl) (fun _ hne => absurd hf hne)
  | dequeueNone error hpc hf hp =>
    exact kept_of_not_swaps (hpc ▸ rfl) (fun _ _ b hb => by simp [hp] at hb)
  | dequeuePick error b hpc hf hp hfits =>
    refine kept_of_not_swaps (hpc ▸ rfl) (fun _ _ d hd _ he => ?_)
    obtain rfl : b = d := Option.some.inj (hp.symm.trans hd)
    have hclash := (if_pos (.inr (hi.owned.earlyGiven b he))).symm.trans hs
    exact absurd hclash (by simp)
  | dequeueReplace error b hpc hf hp hfits =>
    refine kept_of_not_swaps (hpc ▸ rfl) (fun _ _ d hd hfd => ?_)
    obtain rfl : b = d := Option.some.inj (hp.symm.trans hd)
    exact absurd hfd hfits
  | swapWaits error b hpc he =>
    exact kept_of_swaps hpc (fun h => absurd (he.symm.trans h) Bool.false_ne_true)
  | swapFails b hpc he => exact kept_of_swaps hpc (fun _ h => by cases h)
  | swapAttaches b hpc he =>
    refine kept_of_swaps hpc (fun _ _ => ?_)
    rw [← Bool.not_eq_true, (hi.swaps b hpc).2]
    intro hb
    have hclash := (if_pos hb).symm.trans hs
    exact absurd hclash (by simp)
  | postFails b hpc => exact kept_of_not_swaps (hpc ▸ rfl) (fun h => by simp [hpc] at h)
  | posts b hpc => exact kept_of_not_swaps (hpc ▸ rfl) (fun h => by simp [hpc] at h)
  | setter a hu width height format usage windowWidth windowHeight =>
    cases a <;> first | exact trivial | cases hu
  | _ => exact trivial

theorem inv_start (width height : Nat) : Inv (Client.start width height) where
  sound := sound_start width height
  single := rfl
  owned := owned_nil _
  old := fun b hb => by obtain hb | hb := hb <;> cases hb
  adding := fun p b hpc => by cases hpc
  swaps := fun b hpc => by cases hpc

/-- In every run of such a client and such a compositor no buffer gets a second
owner precisely when every step meets the condition. -/
theorem single_iff_kept {width height : Nat} {as : List Action}
    (hrun : (exec (Client.step releases) (Client.start width height) as).isSome) :
    Always (Client.step releases) Single (Client.start width height) as ↔
      Guarded (Client.step releases) Kept (Client.start width height) as :=
  always_iff_guarded (fun _ hi => hi.single) (fun _ _ _ => inv_step)
    (fun _ _ _ => not_single_of_not_kept) (inv_start width height) hrun

/-- A frame is shown, and its buffer handed out again once it was released. -/
theorem single_iff_kept_frame :
    Always (Client.step releases) Single (Client.start 4 4)
        [.setBufferCount 1, .roundtripDone 1, .dequeueBuffer, .readReturns false,
          .queueBuffer 0, .finishSwap none, .readReturns false, .dequeueBuffer,
          .readReturns false, .release 0, .readReturns false] ↔
      Guarded (Client.step releases) Kept (Client.start 4 4)
        [.setBufferCount 1, .roundtripDone 1, .dequeueBuffer, .readReturns false,
          .queueBuffer 0, .finishSwap none, .readReturns false, .dequeueBuffer,
          .readReturns false, .release 0, .readReturns false] :=
  single_iff_kept (by decide)

/-- The client cancels the first of three buffers and gets it again, so that it
stands in the deque twice; then it queues the second one, and the first one is
shown while the client holds it. -/
theorem not_single_cancelBuffer :
    ¬ ∀ as, (exec (Client.step releases) (Client.start 4 4) as).isSome →
      Always (Client.step releases) Single (Client.start 4 4) as := by
  intro h
  have hs := h [.setBufferCount 3, .roundtripDone 1, .roundtripDone 1, .roundtripDone 1,
    .dequeueBuffer, .readReturns false, .dequeueBuffer, .readReturns false, .dequeueBuffer,
    .readReturns false, .cancelBuffer 0, .dequeueBuffer, .readReturns false, .queueBuffer 1,
    .finishSwap none, .readReturns false] (by decide) _ _ List.prefix_rfl rfl
  exact absurd (show _ = [] from hs) (by decide)

end FakeLibc.WaylandOwners

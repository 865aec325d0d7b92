import FakeLibc.WaylandListLoops

namespace FakeLibc.WaylandBufferCount

open FakeLibc.Lib.Run FakeLibc.WaylandWindow FakeLibc.WaylandListLoops

/-- The functions that the owner of the window calls. -/
def calls : Action → Bool
  | .dequeueBuffer | .queueBuffer _ | .cancelBuffer _ | .finishSwap _ | .setBufferCount _ => true
  | .setSwapInterval _ | .prepareSwap | .postBuffer _ => true
  | _ => false

def destroys (s : State) : Action → List Nat
  | .setBufferCount cnt =>
    if 0 ≤ cnt ∧ cnt < s.win.bufList.length then givenUp cnt.toNat 0 s.win.bufList else []
  | .readReturns _ =>
    match s.pc with
    | .dequeueRead =>
      if s.win.freeBufs = 0 then [] else (s.win.pick.filter (fun b => ¬ s.win.Fits b)).toList
    | _ => []
  | _ => []

structure Logged where
  state : State
  destroyed : List Nat

def logStep (s : Logged) (a : Action) : Option Logged :=
  (step s.state a).map (fun t => ⟨t, s.destroyed ++ destroys s.state a⟩)

/-- `setBufferCount cnt` returns and leaves `t`, whatever happens while it runs. -/
def Returned (s : State) (cnt : Int) (t : Logged) : Prop :=
  ∃ as, (∀ a ∈ as, calls a = false) ∧
    exec logStep ⟨s, []⟩ (.setBufferCount cnt :: as) = some t ∧ t.state.pc = .idle

structure SetsCount (s : State) (cnt : Int) : Prop where
  returns : ∃ t, Returned s cnt t
  length : ∀ t, Returned s cnt t → t.state.win.bufList.length = cnt
  shrinks : ∀ t, Returned s cnt t → cnt ≤ s.win.bufList.length →
    t.state.win.bufList = s.win.bufList.drop (s.win.bufList.length - cnt.toNat) ∧
      ∀ b ∈ s.win.bufList, b ∉ t.state.win.bufList → t.destroyed.count b = 1
  grows : ∀ t, Returned s cnt t → s.win.bufList.length ≤ cnt →
    s.win.bufList <+: t.state.win.bufList

section Count

structure Growing (kept gone : List Nat) (size : Nat) (s : Logged) : Prop where
  bufList : kept <+: s.state.win.bufList
  destroyed : s.destroyed = gone
  pc : s.state.pc = .idle ∧ s.state.win.bufList.length = size ∨
    ∃ n b, s.state.pc = .adding (.count n) b ∧ s.state.win.bufList.length + n + 1 = size

variable {kept gone : List Nat} {size : Nat}

def Counts : Pc → Prop
  | .idle | .adding (.count _) _ => True
  | _ => False

theorem swaps_of_counts {pc : Pc} (h : Counts pc) : pc.swaps = none := by
  cases pc with
  | swapRead b => cases h
  | swapWait b => cases h
  | _ => rfl

theorem Growing.counts {s : Logged} (hg : Growing kept gone size s) : Counts s.state.pc := by
  obtain ⟨h, _⟩ | ⟨n, b, h, _⟩ := hg.pc <;> rw [h] <;> trivial

theorem Growing.destroys {s : Logged} (hg : Growing kept gone size s) {a : Action}
    (ha : calls a = false) : destroys s.state a = [] := by
  cases a with
  | readReturns error =>
    cases hpc : s.state.pc with
    | dequeueRead =>
      have hcounts := hg.counts
      rw [hpc] at hcounts
      cases hcounts
    | _ => simp [WaylandBufferCount.destroys, hpc]
  | setBufferCount cnt => cases ha
  | _ => rfl

theorem length_listBuffer (w : Window) (b format : Nat) :
    (w.listBuffer b format).bufList.length = w.bufList.length + 1 := by
  rw [Window.listBuffer, Window.modify, List.length_append, List.length_singleton]

theorem growing_move {s : Logged} {a : Action} {o : Outcome} (hg : Growing kept gone size s)
    (ha : calls a = false) (h : Move s.state a o) :
    Growing kept gone size ⟨s.state.advance o, s.destroyed⟩ := by
  have hcounts := hg.counts
  obtain ⟨hl, hd, hpc⟩ := hg
  have hsame : o.win.bufList = s.state.win.bufList → o.pc = s.state.pc →
      Growing kept gone size ⟨s.state.advance o, s.destroyed⟩ := by
    intro hlist hpc'
    exact ⟨hlist ▸ hl, hd, by simpa only [State.advance, hlist, hpc'] using hpc⟩
  have hnot : ∀ pc, s.state.pc = pc → ¬ Counts pc →
      Growing kept gone size ⟨s.state.advance o, s.destroyed⟩ :=
    fun pc hb hn => absurd (hb ▸ hcounts) hn
  have hswap : ∀ b, s.state.pc.swaps = some b →
      Growing kept gone size ⟨s.state.advance o, s.destroyed⟩ := by
    intro b hb
    rw [swaps_of_counts hcounts] at hb
    cases hb
  cases h with
  | releasePosted b hdis hw hb => exact hsame rfl rfl
  | releaseFronted b hdis hw hb hf hlb => exact hsame rfl rfl
  | frame hdis => exact hsame rfl rfl
  | setter a ha width height format usage windowWidth windowHeight => exact hsame rfl rfl
  | addedLast format b hb =>
    obtain ⟨h, _⟩ | ⟨n, c, h, hlen⟩ := hpc <;> rw [hb] at h
    · cases h
    · cases h
      exact ⟨hl.trans (List.prefix_append _ _), hd,
        .inl ⟨rfl, (length_listBuffer _ b format).trans hlen⟩⟩
  | addedMore format b n hb =>
    obtain ⟨h, _⟩ | ⟨m, c, h, hlen⟩ := hpc <;> rw [hb] at h
    · cases h
    · cases h
      refine ⟨hl.trans (List.prefix_append _ _), hd, .inr ⟨n, _, rfl, ?_⟩⟩
      have hadd := length_listBuffer s.state.win b format
      simp only [State.advance, Window.newBuffer]
      omega
  | dequeueBlocks error hb hf => exact hnot _ hb id
  | dequeueNone error hb hf hp => exact hnot _ hb id
  | dequeuePick error b hb hf hp hfits => exact hnot _ hb id
  | dequeueReplace error b hb hf hp hfits => exact hnot _ hb id
  | swapWaits error b hb he => exact hswap b hb
  | swapFails b hb he => exact hswap b hb
  | swapAttaches b hb he => exact hswap b hb
  | postFails b hb => exact hnot _ hb id
  | posts b hb => exact hnot _ hb id
  | addedForDequeue format b hb => exact hnot _ hb id
  | _ => cases ha

theorem growing_logStep {s t : Logged} {a : Action} (hg : Growing kept gone size s)
    (ha : calls a = false) (h : logStep s a = some t) : Growing kept gone size t := by
  obtain ⟨u, hu, rfl⟩ := Option.map_eq_some_iff.mp h
  obtain ⟨o, hmove, rfl⟩ := step_cases hu
  rw [hg.destroys ha, List.append_nil]
  exact growing_move hg ha hmove

/-- What happens while the call runs does not change what it leaves. -/
theorem growing_exec {as : List Action} {s t : Logged} (hg : Growing kept gone size s)
    (has : ∀ a ∈ as, calls a = false) (h : exec logStep s as = some t) :
    Growing kept gone size t := by
  induction as generalizing s with
  | nil => exact Option.some.inj h ▸ hg
  | cons a as ih =>
    obtain ⟨u, hu, ht⟩ := Option.bind_eq_some_iff.mp h
    exact ih (growing_logStep hg (has a (List.mem_cons_self)) hu)
      (fun b hb => has b (List.mem_cons_of_mem a hb)) ht

theorem logStep_answer {s : Logged} {b : Nat} (hpc : s.state.pc = .adding (.count 0) b) :
    ∃ t, logStep s (.roundtripDone 1) = some t ∧ t.state.pc = .idle := by
  simp [logStep, step, next, hpc, afterRoundtrip, State.advance]

theorem logStep_answer_succ {s : Logged} {n b : Nat}
    (hpc : s.state.pc = .adding (.count (n + 1)) b) :
    ∃ t c, logStep s (.roundtripDone 1) = some t ∧ t.state.pc = .adding (.count n) c := by
  simp [logStep, step, next, hpc, afterRoundtrip, State.advance]

theorem exec_answers (n : Nat) {s : Logged} {b : Nat} (hpc : s.state.pc = .adding (.count n) b) :
    ∃ t, exec logStep s (List.replicate (n + 1) (.roundtripDone 1)) = some t ∧
      t.state.pc = .idle := by
  induction n generalizing s b with
  | zero =>
    obtain ⟨t, ht, hidle⟩ := logStep_answer hpc
    refine ⟨t, ?_, hidle⟩
    rw [List.replicate_one, exec_cons, ht, Option.bind_some, exec_nil]
  | succ n ih =>
    obtain ⟨u, c, hu, hadding⟩ := logStep_answer_succ hpc
    obtain ⟨t, ht, hidle⟩ := ih hadding
    refine ⟨t, ?_, hidle⟩
    rw [List.replicate_succ, exec_cons, hu, Option.bind_some, ht]

variable {s : State} {cnt : Int}

def called (s : State) (cnt : Int) : Logged :=
  ⟨s.advance (setBufferCount s.win cnt), destroys s (.setBufferCount cnt)⟩

theorem returned_iff (hr : s.ready) {t : Logged} :
    Returned s cnt t ↔ ∃ as, (∀ a ∈ as, calls a = false) ∧
      exec logStep (called s cnt) as = some t ∧ t.state.pc = .idle := by
  have hstep : logStep ⟨s, []⟩ (.setBufferCount cnt) = some (called s cnt) := by
    rw [logStep, step, next, if_pos hr]
    rfl
  simp only [Returned, exec_cons, hstep, Option.bind_some]

theorem growing_shorter (hcnt : 0 ≤ cnt) (hlt : cnt < s.win.bufList.length) :
    (called s cnt).state.pc = .idle ∧
      Growing (s.win.bufList.drop (givenUp cnt.toNat 0 s.win.bufList).length)
        (givenUp cnt.toNat 0 s.win.bufList)
        (s.win.bufList.length - (givenUp cnt.toNat 0 s.win.bufList).length) (called s cnt) := by
  have hdestroys : destroys s (.setBufferCount cnt) = givenUp cnt.toNat 0 s.win.bufList :=
    if_pos ⟨hcnt, hlt⟩
  have hset : setBufferCount s.win cnt = ⟨s.win.shrink cnt.toNat, .idle,
      [.access, .lock, .access, .unlock, .ret], .nothing⟩ := by
    rw [setBufferCount, if_neg (by omega), if_pos ⟨hcnt, hlt⟩]
  rw [called, hdestroys, hset]
  exact ⟨rfl, List.prefix_rfl, rfl, .inl ⟨rfl, List.length_drop⟩⟩

theorem growing_longer (hle : ¬ cnt < s.win.bufList.length) :
    Growing s.win.bufList [] cnt.toNat (called s cnt) := by
  have hdestroys : destroys s (.setBufferCount cnt) = [] := if_neg (fun h => hle h.2)
  rw [called, hdestroys, setBufferCount]
  split
  next heq => exact ⟨List.prefix_rfl, rfl, .inl ⟨rfl, by simp only [State.advance]; omega⟩⟩
  next hne =>
    rw [if_neg (fun h => hle h.2)]
    cases hn : (cnt - s.win.bufList.length).toNat with
    | zero => omega
    | succ n =>
      refine ⟨List.prefix_rfl, rfl, .inr ⟨n, _, rfl, ?_⟩⟩
      simp only [State.advance, Window.newBuffer]
      omega

theorem Growing.of_returned (hr : s.ready) {t : Logged}
    (hg : Growing kept gone size (called s cnt)) (ht : Returned s cnt t) :
    kept <+: t.state.win.bufList ∧ t.destroyed = gone ∧ t.state.win.bufList.length = size := by
  obtain ⟨as, has, hexec, hidle⟩ := (returned_iff hr).mp ht
  obtain ⟨hl, hd, hpc⟩ := growing_exec hg has hexec
  obtain ⟨_, hlen⟩ | ⟨n, b, hadding, _⟩ := hpc
  · exact ⟨hl, hd, hlen⟩
  · rw [hidle] at hadding
    cases hadding

theorem exists_returned (hr : s.ready) (hg : Growing kept gone size (called s cnt)) :
    ∃ t, Returned s cnt t := by
  obtain ⟨hidle, _⟩ | ⟨n, b, hadding, _⟩ := hg.pc
  · exact ⟨called s cnt, (returned_iff hr).mpr ⟨[], by simp, rfl, hidle⟩⟩
  · obtain ⟨t, ht, hidle⟩ := exec_answers n hadding
    refine ⟨t, (returned_iff hr).mpr ⟨_, fun a ha => ?_, ht, hidle⟩⟩
    rw [List.eq_of_mem_replicate ha]
    rfl

theorem bufList_of_shorter (hr : s.ready) (hcnt : 0 ≤ cnt) (hlt : cnt < s.win.bufList.length)
    {t : Logged} (ht : Returned s cnt t) :
    t.state.win.bufList =
        s.win.bufList.drop ((s.win.bufList.length - cnt.toNat + 2) / 2) ∧
      t.destroyed = s.win.bufList.take ((s.win.bufList.length - cnt.toNat + 2) / 2) := by
  have hgone : (givenUp cnt.toNat 0 s.win.bufList).length =
      (s.win.bufList.length - cnt.toNat + 2) / 2 :=
    length_givenUp (by omega) (.inr (by omega))
  have happ := givenUp_append_drop cnt.toNat 0 s.win.bufList
  obtain ⟨hl, hd, hlen⟩ := (growing_shorter hcnt hlt).2.of_returned hr ht
  rw [hgone] at happ hl hlen
  have hdrop := hl.eq_of_length (by rw [List.length_drop, hlen])
  have htake := congrArg (List.take ((s.win.bufList.length - cnt.toNat + 2) / 2)) happ
  rw [List.take_left' hgone] at htake
  exact ⟨hdrop.symm, hd.trans htake⟩

theorem count_take {l : List Nat} (hl : l.Nodup) {n b : Nat} (hb : b ∈ l) (hn : b ∉ l.drop n) :
    (l.take n).count b = 1 := by
  have hcount := List.count_eq_one_of_mem hl hb
  rw [← List.take_append_drop n l, List.count_append, List.count_eq_zero_of_not_mem hn] at hcount
  exact hcount

theorem setsCount_of_le (hs : s.win.bufList.Nodup) (hr : s.ready) (hcnt : 0 ≤ cnt)
    (hle : s.win.bufList.length ≤ cnt + 2) : SetsCount s cnt := by
  by_cases hlt : cnt < s.win.bufList.length
  · have hhalf : (s.win.bufList.length - cnt.toNat + 2) / 2 = s.win.bufList.length - cnt.toNat := by
      omega
    refine ⟨exists_returned hr (growing_shorter hcnt hlt).2, fun t ht => ?_, fun t ht _ => ?_,
      fun t ht hge => absurd hlt (by omega)⟩
    · rw [(bufList_of_shorter hr hcnt hlt ht).1, hhalf, List.length_drop]
      omega
    · obtain ⟨hlist, hdestroyed⟩ := bufList_of_shorter hr hcnt hlt ht
      rw [hhalf] at hlist hdestroyed
      refine ⟨hlist, fun b hb hn => ?_⟩
      rw [hdestroyed]
      exact count_take hs hb (hlist ▸ hn)
  · have hg := growing_longer hlt
    refine ⟨exists_returned hr hg, fun t ht => ?_, fun t ht hge => ?_,
      fun t ht _ => (hg.of_returned hr ht).1⟩
    · rw [(hg.of_returned hr ht).2.2]
      omega
    · obtain ⟨hl, _, hlen⟩ := hg.of_returned hr ht
      have hsame := hl.eq_of_length (by omega)
      refine ⟨?_, fun b hb hn => absurd (hsame ▸ hb) hn⟩
      rw [← hsame, Nat.sub_eq_zero_of_le (by omega), List.drop_zero]

theorem le_of_setsCount (hr : s.ready) (hcnt : 0 ≤ cnt) (h : SetsCount s cnt) :
    s.win.bufList.length ≤ cnt + 2 := by
  by_cases hlt : cnt < s.win.bufList.length
  · obtain ⟨t, ht⟩ := h.returns
    have hlen := h.length t ht
    rw [(bufList_of_shorter hr hcnt hlt ht).1, List.length_drop] at hlen
    omega
  · omega

end Count

theorem nodup_of_exec {width height : Nat} {as : List Action} {s : State}
    (hs : exec step (start width height) as = some s) : s.win.bufList.Nodup := by
  have hinv : Always step (fun t => WellFormed t.win t.pc) (start width height) as :=
    always_of_step (fun _ _ _ => wellFormed_step) (wellFormed_start width height) as
  exact (hinv as s List.prefix_rfl hs).nodup

/-- The count is set in every state in which the list gets longer or loses two
buffers at most. -/
theorem setsCount_iff_le {width height : Nat} {as : List Action} {s : State}
    (hs : exec step (start width height) as = some s) (hr : s.ready) {cnt : Int}
    (hcnt : 0 ≤ cnt) : SetsCount s cnt ↔ s.win.bufList.length ≤ cnt + 2 :=
  ⟨le_of_setsCount hr hcnt, setsCount_of_le (nodup_of_exec hs) hr hcnt⟩

def constructed : State :=
  (exec step (start 4 4)
    [.setBufferCount 3, .roundtripDone 1, .roundtripDone 1, .roundtripDone 1]).getD (start 4 4)

theorem setsCount_iff_le_constructed :
    SetsCount constructed 1 ↔ constructed.win.bufList.length ≤ (1 : Int) + 2 :=
  @setsCount_iff_le 4 4 [.setBufferCount 3, .roundtripDone 1, .roundtripDone 1, .roundtripDone 1]
    constructed rfl rfl 1 (by decide)

/-- Of three buffers one is left. -/
theorem not_setsCount_zero :
    ¬ ∀ as s cnt, exec step (start 4 4) as = some s → s.ready = true → 0 ≤ cnt →
      (∀ b ∈ s.win.bufList, (s.win.bufs b).busy = false) → SetsCount s cnt := by
  intro h
  have hsets := h [.setBufferCount 3, .roundtripDone 1, .roundtripDone 1, .roundtripDone 1]
    constructed 0 rfl rfl (by decide) (by decide)
  exact absurd (le_of_setsCount rfl (by decide) hsets) (by decide)

end FakeLibc.WaylandBufferCount

import FakeLibc.FbDevHandOut
import FakeLibc.WaylandStep

namespace FakeLibc.GivenFences

open FakeLibc.Lib.Run

/-- What becomes of buffers and of the descriptors that come with them. Logs
have the latest event first. -/
inductive Event
  | dequeued (b : Nat)
  | queued (b : Nat) (fd : Int)
  | cancelled (b : Nat) (fd : Int)
  | waited (fd : Int)
  | closed (fd : Int)
  | posted (b : Nat)
deriving DecidableEq

def passes (fd : Int) : Event → Bool
  | .queued _ given | .cancelled _ given => given = fd
  | _ => false

/-- The fences with which a buffer was queued and that nobody has waited for. -/
def unwaited (b : Nat) : List Event → List Int
  | [] => []
  | .queued c fd :: past => if c = b ∧ 0 ≤ fd then fd :: unwaited b past else unwaited b past
  | .waited fd :: past => (unwaited b past).filter (· ≠ fd)
  | _ :: past => unwaited b past

/-- The buffer has been posted since it was last dequeued. -/
def shown (b : Nat) : List Event → Bool
  | [] => false
  | .dequeued c :: past => c ≠ b && shown b past
  | .posted c :: past => c = b || shown b past
  | _ :: past => shown b past

def Waited : List Event → Prop
  | [] => True
  | .queued b fd :: past => (0 ≤ fd → shown b past = false) ∧ Waited past
  | .posted b :: past => unwaited b past = [] ∧ Waited past
  | _ :: past => Waited past

/-- Each descriptor is closed once, before the call to which it was passed
returns. Of the calls in progress `inside fd` were given `fd`. -/
def Closed (inside : Int → Nat) (log : List Event) : Prop :=
  ∀ fd, 0 ≤ fd → log.count (.closed fd) ≤ log.countP (passes fd) ∧
    log.countP (passes fd) ≤ log.count (.closed fd) + inside fd

def Consumed (inside : Int → Nat) (log : List Event) : Prop := Closed inside log ∧ Waited log

section Log

variable (fd given : Int) (log : List Event)

theorem countP_given {e : Event} (he : ∀ fd, passes fd e = decide (given = fd)) :
    (e :: log).countP (passes fd) = log.countP (passes fd) + if given = fd then 1 else 0 := by
  rw [List.countP_cons, he]
  simp only [decide_eq_true_eq]

theorem not_closed_of_lt {inside : Int → Nat} (hfd : 0 ≤ fd)
    (h : log.count (.closed fd) + inside fd < log.countP (passes fd)) : ¬ Closed inside log :=
  fun hc => Nat.not_le.mpr h (hc fd hfd).2

end Log

namespace FbDev

open FakeLibc.FbDevWindow FakeLibc.FbDevStep FakeLibc.FbDevHandOut

structure Fenced where
  win : Window
  fence : Buffer → Int
  log : List Event

/-- Neither `queueBuffer` nor `cancelBuffer` looks at the descriptor. -/
def events (w : Window) (c : Call) (fd : Int) : List Event :=
  match c with
  | .queueBuffer b => [.queued b fd]
  | .posted b => [.posted b]
  | .cancelBuffer b => [.cancelled b fd]
  | c => (returned false w c).toList.map Event.dequeued

def given (fence : Buffer → Int) : Call → Int → Buffer → Int
  | .queueBuffer b, fd => Function.update fence b fd
  | _, _ => fence

def Fenced.step (s : Fenced) (a : Call × Int) : Option Fenced :=
  (FbDevWindow.step false s.win a.1).map (fun w =>
    { win := w, fence := given s.fence a.1 a.2, log := events s.win a.1 a.2 ++ s.log })

def Fenced.start (g : Garbage) (usage format framebuffers : Nat) : Fenced :=
  ⟨fbDevNativeWindow g usage format framebuffers, fun _ => -1, []⟩

def Fenced.inside (s : Fenced) (fd : Int) : Nat := s.win.posting.countP (fun b => s.fence b = fd)

def Consumes (s : Fenced) : Prop := Consumed s.inside s.log

/-- The descriptor of a `queueBuffer` that gets to the frame buffer, or of a
`cancelBuffer`, is none. -/
def Unfenced (s : Fenced) : Call × Int → Prop
  | (.posted b, _) => s.fence b < 0
  | (.cancelBuffer _, fd) => fd < 0
  | _ => True

structure Inv (s : Fenced) : Prop where
  tracked : Tracked s.win
  unshown : ∀ b ∈ s.win.held, shown b s.log = false
  unclosed : ∀ fd, s.log.count (.closed fd) = 0
  passed : ∀ fd, 0 ≤ fd → s.log.countP (passes fd) = s.inside fd
  posting : ∀ b fd, fd ∈ unwaited b s.log → 0 ≤ fd ∧ b ∈ s.win.posting ∧ s.fence b = fd
  waited : Waited s.log

theorem events_of_other {w : Window} {c : Call} (fd : Int) (hc : Dequeues c ∨ Sets c) :
    events w c fd = (returned false w c).toList.map Event.dequeued := by
  cases c with
  | queueBuffer b | posted b | cancelBuffer b => obtain hc | hc := hc <;> cases hc
  | _ => rfl

theorem given_of_other {c : Call} (fence : Buffer → Int) (fd : Int) (hc : Dequeues c ∨ Sets c) :
    given fence c fd = fence := by
  cases c with
  | queueBuffer b => obtain hc | hc := hc <;> cases hc
  | _ => rfl

section Step

variable {s : Fenced} {v : Window} {b : Buffer} {fd : Int}

theorem Inv.consumes (hi : Inv s) : Consumes s := by
  refine ⟨fun fd hfd => ?_, hi.waited⟩
  rw [hi.unclosed, hi.passed fd hfd, Nat.zero_add]
  exact ⟨Nat.zero_le _, Nat.le_refl _⟩

theorem Inv.not_pending (hi : Inv s) (hb : b ∉ s.win.posting) : unwaited b s.log = [] :=
  List.eq_nil_iff_forall_not_mem.mpr (fun fd hfd => hb (hi.posting b fd hfd).2.1)

theorem Inv.quiet (hi : Inv s) (ht : Tracked v) (hheld : v.held = s.win.held)
    (hposting : v.posting = s.win.posting) : Inv ⟨v, s.fence, s.log⟩ where
  tracked := ht
  unshown := hheld ▸ hi.unshown
  unclosed := hi.unclosed
  passed := by
    intro fd hfd
    rw [Fenced.inside, hposting]
    exact hi.passed fd hfd
  posting := hposting ▸ hi.posting
  waited := hi.waited

theorem Inv.handOut (hi : Inv s) (ht : Tracked v) (hheld : v.held = b :: s.win.held)
    (hposting : v.posting = s.win.posting) : Inv ⟨v, s.fence, .dequeued b :: s.log⟩ where
  tracked := ht
  unshown := by
    intro d hd
    by_cases hdb : b = d
    · simp [shown, hdb]
    · rw [hheld] at hd
      have hd : d ∈ s.win.held := List.mem_of_ne_of_mem (Ne.symm hdb) hd
      simp [shown, hi.unshown d hd]
  unclosed := by
    intro fd
    simpa using hi.unclosed fd
  passed := by
    intro fd hfd
    rw [Fenced.inside, hposting]
    simpa [passes, Fenced.inside] using hi.passed fd hfd
  posting := hposting ▸ hi.posting
  waited := hi.waited

theorem Inv.queue (hi : Inv s) (hb : b ∈ s.win.held) (fd : Int) :
    Inv ⟨queueBuffer s.win b, Function.update s.fence b fd, .queued b fd :: s.log⟩ where
  tracked := tracked_queueBuffer hi.tracked hb
  unshown := fun d hd => hi.unshown d (List.mem_of_mem_erase hd)
  unclosed := by
    intro x
    simpa using hi.unclosed x
  passed := by
    intro x hx
    have hrest : s.win.posting.countP (fun d => Function.update s.fence b fd d = x) =
        s.inside x := by
      refine List.countP_congr fun d hd => ?_
      have hne : d ≠ b := fun heq => hi.tracked.not_mem_posting hb (heq ▸ hd)
      rw [Function.update_of_ne hne]
    have hinside : Fenced.inside ⟨queueBuffer s.win b, Function.update s.fence b fd,
        .queued b fd :: s.log⟩ x = s.inside x + if fd = x then 1 else 0 := by
      simp only [Fenced.inside, queueBuffer, List.countP_cons, hrest, Function.update_self,
        decide_eq_true_eq]
    rw [hinside, countP_given _ _ _ (fun _ => rfl), hi.passed x hx]
  posting := by
    intro d x hx
    by_cases hdb : b = d
    · subst hdb
      rw [unwaited, hi.not_pending (hi.tracked.not_mem_posting hb)] at hx
      split at hx
      next hfd =>
        obtain rfl := List.mem_singleton.mp hx
        exact ⟨hfd.2, List.mem_cons_self, Function.update_self ..⟩
      next => cases hx
    · rw [unwaited, if_neg (fun h => hdb h.1)] at hx
      obtain ⟨hnonneg, hmem, hfence⟩ := hi.posting d x hx
      have hkeep : Function.update s.fence b fd d = s.fence d :=
        Function.update_of_ne (Ne.symm hdb) ..
      exact ⟨hnonneg, List.mem_cons_of_mem b hmem, hkeep.trans hfence⟩
  waited := ⟨fun _ => hi.unshown b hb, hi.waited⟩

theorem inside_posted (hb : b ∈ s.win.posting) (log : List Event) (x : Int) :
    s.inside x = Fenced.inside ⟨posted s.win b, s.fence, log⟩ x +
      if s.fence b = x then 1 else 0 := by
  have h := (List.perm_cons_erase hb).countP_eq (fun d => decide (s.fence d = x))
  rw [List.countP_cons] at h
  simpa [Fenced.inside, posted] using h

theorem Inv.posted (hi : Inv s) (hb : b ∈ s.win.posting) (hfence : s.fence b < 0) :
    Inv ⟨posted s.win b, s.fence, .posted b :: s.log⟩ where
  tracked := tracked_posted hi.tracked hb
  unshown := by
    intro d hd
    have hne : b ≠ d := fun heq => hi.tracked.not_mem_posting hd (heq ▸ hb)
    simp [shown, hne, hi.unshown d hd]
  unclosed := by
    intro x
    simpa using hi.unclosed x
  passed := by
    intro x hx
    have h := inside_posted hb (.posted b :: s.log) x
    rw [if_neg (by omega)] at h
    rw [← Nat.add_zero (Fenced.inside _ x), ← h]
    simpa [passes] using hi.passed x hx
  posting := by
    intro d x hx
    obtain ⟨hnonneg, hmem, hd⟩ := hi.posting d x hx
    have hne : d ≠ b := by
      rintro rfl
      omega
    exact ⟨hnonneg, (List.mem_erase_of_ne hne).mpr hmem, hd⟩
  waited := by
    refine ⟨List.eq_nil_iff_forall_not_mem.mpr fun x hx => ?_, hi.waited⟩
    have h := hi.posting b x hx
    omega

theorem Inv.cancel (hi : Inv s) (hb : b ∈ s.win.held) (hfd : fd < 0) :
    Inv ⟨cancelBuffer s.win b, s.fence, .cancelled b fd :: s.log⟩ where
  tracked := tracked_cancelBuffer hi.tracked hb
  unshown := fun d hd => hi.unshown d (List.mem_of_mem_erase hd)
  unclosed := by
    intro x
    simpa using hi.unclosed x
  passed := by
    intro x hx
    rw [countP_given _ _ _ (fun _ => rfl), if_neg (by omega), hi.passed x hx]
    rfl
  posting := hi.posting
  waited := hi.waited

theorem not_consumes_posted (hi : Inv s) (hb : b ∈ s.win.posting) (hfence : 0 ≤ s.fence b) :
    ¬ Consumes ⟨posted s.win b, s.fence, .posted b :: s.log⟩ := by
  intro h
  refine not_closed_of_lt (s.fence b) _ hfence ?_ h.1
  have hpassed : (Event.posted b :: s.log).countP (passes (s.fence b)) = s.inside (s.fence b) := by
    simpa [passes] using hi.passed _ hfence
  have hclosed : (Event.posted b :: s.log).count (.closed (s.fence b)) = 0 := by
    simpa using hi.unclosed (s.fence b)
  have hinside := inside_posted hb (.posted b :: s.log) (s.fence b)
  rw [if_pos rfl] at hinside
  rw [hpassed, hclosed, hinside]
  omega

theorem not_consumes_cancelled (hi : Inv s) (hfd : 0 ≤ fd) :
    ¬ Consumes ⟨cancelBuffer s.win b, s.fence, .cancelled b fd :: s.log⟩ := by
  intro h
  refine not_closed_of_lt fd _ hfd ?_ h.1
  have hclosed : (Event.cancelled b fd :: s.log).count (.closed fd) = 0 := by
    simpa using hi.unclosed fd
  have hinside : Fenced.inside ⟨cancelBuffer s.win b, s.fence, .cancelled b fd :: s.log⟩ fd =
      s.inside fd := rfl
  rw [countP_given _ _ _ (fun _ => rfl), if_pos rfl, hi.passed fd hfd, hclosed, hinside]
  omega

end Step

variable {s t : Fenced} {a : Call × Int}

theorem inv_step (hi : Inv s) (hc : Unfenced s a) (h : s.step a = some t) : Inv t := by
  obtain ⟨c, fd⟩ := a
  obtain ⟨v, hv, rfl⟩ := Option.map_eq_some_iff.mp h
  have ht := tracked_step hi.tracked hv
  cases move_of_step hv with
  | handOut free buf hd hb =>
    rw [given_of_other _ _ (.inl hd), events_of_other _ (.inl hd), hb]
    exact hi.handOut ht (congrArg _ (seen_held s.win c)) (seen_posting s.win c)
  | wait free buf hd hb =>
    rw [given_of_other _ _ (.inl hd), events_of_other _ (.inl hd), hb]
    exact hi.quiet ht (seen_held s.win c) (seen_posting s.win c)
  | queue hb hbusy => exact hi.queue hb fd
  | posted hb => exact hi.posted hb hc
  | cancel hb => exact hi.cancel hb hc
  | set usage format count allocate hs =>
    rw [given_of_other _ _ (.inr hs), events_of_other _ (.inr hs), returned_of_sets s.win hs]
    exact hi.quiet ht rfl rfl

theorem not_consumes_step (hi : Inv s) (hc : ¬ Unfenced s a) (h : s.step a = some t) :
    ¬ Consumes t := by
  obtain ⟨c, fd⟩ := a
  obtain ⟨v, hv, rfl⟩ := Option.map_eq_some_iff.mp h
  cases c with
  | posted b =>
    cases move_of_step hv with
    | posted hb => exact not_consumes_posted hi hb (Int.not_lt.mp hc)
    | _ => contradiction
  | cancelBuffer b =>
    cases move_of_step hv with
    | cancel hb => exact not_consumes_cancelled hi (Int.not_lt.mp hc)
    | _ => contradiction
  | _ => exact absurd trivial hc

theorem inv_start (g : Garbage) (usage format framebuffers : Nat) :
    Inv (Fenced.start g usage format framebuffers) := by
  have hout := (fbDevNativeWindow_empty g usage format framebuffers).2.2
  obtain ⟨hheld, hposting⟩ := List.append_eq_nil_iff.mp hout
  refine ⟨tracked_fbDevNativeWindow g usage format framebuffers, ?_, fun _ => rfl, ?_, ?_, trivial⟩
  · intro b hb
    rfl
  · intro fd hfd
    rw [Fenced.inside, Fenced.start, hposting]
    rfl
  · intro b fd hfd
    cases hfd

end FbDev

namespace Wayland

open FakeLibc.WaylandWindow

structure Fenced where
  state : State
  log : List Event

def results : Output → List Event
  | .dequeued b => [.dequeued b]
  | .attached b => [.posted b]
  | _ => []

/-- `queueBuffer` waits for the fence and closes it. `cancelBuffer` does not look
at the descriptor. -/
def events (a : Action) (fd : Int) (out : Output) : List Event :=
  match a with
  | .queueBuffer b =>
    if 0 ≤ fd then [.closed fd, .waited fd, .queued b fd] else [.queued b fd]
  | .cancelBuffer b => [.cancelled b fd]
  | _ => results out

def Fenced.step (s : Fenced) (a : Action × Int) : Option Fenced :=
  (next s.state a.1).map (fun o =>
    { state := s.state.advance o, log := events a.1 a.2 o.out ++ s.log })

def Fenced.start (width height : Nat) : Fenced := ⟨WaylandWindow.start width height, []⟩

def Consumes (s : Fenced) : Prop := Consumed (fun _ => 0) s.log

/-- A buffer that comes with a fence has not been attached since it was
dequeued, and none is cancelled with a fence. -/
def Unfenced (s : Fenced) : Action × Int → Prop
  | (.queueBuffer b, fd) => 0 ≤ fd → shown b s.log = false
  | (.cancelBuffer _, fd) => fd < 0
  | _ => True

structure Inv (s : Fenced) : Prop where
  consumes : Consumes s
  awaited : ∀ b, unwaited b s.log = []

section Log

variable {log : List Event} {b : Nat} {fd : Int}

theorem closed_queued (hc : Closed (fun _ => 0) log) (b : Nat) (fd : Int) :
    Closed (fun _ => 0) (.closed fd :: .waited fd :: .queued b fd :: log) := by
  intro x hx
  have h : _ ∧ _ ≤ _ + 0 := hc x hx
  simp only [List.count_cons, List.countP_cons, passes, decide_eq_true_eq, beq_iff_eq,
    Event.closed.injEq, reduceCtorEq, if_false]
  omega

theorem closed_of_negative (hc : Closed (fun _ => 0) log) {e : Event}
    (he : ∀ x, 0 ≤ x → passes x e = false ∧ e ≠ .closed x) : Closed (fun _ => 0) (e :: log) := by
  intro x hx
  obtain ⟨hpass, hne⟩ := he x hx
  rw [List.count_cons_of_ne hne, List.countP_cons_of_neg (by simp [hpass])]
  exact hc x hx

theorem unwaited_queued (hw : unwaited b log = []) (c : Nat) (fd : Int) :
    unwaited b (.closed fd :: .waited fd :: .queued c fd :: log) = [] := by
  simp only [unwaited, hw]
  split
  next => simp
  next => rfl

end Log

variable {s t : Fenced} {a : Action × Int} {b : Nat} {fd : Int}

theorem Inv.results (hi : Inv s) (u : State) (out : Output) : Inv ⟨u, results out ++ s.log⟩ := by
  obtain ⟨⟨hclosed, hwaited⟩, hawaited⟩ := hi
  cases out with
  | nothing => exact ⟨⟨hclosed, hwaited⟩, hawaited⟩
  | unswapped => exact ⟨⟨hclosed, hwaited⟩, hawaited⟩
  | dequeued b =>
    exact ⟨⟨closed_of_negative hclosed (fun x _ => ⟨rfl, Event.noConfusion⟩), hwaited⟩, hawaited⟩
  | attached b =>
    refine ⟨⟨closed_of_negative hclosed (fun x _ => ⟨rfl, Event.noConfusion⟩), ?_⟩, hawaited⟩
    exact ⟨hawaited b, hwaited⟩

theorem Inv.fenced (hi : Inv s) (u : State) (hb : shown b s.log = false) :
    Inv ⟨u, .closed fd :: .waited fd :: .queued b fd :: s.log⟩ where
  consumes := ⟨closed_queued hi.consumes.1 b fd, fun _ => hb, hi.consumes.2⟩
  awaited := fun d => unwaited_queued (hi.awaited d) b fd

theorem Inv.unfenced (hi : Inv s) (u : State) (hfd : fd < 0) :
    Inv ⟨u, .queued b fd :: s.log⟩ := by
  refine ⟨⟨closed_of_negative hi.consumes.1 fun x hx => ⟨?_, Event.noConfusion⟩, ?_⟩, fun d => ?_⟩
  · exact decide_eq_false (by omega)
  · exact ⟨fun h => absurd hfd (Int.not_lt.mpr h), hi.consumes.2⟩
  · rw [unwaited, if_neg (by omega)]
    exact hi.awaited d

theorem Inv.cancelled (hi : Inv s) (u : State) (hfd : fd < 0) :
    Inv ⟨u, .cancelled b fd :: s.log⟩ := by
  refine ⟨⟨closed_of_negative hi.consumes.1 fun x hx => ⟨?_, Event.noConfusion⟩, ?_⟩, hi.awaited⟩
  · exact decide_eq_false (by omega)
  · exact hi.consumes.2

theorem not_consumes_cancelled (hi : Inv s) (u : State) (hfd : 0 ≤ fd) :
    ¬ Consumes ⟨u, .cancelled b fd :: s.log⟩ := by
  intro h
  refine not_closed_of_lt fd _ hfd ?_ h.1
  have hclosed : s.log.count (.closed fd) ≤ s.log.countP (passes fd) := (hi.consumes.1 fd hfd).1
  rw [countP_given _ _ _ (fun _ => rfl), if_pos rfl, List.count_cons_of_ne Event.noConfusion]
  omega

theorem inv_step (hi : Inv s) (hc : Unfenced s a) (h : s.step a = some t) : Inv t := by
  obtain ⟨a, fd⟩ := a
  obtain ⟨o, ho, rfl⟩ := Option.map_eq_some_iff.mp h
  cases a with
  | queueBuffer b =>
    rw [events]
    split
    next hfd => exact hi.fenced _ (hc hfd)
    next hfd => exact hi.unfenced _ (Int.not_le.mp hfd)
  | cancelBuffer b => exact hi.cancelled _ hc
  | _ => exact hi.results _ o.out

theorem not_consumes_step (hi : Inv s) (hc : ¬ Unfenced s a) (h : s.step a = some t) :
    ¬ Consumes t := by
  obtain ⟨a, fd⟩ := a
  obtain ⟨o, ho, rfl⟩ := Option.map_eq_some_iff.mp h
  cases a with
  | queueBuffer b =>
    obtain ⟨hfd, hb⟩ := Classical.not_imp.mp hc
    rw [events, if_pos hfd]
    rintro ⟨_, hwaited, _⟩
    exact hb (hwaited hfd)
  | cancelBuffer b => exact not_consumes_cancelled hi _ (Int.not_lt.mp hc)
  | _ => exact absurd trivial hc

theorem inv_start (width height : Nat) : Inv (Fenced.start width height) :=
  ⟨⟨fun _ _ => ⟨Nat.le_refl _, Nat.le_refl _⟩, trivial⟩, fun _ => rfl⟩

end Wayland

/-- The frame buffer window gives up every descriptor that it is given, and the
Wayland window those of `cancelBuffer`. The latter waits for all that come with
a buffer before `finishSwap` takes it. -/
theorem consumes_iff_unfenced (g : FbDevWindow.Garbage) (usage format framebuffers : Nat)
    (calls : List (FbDevWindow.Call × Int))
    (hcalls : (exec FbDev.Fenced.step (.start g usage format framebuffers) calls).isSome)
    (width height : Nat) (actions : List (WaylandWindow.Action × Int))
    (hactions : (exec Wayland.Fenced.step (.start width height) actions).isSome) :
    (Always FbDev.Fenced.step FbDev.Consumes (.start g usage format framebuffers) calls ↔
      Guarded FbDev.Fenced.step FbDev.Unfenced (.start g usage format framebuffers) calls) ∧
    (Always Wayland.Fenced.step Wayland.Consumes (.start width height) actions ↔
      Guarded Wayland.Fenced.step Wayland.Unfenced (.start width height) actions) := by
  constructor
  · refine always_iff_guarded (fun _ => FbDev.Inv.consumes) (fun _ _ _ => FbDev.inv_step)
      (fun _ _ _ => FbDev.not_consumes_step) ?_ hcalls
    exact FbDev.inv_start g usage format framebuffers
  · refine always_iff_guarded (fun _ => Wayland.Inv.consumes) (fun _ _ _ => Wayland.inv_step)
      (fun _ _ _ => Wayland.not_consumes_step) ?_ hactions
    exact Wayland.inv_start width height

def cleared : FbDevWindow.Garbage := ⟨0, none, fun _ => 0⟩

def frame : List (FbDevWindow.Call × Int) :=
  [(.dequeueBuffer 2, -1), (.queueBuffer 0, -1), (.posted 0, -1)]

def swap : List (WaylandWindow.Action × Int) :=
  [(.setBufferCount 3, -1), (.roundtripDone 1, -1), (.roundtripDone 1, -1), (.roundtripDone 1, -1),
    (.dequeueBuffer, -1), (.readReturns false, -1), (.queueBuffer 0, 7), (.finishSwap none, -1),
    (.readReturns false, -1)]

theorem consumes_iff_unfenced_oneFrame :
    (Always FbDev.Fenced.step FbDev.Consumes (.start cleared 0 5 2) frame ↔
      Guarded FbDev.Fenced.step FbDev.Unfenced (.start cleared 0 5 2) frame) ∧
    (Always Wayland.Fenced.step Wayland.Consumes (.start 4 4) swap ↔
      Guarded Wayland.Fenced.step Wayland.Unfenced (.start 4 4) swap) :=
  consumes_iff_unfenced cleared 0 5 2 frame rfl 4 4 swap rfl

/-- A frame with a fence on the frame buffer, and a cancelled one on Wayland. -/
theorem not_consumes_fenced :
    ¬ Always FbDev.Fenced.step FbDev.Consumes (.start cleared 0 5 2)
      [(.dequeueBuffer 2, -1), (.queueBuffer 0, 7), (.posted 0, -1)] ∧
    ¬ Always Wayland.Fenced.step Wayland.Consumes (.start 4 4)
      [(.setBufferCount 3, -1), (.roundtripDone 1, -1), (.roundtripDone 1, -1),
        (.roundtripDone 1, -1), (.dequeueBuffer, -1), (.readReturns false, -1),
        (.cancelBuffer 0, 7)] := by
  constructor
  · intro h
    have hc := (h _ _ List.prefix_rfl rfl).1 7 (by decide)
    exact absurd hc.2 (by decide)
  · intro h
    have hc := (h _ _ List.prefix_rfl rfl).1 7 (by decide)
    exact absurd hc.2 (by decide)

end FakeLibc.GivenFences

import FakeLibc.Lib.Run
import Mathlib.Logic.Function.Basic

namespace FakeLibc.WaylandReadQueue

open FakeLibc.Lib.Run

inductive Site
  | dequeueFirst
  | dequeueAgain
  | swapFirst
  | swapAgain
  | post
  deriving DecidableEq

def Site.block : Site → Bool
  | .dequeueFirst => false
  | .dequeueAgain => true
  | .swapFirst => false
  | .swapAgain => true
  | .post => false

/-- What a thread takes the mutex for. `postBuffer` takes it twice, first to
look for the buffer. -/
inductive Op
  | dequeueBuffer
  | finishSwap
  | postLook
  | postBuffer
  | cancelBuffer
  | setBufferCount (change : Int)
  | setSwapInterval (positive : Bool)
  | other
  deriving DecidableEq

inductive Found
  | nothing
  | fitting
  | replaced
  deriving DecidableEq

inductive Pc
  | idle
  | locking (op : Op)
  | within (op : Op)
  | entering (site : Site)
  | dispatching (site : Site)
  | returned (site : Site) (error : Bool)
  | parked (site : Site)
  | woken (site : Site)
  | roundtrip (op : Op)
  deriving DecidableEq

/-- What the threads share. `syncs` counts the artificial events that
`cancelBuffer` asks for. -/
structure Shared where
  owner : Option Nat
  queueReads : Int
  freeBufs : Int
  frameCallback : Bool
  interval : Bool
  syncs : Nat
  deriving DecidableEq

structure State where
  shared : Shared
  pc : Nat → Pc

inductive Event
  | releaseFronted
  | releasePosted
  | frame
  | other
  deriving DecidableEq

inductive Act
  | call (op : Op)
  | acquire
  | run (found : Found)
  | event (e : Event)
  | dispatched (error : Bool)
  | wake
  deriving DecidableEq

/-- Releasing the mutex does not ask who holds it. -/
def Shared.unlock (s : Shared) : Shared := { s with owner := none }

def Shared.deliver (s : Shared) : Event → Shared
  | .releaseFronted => { s with freeBufs := s.freeBufs + 1 }
  | .releasePosted => s.unlock
  | .frame => { s with frameCallback := false }
  | .other => s

def takeBuffer (s : Shared) : Found → Shared × Pc
  | .nothing => (s.unlock, .idle)
  | .fitting => ({ s.unlock with freeBufs := s.freeBufs - 1 }, .idle)
  | .replaced => ({ s with freeBufs := s.freeBufs - 1 }, .roundtrip .dequeueBuffer)

/-- The rest of `finishSwap`. An error returns with the mutex held. -/
def present (s : Shared) (error : Bool) : Shared × Pc :=
  if error then (s, .idle)
  else ({ s.unlock with frameCallback := s.interval }, .idle)

def afterRead (s : Shared) (site : Site) (error : Bool) (found : Found) : Shared × Pc :=
  match site with
  | .dequeueFirst | .dequeueAgain =>
    if s.freeBufs = 0 then (s, .entering .dequeueAgain) else takeBuffer s found
  | .swapFirst => if s.frameCallback then (s, .entering .swapAgain) else present s error
  | .swapAgain =>
    if s.frameCallback ∧ error = false then (s, .entering .swapAgain) else present s error
  | .post => (s.unlock, .idle)

/-- `readQueue` up to its dispatch. -/
def enter (s : Shared) (site : Site) (found : Found) : Shared × Pc :=
  let s := { s with queueReads := s.queueReads + 1 }
  if s.queueReads = 1 then (s, .dispatching site)
  else if site.block ∧ s.queueReads > 0 then (s.unlock, .parked site)
  else afterRead s site false found

/-- What a thread does inside of the mutex, for an operation without `readQueue`. -/
def perform (s : Shared) : Op → Shared × Pc
  | .dequeueBuffer => (s, .entering .dequeueFirst)
  | .finishSwap => (s, .entering .swapFirst)
  | .postLook => (s.unlock, .locking .postBuffer)
  | .postBuffer => (s, .entering .post)
  | .cancelBuffer =>
    ({ s.unlock with
        freeBufs := s.freeBufs + 1
        syncs := if s.queueReads ≠ 0 then s.syncs + 1 else s.syncs }, .idle)
  | .setBufferCount change => (s, .roundtrip (.setBufferCount change))
  | .setSwapInterval positive => ({ s.unlock with interval := positive }, .idle)
  | .other => (s.unlock, .idle)

def afterRoundtrip (s : Shared) : Op → Shared × Pc
  | .setBufferCount change => ({ s.unlock with freeBufs := s.freeBufs + change }, .idle)
  | _ => (s.unlock, .idle)

def State.set (s : State) (t : Nat) (r : Shared × Pc) : State :=
  ⟨r.1, Function.update s.pc t r.2⟩

def Pc.wakeUp : Pc → Pc
  | .parked site => .woken site
  | pc => pc

def State.reset (s : State) : State :=
  ⟨{ s.shared with queueReads := 0 }, fun t => (s.pc t).wakeUp⟩

def resume (s : Shared) (t : Nat) (site : Site) (found : Found) : Shared × Pc :=
  if s.queueReads > 0 then (s, .parked site)
  else afterRead { s with owner := some t } site false found

def step (s : State) (a : Nat × Act) : Option State :=
  let (t, act) := a
  match s.pc t, act with
  | .idle, .call op => some (s.set t (s.shared, .locking op))
  | .locking op, .acquire =>
    if s.shared.owner = none then
      some (s.set t ({ s.shared with owner := some t }, .within op))
    else none
  | .within op, .run _ => some (s.set t (perform s.shared op))
  | .entering site, .run found => some (s.set t (enter s.shared site found))
  | .dispatching site, .event e => some (s.set t (s.shared.deliver e, .dispatching site))
  | .dispatching site, .dispatched error => some (s.set t (s.shared, .returned site error))
  | .returned site error, .run found =>
    some (s.reset.set t (afterRead s.reset.shared site error found))
  | .parked site, .wake => some (s.set t (s.shared, .woken site))
  | .woken site, .run found =>
    if s.shared.owner = none then some (s.set t (resume s.shared t site found)) else none
  | .roundtrip op, .event e => some (s.set t (s.shared.deliver e, .roundtrip op))
  | .roundtrip op, .run _ => some (s.set t (afterRoundtrip s.shared op))
  | _, _ => none

def start (freeBufs : Int) : State := ⟨⟨none, 0, freeBufs, false, true, 0⟩, fun _ => .idle⟩

def NoPostedRelease (_ : State) (a : Nat × Act) : Prop := a.2 ≠ .event .releasePosted

instance (s : State) (a : Nat × Act) : Decidable (NoPostedRelease s a) :=
  inferInstanceAs (Decidable (_ ≠ _))

def Pc.waits : Pc → Bool
  | .parked _ => true
  | .woken _ => true
  | _ => false

def Pc.reads : Pc → Bool
  | .dispatching _ => true
  | .returned _ _ => true
  | _ => false

/-- The thread is in the code that the mutex protects. -/
def Pc.critical : Pc → Bool
  | .idle => false
  | .locking _ => false
  | .parked _ => false
  | .woken _ => false
  | _ => true

/-- The second branch of `readQueue` is never taken: no thread waits for another
one to dispatch, and none is told by an artificial event. -/
structure Alone (s : State) : Prop where
  waits : ∀ t, (s.pc t).waits = false
  syncs : s.shared.syncs = 0
  free : s.shared.owner = none → s.shared.queueReads = 0

structure Inv (s : State) : Prop where
  owner : ∀ t, (s.pc t).critical = true → s.shared.owner = some t
  waits : ∀ t, (s.pc t).waits = false
  syncs : s.shared.syncs = 0
  reading : ∀ t, (s.pc t).reads = true → s.shared.queueReads = 1
  read : s.shared.queueReads = 0 ∨ ∃ t, (s.pc t).reads = true

theorem set_pc_self (s : State) (t : Nat) (r : Shared × Pc) : (s.set t r).pc t = r.2 := by
  simp only [State.set, Function.update_self]

theorem set_pc_of_ne (s : State) {t v : Nat} (r : Shared × Pc) (h : v ≠ t) :
    (s.set t r).pc v = s.pc v := by
  simp only [State.set, Function.update_of_ne h]

inductive Move (s : State) (t : Nat) : Act → State → Prop
  | call (op : Op) (h : s.pc t = .idle) : Move s t (.call op) (s.set t (s.shared, .locking op))
  | acquire (op : Op) (h : s.pc t = .locking op) (hfree : s.shared.owner = none) :
      Move s t .acquire (s.set t ({ s.shared with owner := some t }, .within op))
  | within (op : Op) (found : Found) (h : s.pc t = .within op) :
      Move s t (.run found) (s.set t (perform s.shared op))
  | entering (site : Site) (found : Found) (h : s.pc t = .entering site) :
      Move s t (.run found) (s.set t (enter s.shared site found))
  | event (site : Site) (e : Event) (h : s.pc t = .dispatching site) :
      Move s t (.event e) (s.set t (s.shared.deliver e, .dispatching site))
  | dispatched (site : Site) (error : Bool) (h : s.pc t = .dispatching site) :
      Move s t (.dispatched error) (s.set t (s.shared, .returned site error))
  | returned (site : Site) (error : Bool) (found : Found) (h : s.pc t = .returned site error) :
      Move s t (.run found) (s.reset.set t (afterRead s.reset.shared site error found))
  | wake (site : Site) (h : s.pc t = .parked site) :
      Move s t .wake (s.set t (s.shared, .woken site))
  | resume (site : Site) (found : Found) (h : s.pc t = .woken site)
      (hfree : s.shared.owner = none) :
      Move s t (.run found) (s.set t (resume s.shared t site found))
  | callback (op : Op) (e : Event) (h : s.pc t = .roundtrip op) :
      Move s t (.event e) (s.set t (s.shared.deliver e, .roundtrip op))
  | roundtrip (op : Op) (found : Found) (h : s.pc t = .roundtrip op) :
      Move s t (.run found) (s.set t (afterRoundtrip s.shared op))

theorem step_cases {s u : State} {t : Nat} {act : Act} (h : step s (t, act) = some u) :
    Move s t act u := by
  unfold step at h
  dsimp only at h
  split at h
  case h_1 op hpc => cases h; exact .call op hpc
  case h_2 op hpc =>
    split at h
    · cases h; exact .acquire op hpc ‹_›
    · cases h
  case h_3 op found hpc => cases h; exact .within op found hpc
  case h_4 site found hpc => cases h; exact .entering site found hpc
  case h_5 site e hpc => cases h; exact .event site e hpc
  case h_6 site error hpc => cases h; exact .dispatched site error hpc
  case h_7 site error found hpc => cases h; exact .returned site error found hpc
  case h_8 site hpc => cases h; exact .wake site hpc
  case h_9 site found hpc =>
    split at h
    · cases h; exact .resume site found hpc ‹_›
    · cases h
  case h_10 op e hpc => cases h; exact .callback op e hpc
  case h_11 op found hpc => cases h; exact .roundtrip op found hpc
  case h_12 => cases h

structure Settled (t : Nat) (s : Shared) : Prop where
  owner : s.owner = some t
  syncs : s.syncs = 0
  queueReads : s.queueReads = 0

structure Fine (t : Nat) (r : Shared × Pc) : Prop where
  owner : r.2.critical = true → r.1.owner = some t
  waits : r.2.waits = false
  syncs : r.1.syncs = 0
  queueReads : r.1.queueReads = if r.2.reads then 1 else 0

variable {s u : State} {t v : Nat} {w : Shared}

theorem fine_idle (hs : w.syncs = 0) (hq : w.queueReads = 0) : Fine t (w, .idle) :=
  ⟨fun hc => absurd hc Bool.false_ne_true, rfl, hs, hq⟩

theorem fine_entering (h : Settled t w) (site : Site) : Fine t (w, .entering site) :=
  ⟨fun _ => h.owner, rfl, h.syncs, h.queueReads⟩

theorem fine_ite {c : Prop} [Decidable c] {a b : Shared × Pc} (ha : Fine t a) (hb : Fine t b) :
    Fine t (if c then a else b) := by
  split
  · exact ha
  · exact hb

theorem fine_takeBuffer (h : Settled t w) (found : Found) : Fine t (takeBuffer w found) := by
  cases found with
  | nothing | fitting => exact fine_idle h.syncs h.queueReads
  | replaced => exact ⟨fun _ => h.owner, rfl, h.syncs, h.queueReads⟩

theorem fine_present (h : Settled t w) (error : Bool) : Fine t (present w error) := by
  cases error with
  | true | false => exact fine_idle h.syncs h.queueReads

theorem fine_afterRead (h : Settled t w) (site : Site) (error : Bool) (found : Found) :
    Fine t (afterRead w site error found) := by
  cases site with
  | dequeueFirst | dequeueAgain => exact fine_ite (fine_entering h _) (fine_takeBuffer h found)
  | swapFirst | swapAgain => exact fine_ite (fine_entering h _) (fine_present h error)
  | post => exact fine_idle h.syncs h.queueReads

/-- The thread that has the mutex is the first to read, and so dispatches. -/
theorem fine_enter (h : Settled t w) (site : Site) (found : Found) :
    Fine t (enter w site found) := by
  have hone : w.queueReads + 1 = 1 := by rw [h.queueReads]; rfl
  unfold enter
  dsimp only
  rw [if_pos hone]
  exact ⟨fun _ => h.owner, rfl, h.syncs, hone⟩

theorem fine_perform (h : Settled t w) (op : Op) : Fine t (perform w op) := by
  cases op with
  | dequeueBuffer | finishSwap | postBuffer => exact fine_entering h _
  | setBufferCount change => exact ⟨fun _ => h.owner, rfl, h.syncs, h.queueReads⟩
  | cancelBuffer =>
    refine fine_idle ?_ h.queueReads
    show (if w.queueReads ≠ 0 then w.syncs + 1 else w.syncs) = 0
    rw [if_neg (not_not.mpr h.queueReads), h.syncs]
  | postLook => exact ⟨fun hc => absurd hc Bool.false_ne_true, rfl, h.syncs, h.queueReads⟩
  | setSwapInterval positive | other => exact fine_idle h.syncs h.queueReads

theorem fine_afterRoundtrip (h : Settled t w) (op : Op) : Fine t (afterRoundtrip w op) := by
  cases op with
  | _ => exact fine_idle h.syncs h.queueReads

theorem critical_of_reads {pc : Pc} (h : pc.reads = true) : pc.critical = true := by
  cases pc <;> first | rfl | cases h

theorem Inv.quiet (hi : Inv s) (ho : s.shared.owner = some t) (hv : v ≠ t) :
    (s.pc v).critical = false := by
  by_contra hc
  have hov := hi.owner v (by simpa using hc)
  rw [ho] at hov
  exact hv (Option.some.inj hov).symm

theorem Inv.quiet_of_free (hi : Inv s) (ho : s.shared.owner = none) (v : Nat) :
    (s.pc v).critical = false := by
  by_contra hc
  have hov := hi.owner v (by simpa using hc)
  rw [ho] at hov
  cases hov

theorem Inv.settled (hi : Inv s) (hc : (s.pc t).critical = true) (hr : (s.pc t).reads = false) :
    Settled t s.shared := by
  refine ⟨hi.owner t hc, hi.syncs, hi.read.resolve_right ?_⟩
  rintro ⟨v, hv⟩
  have hvt : v ≠ t := by
    rintro rfl
    rw [hr] at hv
    cases hv
  have hq := hi.quiet (hi.owner t hc) hvt
  rw [critical_of_reads hv] at hq
  cases hq

theorem Inv.queueReads_of_free (hi : Inv s) (ho : s.shared.owner = none) :
    s.shared.queueReads = 0 := by
  refine hi.read.resolve_right ?_
  rintro ⟨v, hv⟩
  have hq := hi.quiet_of_free ho v
  rw [critical_of_reads hv] at hq
  cases hq

theorem inv_set (hi : Inv s) (hq : ∀ v, v ≠ t → (s.pc v).critical = false) {r : Shared × Pc}
    (hf : Fine t r) : Inv (s.set t r) := by
  have hother : ∀ v, v ≠ t → (s.set t r).pc v = s.pc v :=
    fun v hv => set_pc_of_ne s r hv
  have hself : (s.set t r).pc t = r.2 := set_pc_self s t r
  have hreads : ∀ v, v ≠ t → (s.pc v).reads = false := by
    intro v hv
    by_contra hr
    have hc := critical_of_reads (by simpa using hr)
    rw [hq v hv] at hc
    cases hc
  constructor
  · intro v hc
    by_cases hv : v = t
    · subst hv
      rw [hself] at hc
      exact hf.owner hc
    · rw [hother v hv, hq v hv] at hc
      cases hc
  · intro v
    by_cases hv : v = t
    · subst hv
      rw [hself]
      exact hf.waits
    · rw [hother v hv]
      exact hi.waits v
  · exact hf.syncs
  · intro v hr
    by_cases hv : v = t
    · subst hv
      rw [hself] at hr
      have hfr := hf.queueReads
      rwa [if_pos hr] at hfr
    · rw [hother v hv, hreads v hv] at hr
      cases hr
  · have hfr := hf.queueReads
    by_cases hr : r.2.reads = true
    · exact .inr ⟨t, by rw [hself]; exact hr⟩
    · rw [if_neg hr] at hfr
      exact .inl hfr

theorem settled_deliver {e : Event} (h : w.owner = some t) (he : e ≠ .releasePosted) :
    (w.deliver e).owner = some t ∧ (w.deliver e).syncs = w.syncs ∧
      (w.deliver e).queueReads = w.queueReads := by
  cases e with
  | releasePosted => exact absurd rfl he
  | releaseFronted | frame | other => exact ⟨h, rfl, rfl⟩

theorem not_posted_of_guard {e : Event} (h : NoPostedRelease s (t, .event e)) :
    e ≠ .releasePosted := by
  rintro rfl
  exact h rfl

theorem Inv.reset_pc (hi : Inv s) : s.reset.pc = s.pc := by
  funext v
  show (s.pc v).wakeUp = s.pc v
  have hv := hi.waits v
  cases hpc : s.pc v with
  | parked site =>
    rw [hpc] at hv
    cases hv
  | _ => rfl

theorem inv_step {act : Act} (hi : Inv s) (hg : NoPostedRelease s (t, act))
    (h : step s (t, act) = some u) : Inv u := by
  cases step_cases h with
  | call op hpc =>
    have hf : ∀ v, (s.set t (s.shared, .locking op)).pc v = s.pc v ∨
        v = t ∧ (s.set t (s.shared, .locking op)).pc v = .locking op := by
      intro v
      by_cases hv : v = t
      · subst hv
        exact .inr ⟨rfl, set_pc_self _ _ _⟩
      · exact .inl (set_pc_of_ne _ _ hv)
    refine ⟨fun v hc => ?_, fun v => ?_, hi.syncs, fun v hr => ?_, ?_⟩
    · rcases hf v with hv | ⟨-, hv⟩
      · exact hi.owner v (hv ▸ hc)
      · rw [hv] at hc
        cases hc
    · rcases hf v with hv | ⟨-, hv⟩
      · rw [hv]
        exact hi.waits v
      · rw [hv]
        rfl
    · rcases hf v with hv | ⟨-, hv⟩
      · exact hi.reading v (hv ▸ hr)
      · rw [hv] at hr
        cases hr
    · refine hi.read.imp_right ?_
      rintro ⟨v, hr⟩
      refine ⟨v, ?_⟩
      rcases hf v with hv | ⟨rfl, -⟩
      · rw [hv]
        exact hr
      · rw [hpc] at hr
        cases hr
  | acquire op hpc hfree =>
    exact inv_set hi (fun v _ => hi.quiet_of_free hfree v)
      ⟨fun _ => rfl, rfl, hi.syncs, hi.queueReads_of_free hfree⟩
  | within op found hpc =>
    have hs := hi.settled (t := t) (by rw [hpc]; rfl) (by rw [hpc]; rfl)
    exact inv_set hi (fun v hv => hi.quiet hs.owner hv) (fine_perform hs op)
  | entering site found hpc =>
    have hs := hi.settled (t := t) (by rw [hpc]; rfl) (by rw [hpc]; rfl)
    exact inv_set hi (fun v hv => hi.quiet hs.owner hv) (fine_enter hs site found)
  | event site e hpc =>
    have ho := hi.owner t (by rw [hpc]; rfl)
    obtain ⟨h1, h2, h3⟩ := settled_deliver ho (not_posted_of_guard hg)
    exact inv_set hi (fun v hv => hi.quiet ho hv)
      ⟨fun _ => h1, rfl, h2.trans hi.syncs, h3.trans (hi.reading t (by rw [hpc]; rfl))⟩
  | dispatched site error hpc =>
    have ho := hi.owner t (by rw [hpc]; rfl)
    exact inv_set hi (fun v hv => hi.quiet ho hv)
      ⟨fun _ => ho, rfl, hi.syncs, hi.reading t (by rw [hpc]; rfl)⟩
  | returned site error found hpc =>
    have ho := hi.owner t (by rw [hpc]; rfl)
    have hs : Settled t s.reset.shared := ⟨ho, hi.syncs, rfl⟩
    have hf := fine_afterRead hs site error found
    have heq : s.reset.set t (afterRead s.reset.shared site error found) =
        s.set t (afterRead s.reset.shared site error found) := by
      simp only [State.set, hi.reset_pc]
    rw [heq]
    exact inv_set hi (fun v hv => hi.quiet ho hv) hf
  | wake site hpc =>
    have hw := hi.waits t
    rw [hpc] at hw
    cases hw
  | resume site found hpc hfree =>
    have hw := hi.waits t
    rw [hpc] at hw
    cases hw
  | callback op e hpc =>
    have hs := hi.settled (t := t) (by rw [hpc]; rfl) (by rw [hpc]; rfl)
    obtain ⟨h1, h2, h3⟩ := settled_deliver hs.owner (not_posted_of_guard hg)
    exact inv_set hi (fun v hv => hi.quiet hs.owner hv)
      ⟨fun _ => h1, rfl, h2.trans hs.syncs, h3.trans hs.queueReads⟩
  | roundtrip op found hpc =>
    have hs := hi.settled (t := t) (by rw [hpc]; rfl) (by rw [hpc]; rfl)
    exact inv_set hi (fun v hv => hi.quiet hs.owner hv) (fine_afterRoundtrip hs op)

theorem inv_start (freeBufs : Int) : Inv (start freeBufs) :=
  ⟨fun _ hc => absurd hc Bool.false_ne_true, fun _ => rfl, rfl,
    fun _ hr => absurd hr Bool.false_ne_true, .inl rfl⟩

theorem Inv.alone (hi : Inv s) : Alone s := ⟨hi.waits, hi.syncs, hi.queueReads_of_free⟩

theorem inv_run (freeBufs : Int) (as : List (Nat × Act))
    (hg : Guarded step NoPostedRelease (start freeBufs) as) :
    Always step Inv (start freeBufs) as :=
  always_of_guarded (fun _ _ _ hi hc h => inv_step hi hc h) (inv_start freeBufs) hg

/-- Whatever the threads do in whatever order, as long as no posted buffer is
released: the mutex is held all through a dispatch, so that no thread ever finds
another one reading. Nobody waits on the condition, and `cancelBuffer` never
asks for the event that was to wake a reader. -/
theorem readers_alone (freeBufs : Int) (as : List (Nat × Act))
    (hg : Guarded step NoPostedRelease (start freeBufs) as) :
    Always step Alone (start freeBufs) as :=
  (inv_run freeBufs as hg).mono (fun _ hi => hi.alone)

/-- Thread 1 waits for a buffer while thread 2 wants to give one back. -/
def starving : List (Nat × Act) :=
  [(1, .call .dequeueBuffer), (2, .call .cancelBuffer), (1, .acquire), (1, .run .fitting),
    (1, .run .fitting), (1, .dispatched false), (1, .run .fitting), (1, .run .fitting)]

theorem readers_alone_starving : Always step Alone (start 0) starving :=
  readers_alone 0 starving (by decide)

/-- The release of a posted buffer gives the mutex away in the middle of a dispatch. -/
example : ((exec step (start 0) (starving ++ [(1, .event .releasePosted), (2, .acquire),
    (2, .run .fitting)])).map (fun s => s.shared.syncs)) = some 1 := by decide

def Outside (pc : Pc) : Prop := pc = .idle ∨ ∃ op, pc = .locking op

theorem Inv.outside (hi : Inv s) (ho : s.shared.owner = some t) (hv : v ≠ t) :
    Outside (s.pc v) := by
  have hc := hi.quiet ho hv
  have hw := hi.waits v
  cases hpc : s.pc v with
  | idle => exact .inl rfl
  | locking op => exact .inr ⟨op, rfl⟩
  | parked site => rw [hpc] at hw; cases hw
  | woken site => rw [hpc] at hw; cases hw
  | _ => rw [hpc] at hc; cases hc

/-- What the others have done meanwhile: at most called something. -/
structure Blocked (t : Nat) (s u : State) : Prop where
  shared : u.shared = s.shared
  self : u.pc t = s.pc t
  others : ∀ v, v ≠ t → u.pc v = s.pc v ∨ s.pc v = .idle ∧ ∃ op, u.pc v = .locking op

theorem blocked_step {s₀ : State} {act : Act} (ho : s₀.shared.owner = some t)
    (hout : ∀ v, v ≠ t → Outside (s₀.pc v)) (hb : Blocked t s₀ s) (hv : v ≠ t)
    (h : step s (v, act) = some u) : Blocked t s₀ u := by
  have hso : s.shared.owner = some t := by rw [hb.shared, ho]
  have hsv : Outside (s.pc v) := by
    rcases hb.others v hv with he | ⟨-, op, he⟩
    · rw [he]
      exact hout v hv
    · exact .inr ⟨op, he⟩
  cases step_cases h with
  | call op hpc =>
    refine ⟨hb.shared, (set_pc_of_ne _ _ hv.symm).trans hb.self, fun x hx => ?_⟩
    by_cases hxv : x = v
    · subst hxv
      refine .inr ⟨?_, op, set_pc_self _ _ _⟩
      rcases hb.others x hx with he | ⟨-, op', he⟩
      · rw [← he, hpc]
      · rw [hpc] at he
        cases he
    · rw [set_pc_of_ne _ _ hxv]
      exact hb.others x hx
  | acquire op hpc hfree =>
    rw [hso] at hfree
    cases hfree
  | within op found hpc | entering site found hpc | event site e hpc | dispatched site error hpc
  | returned site error found hpc | wake site hpc | resume site found hpc hfree
  | callback op e hpc | roundtrip op found hpc =>
    rw [hpc] at hsv
    rcases hsv with he | ⟨op', he⟩ <;> cases he

/-- While a thread is inside of the mutex, and that is all through its dispatches,
nothing that the others do comes any further: not one of them gets into its call,
so that a buffer the thread may be waiting for is not given back by `cancelBuffer`
either. Only an event can end the wait. -/
theorem others_blocked (freeBufs : Int) (as bs : List (Nat × Act)) (s u : State) (t : Nat)
    (hg : Guarded step NoPostedRelease (start freeBufs) as)
    (hs : exec step (start freeBufs) as = some s) (hd : (s.pc t).critical = true)
    (hb : ∀ b ∈ bs, b.1 ≠ t) (hu : exec step s bs = some u) : Blocked t s u := by
  have hi : Inv s := inv_run freeBufs as hg as s List.prefix_rfl hs
  have ho := hi.owner t hd
  have hout : ∀ v, v ≠ t → Outside (s.pc v) := fun v hv => hi.outside ho hv
  have hrun : ∀ (r : State) (bs : List (Nat × Act)), Blocked t s r → (∀ b ∈ bs, b.1 ≠ t) →
      exec step r bs = some u → Blocked t s u := by
    intro r bs
    induction bs generalizing r with
    | nil =>
      intro hr _ hu
      cases hu
      exact hr
    | cons b bs ih =>
      intro hr hne hu
      obtain ⟨q, hq, hu⟩ := Option.bind_eq_some_iff.mp hu
      have hstep := blocked_step ho hout hr (hne b (List.mem_cons_self ..)) hq
      exact ih q hstep (fun c hc => hne c (List.mem_cons_of_mem _ hc)) hu
  exact hrun s bs ⟨rfl, rfl, fun _ _ => .inl rfl⟩ hb hu

theorem others_blocked_starving :
    ∃ s u, exec step (start 0) starving = some s ∧
      exec step s [(3, .call .finishSwap)] = some u ∧ Blocked 1 s u := by
  obtain ⟨s, hs⟩ := Option.isSome_iff_exists.mp
    (show (exec step (start 0) starving).isSome by decide)
  obtain ⟨u, hu⟩ := Option.isSome_iff_exists.mp
    (show ((exec step (start 0) starving).bind
      (fun s => exec step s [(3, .call .finishSwap)])).isSome by decide)
  rw [hs, Option.bind_some] at hu
  have hd : (s.pc 1).critical = true := by
    have h : (exec step (start 0) starving).map (fun s => (s.pc 1).critical) = some true := by
      decide
    rw [hs] at h
    exact Option.some.inj h
  exact ⟨s, u, hs, hu, others_blocked 0 starving [(3, .call .finishSwap)] s u 1 (by decide) hs hd
    (by decide) hu⟩

end FakeLibc.WaylandReadQueue

import FakeLibc.Lib.Listeners
import FakeLibc.Lib.Run

namespace FakeLibc.WaylandCallbacks

open FakeLibc.Lib.Run FakeLibc.Lib.Listeners

/-- A buffer is in the window's list, or wraps one of `postBuffer`, or lies on
the stack of `waylandws_createWlBuffer`. -/
inductive Kind
  | listed
  | wrapper
  | temporary
deriving DecidableEq

/-- `owned` is the reference of the window, or the life of a stack frame. The
other references are those of `clients`. -/
structure Buf where
  kind : Kind
  owned : Bool
  clients : Nat
  wlbuffer : Bool
  creationCallback : Option Nat

def Buf.alive (x : Buf) : Bool := x.owned || decide (0 < x.clients)

structure Roundtrip where
  running : Bool
  done : Bool
  callback : Nat

def Roundtrip.slot (x : Roundtrip) : Option Nat :=
  if x.running && !x.done then some x.callback else none

inductive Target
  | creationCallback (b : Nat)
  | done (r : Nat)
deriving DecidableEq

/-- All buffers and calls of a connection, and its callbacks that are pending. -/
structure Display where
  bufs : Nat → Buf
  nextBuf : Nat
  destroying : List Nat
  roundtrips : Nat → Roundtrip
  nextRoundtrip : Nat
  pending : Nat → Option Target
  nextCallback : Nat

def Display.alive (d : Display) : Target → Bool
  | .creationCallback b => (d.bufs b).alive
  | .done r => (d.roundtrips r).running

def Display.setBuf (d : Display) (b : Nat) (x : Buf) : Display :=
  { d with bufs := Function.update d.bufs b x }

def addBuffer (d : Display) (kind : Kind) : Display :=
  { d with
    bufs := Function.update d.bufs d.nextBuf ⟨kind, true, 0, false, none⟩
    nextBuf := d.nextBuf + 1 }

def wlbufferFromNativeHandle (d : Display) (b : Nat) : Display :=
  { d with
    bufs := Function.update d.bufs b
      { d.bufs b with wlbuffer := true, creationCallback := some d.nextCallback }
    pending := Function.update d.pending d.nextCallback (some (.creationCallback b))
    nextCallback := d.nextCallback + 1 }

/-- `waylandws_createWlBuffer` up to its return. -/
def createWlBuffer (d : Display) : Display :=
  wlbufferFromNativeHandle (addBuffer d .temporary) d.nextBuf

/-- `destroyBuffer` from the end of its loop on. -/
def endDestroy (d : Display) (b : Nat) : Display :=
  { d with
    pending :=
      match (d.bufs b).creationCallback with
      | some i => Function.update d.pending i none
      | none => d.pending
    bufs := Function.update d.bufs b
      { d.bufs b with creationCallback := none, wlbuffer := false, owned := false }
    destroying := d.destroying.erase b }

def destroyBuffer (d : Display) (b : Nat) : Display :=
  if (d.bufs b).creationCallback.isSome then { d with destroying := b :: d.destroying }
  else endDestroy d b

def destroyRead (d : Display) (b : Nat) (error : Bool) : Display :=
  if !error && (d.bufs b).creationCallback.isSome then d else endDestroy d b

def waylandRoundtrip (d : Display) : Display :=
  { d with
    roundtrips := Function.update d.roundtrips d.nextRoundtrip ⟨true, false, d.nextCallback⟩
    nextRoundtrip := d.nextRoundtrip + 1
    pending := Function.update d.pending d.nextCallback (some (.done d.nextRoundtrip))
    nextCallback := d.nextCallback + 1 }

def roundtripRead (d : Display) (r : Nat) (error : Bool) : Display :=
  if error || (d.roundtrips r).done then
    { d with
      roundtrips := Function.update d.roundtrips r { d.roundtrips r with running := false } }
  else d

def syncCallback (d : Display) (i : Nat) : Display :=
  match d.pending i with
  | some (.creationCallback b) =>
    { d with
      bufs := Function.update d.bufs b { d.bufs b with creationCallback := none }
      pending := Function.update d.pending i none }
  | some (.done r) =>
    { d with
      roundtrips := Function.update d.roundtrips r { d.roundtrips r with done := true }
      pending := Function.update d.pending i none }
  | none => d

inductive Action
  | addBuffer
  | postBuffer
  | incRef (b : Nat)
  | decRef (b : Nat)
  | wlbufferFromNativeHandle (b : Nat)
  | createWlBuffer
  | createWlBufferReturns (b : Nat)
  | destroyBuffer (b : Nat)
  | destroyRead (b : Nat) (error : Bool)
  | waylandRoundtrip
  | roundtripRead (r : Nat) (error : Bool)
  | syncCallback (i : Nat)

/-- A client gives back the references that it took. A listener that writes to
what is gone ends the run. -/
def Display.enabled (d : Display) : Action → Bool
  | .incRef b => (d.bufs b).alive && decide ((d.bufs b).kind ≠ .temporary)
  | .decRef b => decide (0 < (d.bufs b).clients)
  | .wlbufferFromNativeHandle b =>
    (d.bufs b).alive && decide ((d.bufs b).kind ≠ .temporary) && !(d.bufs b).wlbuffer
  | .createWlBufferReturns b => decide ((d.bufs b).kind = .temporary) && (d.bufs b).owned
  | .destroyBuffer b =>
    decide ((d.bufs b).kind = .listed) && (d.bufs b).owned && decide (b ∉ d.destroying)
  | .destroyRead b _ => decide (b ∈ d.destroying)
  | .roundtripRead r _ => (d.roundtrips r).running
  | .syncCallback i => (d.pending i).any d.alive
  | _ => true

def Display.perform (d : Display) : Action → Display
  | .addBuffer => WaylandCallbacks.addBuffer d .listed
  | .postBuffer => WaylandCallbacks.addBuffer d .wrapper
  | .incRef b => d.setBuf b { d.bufs b with clients := (d.bufs b).clients + 1 }
  | .decRef b => d.setBuf b { d.bufs b with clients := (d.bufs b).clients - 1 }
  | .wlbufferFromNativeHandle b => WaylandCallbacks.wlbufferFromNativeHandle d b
  | .createWlBuffer => WaylandCallbacks.createWlBuffer d
  | .createWlBufferReturns b => d.setBuf b { d.bufs b with owned := false }
  | .destroyBuffer b => WaylandCallbacks.destroyBuffer d b
  | .destroyRead b error => WaylandCallbacks.destroyRead d b error
  | .waylandRoundtrip => WaylandCallbacks.waylandRoundtrip d
  | .roundtripRead r error => WaylandCallbacks.roundtripRead d r error
  | .syncCallback i => WaylandCallbacks.syncCallback d i

def Display.step (d : Display) (a : Action) : Option Display :=
  if d.enabled a then some (d.perform a) else none

def Display.start : Display where
  bufs := fun _ => ⟨.listed, false, 0, false, none⟩
  nextBuf := 0
  destroying := []
  roundtrips := fun _ => ⟨false, false, 0⟩
  nextRoundtrip := 0
  pending := fun _ => none
  nextCallback := 0

/-- Every pending callback writes to what is alive. -/
def Targets (d : Display) : Prop := Safe d.pending (fun x => d.alive x = true)

/-- What ends without `destroyBuffer` ends when its event has been dispatched. -/
def Awaits (d : Display) : Action → Prop
  | .decRef b =>
    (d.bufs b).clients = 1 → (d.bufs b).owned = false → (d.bufs b).creationCallback = none
  | .createWlBufferReturns b => (d.bufs b).creationCallback = none
  | .roundtripRead r true => (d.roundtrips r).done = true
  | _ => True

def Display.slot (d : Display) : Target → Option Nat
  | .creationCallback b => (d.bufs b).creationCallback
  | .done r => (d.roundtrips r).slot

structure Inv (d : Display) : Prop where
  paired : Paired d.pending d.slot
  live : ∀ b, (d.bufs b).creationCallback.isSome → (d.bufs b).alive
  clean : ∀ b, (d.bufs b).wlbuffer = false → (d.bufs b).creationCallback = none
  lone : ∀ b, (d.bufs b).kind = .temporary → (d.bufs b).clients = 0
  newBuf : ∀ b, d.nextBuf ≤ b → (d.bufs b).alive = false
  newRoundtrip : ∀ r, d.nextRoundtrip ≤ r → (d.roundtrips r).running = false
  newCallback : ∀ i, d.nextCallback ≤ i → d.pending i = none

structure Buf.Sound (x : Buf) : Prop where
  live : x.creationCallback.isSome → x.alive
  clean : x.wlbuffer = false → x.creationCallback = none
  lone : x.kind = .temporary → x.clients = 0

section Slot

variable (d : Display)

theorem slot_setBuf (b : Nat) (x : Buf) :
    (d.setBuf b x).slot = Function.update d.slot (.creationCallback b) x.creationCallback := by
  funext y
  cases y with
  | creationCallback c =>
    by_cases hc : c = b
    · simp [Display.slot, Display.setBuf, hc]
    · simp [Display.slot, Display.setBuf, hc]
  | done r => simp [Display.slot, Display.setBuf]

theorem slot_setRoundtrip (r : Nat) (x : Roundtrip) :
    { d with roundtrips := Function.update d.roundtrips r x }.slot =
      Function.update d.slot (.done r) x.slot := by
  funext y
  cases y with
  | creationCallback b => simp [Display.slot]
  | done q =>
    by_cases hq : q = r
    · simp [Display.slot, hq]
    · simp [Display.slot, hq]

end Slot

section Inv

variable {d : Display} {b r i : Nat} {x : Buf}

theorem Inv.sound (hi : Inv d) (b : Nat) : (d.bufs b).Sound := ⟨hi.live b, hi.clean b, hi.lone b⟩

theorem Inv.lt_nextBuf (hi : Inv d) (hb : (d.bufs b).alive = true) : b < d.nextBuf := by
  refine Nat.not_le.mp fun hle => ?_
  rw [hi.newBuf b hle] at hb
  cases hb

theorem Inv.callback_newBuf (hi : Inv d) (hb : d.nextBuf ≤ b) :
    (d.bufs b).creationCallback = none := by
  refine Option.not_isSome_iff_eq_none.mp fun hsome => ?_
  exact absurd (hi.lt_nextBuf (hi.live b hsome)) (Nat.not_lt.mpr hb)

theorem Inv.setBuf (hi : Inv d) (hx : x.Sound) {n m : Nat} {destroying : List Nat}
    {pending : Nat → Option Target}
    (hp : Paired pending (Function.update d.slot (.creationCallback b) x.creationCallback))
    (hn : d.nextBuf ≤ n) (hb : x.alive → b < n)
    (hfree : ∀ i, m ≤ i → pending i = none) :
    Inv ⟨Function.update d.bufs b x, n, destroying, d.roundtrips, d.nextRoundtrip, pending, m⟩ := by
  have hbufs : ∀ c, Function.update d.bufs b x c = x ∧ c = b ∨
      Function.update d.bufs b x c = d.bufs c ∧ c ≠ b := by
    intro c
    by_cases hc : c = b
    · exact .inl ⟨hc ▸ Function.update_self .., hc⟩
    · exact .inr ⟨Function.update_of_ne hc .., hc⟩
  have hsound : ∀ c, (Function.update d.bufs b x c).Sound := by
    intro c
    obtain ⟨heq, _⟩ | ⟨heq, _⟩ := hbufs c
    · rw [heq]
      exact hx
    · rw [heq]
      exact hi.sound c
  refine ⟨?_, fun c => (hsound c).live, fun c => (hsound c).clean, fun c => (hsound c).lone, ?_,
    hi.newRoundtrip, hfree⟩
  · rw [← slot_setBuf] at hp
    exact hp
  · intro c hc
    obtain ⟨heq, rfl⟩ | ⟨heq, _⟩ := hbufs c
    · refine (congrArg Buf.alive heq).trans (Bool.eq_false_iff.mpr fun ha => ?_)
      exact absurd (hb ha) (Nat.not_lt.mpr hc)
    · exact (congrArg Buf.alive heq).trans (hi.newBuf c (Nat.le_trans hn hc))

theorem Inv.change (hi : Inv d) (hx : x.Sound)
    (hcallback : x.creationCallback = (d.bufs b).creationCallback)
    (hb : x.alive → (d.bufs b).alive) : Inv (d.setBuf b x) := by
  refine hi.setBuf hx ?_ (Nat.le_refl _) (fun ha => hi.lt_nextBuf (hb ha)) hi.newCallback
  have hsame : d.slot (.creationCallback b) = x.creationCallback := hcallback.symm
  rw [← hsame, Function.update_eq_self]
  exact hi.paired

theorem Inv.addBuffer (hi : Inv d) (kind : Kind) : Inv (addBuffer d kind) := by
  have hx : Buf.Sound ⟨kind, true, 0, false, none⟩ := ⟨fun _ => rfl, fun _ => rfl, fun _ => rfl⟩
  refine hi.setBuf hx ?_ (Nat.le_succ _) (fun _ => Nat.lt_succ_self _) hi.newCallback
  exact hi.paired.untouched (hi.callback_newBuf (Nat.le_refl _))

theorem pending_register (hi : Inv d) (y : Target) (j : Nat) (hj : d.nextCallback + 1 ≤ j) :
    Function.update d.pending d.nextCallback (some y) j = none := by
  rw [Function.update_of_ne (by omega)]
  exact hi.newCallback j (by omega)

theorem pending_remove (hi : Inv d) (i j : Nat) (hj : d.nextCallback ≤ j) :
    Function.update d.pending i none j = none := by
  rw [Function.update_apply, hi.newCallback j hj, ite_self]

theorem Inv.wlbufferFromNativeHandle (hi : Inv d) (hb : (d.bufs b).alive = true)
    (hw : (d.bufs b).wlbuffer = false) : Inv (wlbufferFromNativeHandle d b) := by
  have hx : Buf.Sound
      { d.bufs b with wlbuffer := true, creationCallback := some d.nextCallback } :=
    ⟨fun _ => hb, Bool.noConfusion, hi.lone b⟩
  refine hi.setBuf hx ?_ (Nat.le_refl _) (fun _ => hi.lt_nextBuf hb) (pending_register hi _)
  exact hi.paired.register (hi.newCallback _ (Nat.le_refl _)) (hi.clean b hw)

theorem Inv.createWlBuffer (hi : Inv d) : Inv (createWlBuffer d) := by
  refine (hi.addBuffer .temporary).wlbufferFromNativeHandle ?_ ?_
  · simp [WaylandCallbacks.addBuffer, Buf.alive]
  · simp [WaylandCallbacks.addBuffer]

theorem Inv.endDestroy (hi : Inv d) (b : Nat) : Inv (endDestroy d b) := by
  have hx : Buf.Sound
      { d.bufs b with creationCallback := none, wlbuffer := false, owned := false } :=
    ⟨Bool.noConfusion, fun _ => rfl, hi.lone b⟩
  refine hi.setBuf hx ?_ (Nat.le_refl _) (fun ha => hi.lt_nextBuf ?_) ?_
  · cases hc : (d.bufs b).creationCallback with
    | none => exact hi.paired.untouched hc
    | some i => exact hi.paired.remove hc
  · have hclients : decide (0 < (d.bufs b).clients) = true := by simpa [Buf.alive] using ha
    rw [Buf.alive, hclients, Bool.or_true]
  · cases hc : (d.bufs b).creationCallback with
    | none => exact hi.newCallback
    | some i => exact pending_remove hi i

theorem Inv.destroying (hi : Inv d) (destroying : List Nat) :
    Inv { d with destroying := destroying } :=
  ⟨hi.paired, hi.live, hi.clean, hi.lone, hi.newBuf, hi.newRoundtrip, hi.newCallback⟩

theorem Inv.destroyBuffer (hi : Inv d) (b : Nat) : Inv (destroyBuffer d b) := by
  rw [WaylandCallbacks.destroyBuffer]
  split
  · exact hi.destroying _
  · exact hi.endDestroy b

theorem Inv.destroyRead (hi : Inv d) (b : Nat) (error : Bool) : Inv (destroyRead d b error) := by
  rw [WaylandCallbacks.destroyRead]
  split
  · exact hi
  · exact hi.endDestroy b

theorem Inv.setRoundtrip (hi : Inv d) {x : Roundtrip} {n m : Nat} {pending : Nat → Option Target}
    (hp : Paired pending (Function.update d.slot (.done r) x.slot))
    (hn : d.nextRoundtrip ≤ n) (hr : x.running → r < n)
    (hfree : ∀ i, m ≤ i → pending i = none) :
    Inv ⟨d.bufs, d.nextBuf, d.destroying, Function.update d.roundtrips r x, n, pending, m⟩ := by
  refine ⟨?_, hi.live, hi.clean, hi.lone, hi.newBuf, fun q hq => ?_, hfree⟩
  · rw [← slot_setRoundtrip] at hp
    exact hp
  · by_cases hqr : q = r
    · subst hqr
      refine (congrArg Roundtrip.running (Function.update_self ..)).trans ?_
      exact Bool.eq_false_iff.mpr fun hrun => absurd (hr hrun) (Nat.not_lt.mpr hq)
    · refine (congrArg Roundtrip.running (Function.update_of_ne hqr ..)).trans ?_
      exact hi.newRoundtrip q (Nat.le_trans hn hq)

theorem Inv.waylandRoundtrip (hi : Inv d) : Inv (waylandRoundtrip d) := by
  refine hi.setRoundtrip ?_ (Nat.le_succ _) (fun _ => Nat.lt_succ_self _) (pending_register hi _)
  refine hi.paired.register (hi.newCallback _ (Nat.le_refl _)) ?_
  have hrun := hi.newRoundtrip _ (Nat.le_refl d.nextRoundtrip)
  rw [Display.slot, Roundtrip.slot, hrun]
  rfl

theorem Inv.lt_nextRoundtrip (hi : Inv d) (hr : (d.roundtrips r).running = true) :
    r < d.nextRoundtrip := by
  refine Nat.not_le.mp fun hle => ?_
  rw [hi.newRoundtrip r hle] at hr
  cases hr

theorem slot_of_done {x : Roundtrip} (h : x.done = true) : x.slot = none := by
  rw [Roundtrip.slot, h, Bool.not_true, Bool.and_false]
  rfl

theorem Inv.roundtripRead (hi : Inv d) {error : Bool}
    (hdone : error = true → (d.roundtrips r).done = true) : Inv (roundtripRead d r error) := by
  rw [WaylandCallbacks.roundtripRead]
  split
  next h =>
    have hdone : (d.roundtrips r).done = true := (Bool.or_eq_true_iff.mp h).elim hdone id
    have hnone : ({ d.roundtrips r with running := false } : Roundtrip).slot = none :=
      slot_of_done hdone
    refine hi.setRoundtrip ?_ (Nat.le_refl _) Bool.noConfusion hi.newCallback
    exact hnone ▸ hi.paired.untouched (slot_of_done hdone)
  next => exact hi

theorem Inv.syncCallback (hi : Inv d) (i : Nat) : Inv (syncCallback d i) := by
  rw [WaylandCallbacks.syncCallback]
  split
  next b hb =>
    have hslot := (hi.paired i _).mp hb
    have hx : Buf.Sound { d.bufs b with creationCallback := none } :=
      ⟨Bool.noConfusion, fun _ => rfl, hi.lone b⟩
    exact hi.setBuf hx (hi.paired.remove hslot) (Nat.le_refl _) hi.lt_nextBuf (pending_remove hi i)
  next r hr =>
    have hslot := (hi.paired i _).mp hr
    refine hi.setRoundtrip ?_ (Nat.le_refl _) hi.lt_nextRoundtrip (pending_remove hi i)
    rw [slot_of_done rfl]
    exact hi.paired.remove hslot
  next => exact hi

end Inv

section Step

variable {d t : Display} {a : Action} {b r : Nat}

theorem Inv.targets (hi : Inv d) : Targets d := by
  refine hi.paired.safe fun x hx => ?_
  cases x with
  | creationCallback b => exact hi.live b hx
  | done r =>
    rw [Display.slot, Roundtrip.slot, Option.isSome_ite] at hx
    exact (Bool.and_eq_true_iff.mp hx).1

theorem Inv.decRef (hi : Inv d) (hb : 0 < (d.bufs b).clients) (hc : Awaits d (.decRef b)) :
    Inv (d.setBuf b { d.bufs b with clients := (d.bufs b).clients - 1 }) := by
  have halive : (d.bufs b).alive = true := by simp [Buf.alive, hb]
  refine hi.change ⟨fun hsome => ?_, hi.clean b, fun hkind => ?_⟩ rfl (fun _ => halive)
  · by_contra hdead
    simp only [Buf.alive, Bool.or_eq_true, decide_eq_true_eq, not_or, Bool.not_eq_true] at hdead
    have hnone := hc (by omega) hdead.1
    rw [hnone] at hsome
    cases hsome
  · have hlone : (d.bufs b).clients = 0 := hi.lone b hkind
    omega

theorem Inv.incRef (hi : Inv d) (hb : (d.bufs b).alive = true)
    (hk : (d.bufs b).kind ≠ .temporary) :
    Inv (d.setBuf b { d.bufs b with clients := (d.bufs b).clients + 1 }) := by
  refine hi.change ⟨fun _ => ?_, hi.clean b, fun hkind => absurd hkind hk⟩ rfl (fun _ => hb)
  simp [Buf.alive]

theorem Inv.createWlBufferReturns (hi : Inv d) (hb : (d.bufs b).owned = true)
    (hc : (d.bufs b).creationCallback = none) :
    Inv (d.setBuf b { d.bufs b with owned := false }) := by
  refine hi.change ⟨fun hsome => ?_, hi.clean b, hi.lone b⟩ rfl (fun _ => ?_)
  · rw [hc] at hsome
    cases hsome
  · rw [Buf.alive, hb, Bool.true_or]

theorem inv_step (hi : Inv d) (hc : Awaits d a) (h : d.step a = some t) : Inv t := by
  obtain ⟨he, ht⟩ := Option.ite_none_right_eq_some.mp h
  obtain rfl := Option.some.inj ht
  cases a with
  | addBuffer => exact hi.addBuffer .listed
  | postBuffer => exact hi.addBuffer .wrapper
  | incRef b =>
    obtain ⟨hb, hk⟩ := Bool.and_eq_true_iff.mp he
    exact hi.incRef hb (of_decide_eq_true hk)
  | decRef b => exact hi.decRef (of_decide_eq_true he) hc
  | wlbufferFromNativeHandle b =>
    obtain ⟨hb, hw⟩ := Bool.and_eq_true_iff.mp he
    exact hi.wlbufferFromNativeHandle (Bool.and_eq_true_iff.mp hb).1 (by simpa using hw)
  | createWlBuffer => exact hi.createWlBuffer
  | createWlBufferReturns b => exact hi.createWlBufferReturns (Bool.and_eq_true_iff.mp he).2 hc
  | destroyBuffer b => exact hi.destroyBuffer b
  | destroyRead b error => exact hi.destroyRead b error
  | waylandRoundtrip => exact hi.waylandRoundtrip
  | roundtripRead r error =>
    refine hi.roundtripRead ?_
    rintro rfl
    exact hc
  | syncCallback i => exact hi.syncCallback i

theorem not_targets_step (hi : Inv d) (hc : ¬ Awaits d a) (h : d.step a = some t) :
    ¬ Targets t := by
  obtain ⟨he, ht⟩ := Option.ite_none_right_eq_some.mp h
  obtain rfl := Option.some.inj ht
  cases a with
  | decRef b =>
    obtain ⟨hone, howned, hcallback⟩ : (d.bufs b).clients = 1 ∧ (d.bufs b).owned = false ∧
        (d.bufs b).creationCallback ≠ none := by
      simpa only [Awaits, Classical.not_imp] using hc
    have hslot : (d.slot (.creationCallback b)).isSome := Option.isSome_iff_ne_none.mpr hcallback
    refine hi.paired.not_safe hslot ?_
    simp [Display.perform, Display.alive, Display.setBuf, Buf.alive, hone, howned]
  | createWlBufferReturns b =>
    have hkind := of_decide_eq_true (Bool.and_eq_true_iff.mp he).1
    have hslot : (d.slot (.creationCallback b)).isSome := Option.isSome_iff_ne_none.mpr hc
    refine hi.paired.not_safe hslot ?_
    simp [Display.perform, Display.alive, Display.setBuf, Buf.alive, hi.lone b hkind]
  | roundtripRead r error =>
    cases error with
    | false => exact absurd trivial hc
    | true =>
      have hdone : (d.roundtrips r).done = false := Bool.eq_false_iff.mpr hc
      have hrun : (d.roundtrips r).running = true := he
      have hslot : (d.slot (.done r)).isSome := by
        simp [Display.slot, Roundtrip.slot, hdone, hrun]
      refine hi.paired.not_safe hslot ?_
      simp [Display.perform, Display.alive, roundtripRead]
  | _ => exact absurd trivial hc

theorem inv_start : Inv Display.start where
  paired := by
    have hslot : Display.start.slot = fun _ => none := by
      funext x
      cases x <;> rfl
    rw [hslot]
    exact paired_none
  live := nofun
  clean := fun _ _ => rfl
  lone := fun _ _ => rfl
  newBuf := fun _ _ => rfl
  newRoundtrip := fun _ _ => rfl
  newCallback := fun _ _ => rfl

end Step

/-- `destroyBuffer` never leaves a callback behind. The other ends of a target
do, unless its event was dispatched before. -/
theorem targets_iff_awaits (actions : List Action)
    (hrun : (exec Display.step .start actions).isSome) :
    Always Display.step Targets .start actions ↔ Guarded Display.step Awaits .start actions :=
  always_iff_guarded (fun _ hi => hi.targets) (fun _ _ _ => inv_step)
    (fun _ _ _ => not_targets_step) inv_start hrun

theorem targets_iff_awaits_oneBuffer :
    Always Display.step Targets .start
        [.addBuffer, .wlbufferFromNativeHandle 0, .waylandRoundtrip, .syncCallback 0,
          .syncCallback 1, .roundtripRead 0 false, .destroyBuffer 0] ↔
      Guarded Display.step Awaits .start
        [.addBuffer, .wlbufferFromNativeHandle 0, .waylandRoundtrip, .syncCallback 0,
          .syncCallback 1, .roundtripRead 0 false, .destroyBuffer 0] :=
  targets_iff_awaits _ rfl

/-- The temporary of `waylandws_createWlBuffer`, and the variable of a
`wayland_roundtrip` whose dispatch fails. -/
theorem not_targets_stack :
    ¬ Always Display.step Targets .start [.createWlBuffer, .createWlBufferReturns 0] ∧
    ¬ Always Display.step Targets .start [.waylandRoundtrip, .roundtripRead 0 true] := by
  constructor
  · intro h
    exact absurd (h _ _ List.prefix_rfl rfl 0 (.creationCallback 0) rfl) (by decide)
  · intro h
    exact absurd (h _ _ List.prefix_rfl rfl 0 (.done 0) rfl) (by decide)

end FakeLibc.WaylandCallbacks

import FakeLibc.FbDevStep

namespace FakeLibc.FbDevRequests

open FakeLibc.Lib.Run FakeLibc.FbDevWindow FakeLibc.FbDevStep

structure Request where
  usage : Nat
  format : Nat
  count : Nat
deriving DecidableEq

def request (w : Window) : Request := ⟨w.usage, w.bufFormat, w.bufferCount⟩

/-- The window with what was in force when its list was last allocated, if it
ever was. -/
structure Watched where
  win : Window
  inForce : Option Request

def Watched.allocates (s : Watched) : Call → Option Request
  | .dequeueBuffer _ => if s.win.allocateBuffers then some (request s.win) else s.inForce
  | _ => s.inForce

def Watched.step (legacy : Bool) (s : Watched) (c : Call) : Option Watched :=
  (FbDevWindow.step legacy s.win c).map (fun w => ⟨w, s.allocates c⟩)

def Watched.start (g : Garbage) (usage format framebuffers : Nat) : Watched :=
  ⟨fbDevNativeWindow g usage format framebuffers, none⟩

def Keeps (s : Watched) : Prop :=
  s.inForce ≠ some (request s.win) → s.win.allocateBuffers = true

/-- A dequeue has what was requested, and the other calls that read the counter
or the front buffer find that an allocation has set them. -/
def Served (s : Watched) : Call → Prop
  | .dequeueBuffer ok => s.allocates (.dequeueBuffer ok) = some (request s.win)
  | .wakeFree | .wakeBuf | .posted _ | .cancelBuffer _ => s.inForce ≠ none
  | _ => True

/-- `setUsage` with the usage that is set already comes when nothing has to be
allocated. -/
def Demands (s : Watched) : Call → Prop
  | .setUsage usage => usage = s.win.usage → s.inForce = some (request s.win)
  | _ => True

structure Inv (s : Watched) : Prop where
  keeps : Keeps s
  unused : s.inForce = none →
    s.win.waitFree = 0 ∧ s.win.waitBuf = 0 ∧ s.win.held = [] ∧ s.win.posting = []

section Step

variable {legacy : Bool} {s t : Watched} {c : Call}

theorem Inv.allocates_dequeue (hi : Inv s) (ok : Nat) :
    s.allocates (.dequeueBuffer ok) = some (request s.win) := by
  rw [Watched.allocates]
  split
  next => rfl
  next hflag =>
    by_contra hne
    exact hflag (hi.keeps hne)

theorem Inv.served (hi : Inv s) (he : Enabled s.win c) : Served s c := by
  cases c with
  | dequeueBuffer ok => exact hi.allocates_dequeue ok
  | wakeFree => exact fun hnone => Nat.ne_of_gt he (hi.unused hnone).1
  | wakeBuf => exact fun hnone => Nat.ne_of_gt he (hi.unused hnone).2.1
  | posted b => exact fun hnone => List.ne_nil_of_mem he (hi.unused hnone).2.2.2
  | cancelBuffer b => exact fun hnone => List.ne_nil_of_mem he (hi.unused hnone).2.2.1
  | _ => trivial

theorem allocates_ne_none (hi : Inv s) (hd : Dequeues c) (he : Enabled s.win c) :
    s.allocates c ≠ none := by
  cases c with
  | dequeueBuffer ok =>
    rw [hi.allocates_dequeue ok]
    exact Option.some_ne_none _
  | wakeFree => exact hi.served he
  | wakeBuf => exact hi.served he
  | _ => cases hd

theorem request_seen (w : Window) (c : Call) : request (seen w c) = request w :=
  seen_of_both (P := fun v => request v = request w) rfl (fun _ => rfl) c

theorem keeps_dequeued (hi : Inv s) (hd : Dequeues c) {w : Window}
    (hrequest : request w = request (seen s.win c))
    (hflag : w.allocateBuffers = (seen s.win c).allocateBuffers) : Keeps ⟨w, s.allocates c⟩ := by
  intro hne
  rw [hrequest, request_seen] at hne
  rw [hflag]
  cases c with
  | dequeueBuffer ok => exact absurd (hi.allocates_dequeue ok) hne
  | wakeFree => exact hi.keeps hne
  | wakeBuf => exact hi.keeps hne
  | _ => cases hd

theorem keeps_setUsage (s : Watched) (usage : Nat) :
    Keeps ⟨setUsage s.win usage, s.inForce⟩ ↔ Demands s (.setUsage usage) := by
  by_cases husage : usage = s.win.usage
  · subst husage
    have hflag : (setUsage s.win s.win.usage).allocateBuffers = false := by simp [setUsage]
    simp only [Keeps, Demands, hflag, Bool.false_eq_true, imp_false, Classical.not_not,
      forall_const]
    rfl
  · have hflag : (setUsage s.win usage).allocateBuffers = true := by
      simp [setUsage, Ne.symm husage]
    exact ⟨fun _ h => absurd h husage, fun _ _ => hflag⟩

theorem keeps_setBuffersFormat (hk : Keeps s) (format : Nat) :
    Keeps ⟨setBuffersFormat s.win format, s.inForce⟩ := by
  intro hne
  by_cases hformat : format = s.win.bufFormat
  · subst hformat
    have hflag : s.win.allocateBuffers = true := hk hne
    simp [setBuffersFormat, hflag]
  · simp [setBuffersFormat, hformat]

theorem keeps_setBufferCount (hk : Keeps s) (cnt : Nat) :
    Keeps ⟨setBufferCount s.win cnt, s.inForce⟩ := by
  rw [setBufferCount]
  split
  · exact fun _ => rfl
  · exact hk

theorem keeps_step (hi : Inv s) (h : s.step legacy c = some t) : Keeps t ↔ Demands s c := by
  obtain ⟨v, hv, rfl⟩ := Option.map_eq_some_iff.mp h
  by_cases hs : Sets c
  · obtain ⟨_, rfl⟩ := perform_of_step hv
    cases c with
    | setUsage usage => exact keeps_setUsage s usage
    | setBuffersFormat format => exact iff_of_true (keeps_setBuffersFormat hi.keeps format) trivial
    | setBufferCount cnt => exact iff_of_true (keeps_setBufferCount hi.keeps cnt) trivial
    | _ => cases hs
  · have hdemands : Demands s c := by
      cases c with
      | setUsage usage => exact absurd trivial hs
      | _ => trivial
    refine iff_of_true ?_ hdemands
    cases move_of_step hv with
    | handOut free buf hd hb => exact keeps_dequeued hi hd rfl rfl
    | wait free buf hd hb => exact keeps_dequeued hi hd rfl rfl
    | queue hb hbusy => exact hi.keeps
    | posted hb => exact hi.keeps
    | cancel hb => exact hi.keeps
    | set usage format count allocate hset => exact absurd hset hs

theorem inv_step (hi : Inv s) (hc : Demands s c) (h : s.step legacy c = some t) : Inv t := by
  refine ⟨(keeps_step hi h).mpr hc, ?_⟩
  obtain ⟨v, hv, rfl⟩ := Option.map_eq_some_iff.mp h
  obtain ⟨he, _⟩ := perform_of_step hv
  intro hnone
  cases move_of_step hv with
  | handOut free buf hd hb => exact absurd hnone (allocates_ne_none hi hd he)
  | wait free buf hd hb => exact absurd hnone (allocates_ne_none hi hd he)
  | queue hb hbusy => exact absurd (hi.unused hnone).2.2.1 (List.ne_nil_of_mem hb)
  | posted hb => exact absurd hnone (hi.served he)
  | cancel hb => exact absurd hnone (hi.served he)
  | set usage format count allocate hs =>
    cases c with
    | dequeueBuffer ok => cases hs
    | _ => exact hi.unused hnone

theorem inv_start (g : Garbage) (usage format framebuffers : Nat) :
    Inv (.start g usage format framebuffers) := by
  rw [Watched.start, fbDevNativeWindow, setBufferCount]
  split
  · exact ⟨fun _ => rfl, fun _ => ⟨rfl, rfl, rfl, rfl⟩⟩
  · exact ⟨fun _ => rfl, fun _ => ⟨rfl, rfl, rfl, rfl⟩⟩

end Step

/-- A request to allocate is lost only by a `setUsage` that changes nothing. -/
theorem keepsRequests_iff_demands (legacy : Bool) (g : Garbage) (usage format framebuffers : Nat)
    (calls : List Call)
    (hrun : (exec (Watched.step legacy) (.start g usage format framebuffers) calls).isSome) :
    (Always (Watched.step legacy) Keeps (.start g usage format framebuffers) calls ∧
      Guarded (Watched.step legacy) Served (.start g usage format framebuffers) calls) ↔
    Guarded (Watched.step legacy) Demands (.start g usage format framebuffers) calls := by
  have hstart := inv_start g usage format framebuffers
  constructor
  · rintro ⟨hkeeps, _⟩
    refine (always_iff_guarded (fun _ hi => hi.keeps) (fun _ _ _ => inv_step) ?_ hstart hrun).mp
      hkeeps
    exact fun s c t hi hc h hk => hc ((keeps_step hi h).mp hk)
  · intro hg
    have hinv := always_of_guarded (fun _ _ _ => inv_step) hstart hg
    refine ⟨hinv.mono (fun _ hi => hi.keeps), guarded_of_always ?_ hrun hinv⟩
    intro s c t hi _ h
    obtain ⟨v, hv, _⟩ := Option.map_eq_some_iff.mp h
    exact hi.served (perform_of_step hv).1

def cleared : Garbage := ⟨0, none, fun _ => 0⟩

theorem keepsRequests_iff_demands_twoDequeues :
    (Always (Watched.step false) Keeps (.start cleared 0x1000 5 2)
        [.dequeueBuffer 2, .setUsage 3, .dequeueBuffer 2] ∧
      Guarded (Watched.step false) Served (.start cleared 0x1000 5 2)
        [.dequeueBuffer 2, .setUsage 3, .dequeueBuffer 2]) ↔
    Guarded (Watched.step false) Demands (.start cleared 0x1000 5 2)
      [.dequeueBuffer 2, .setUsage 3, .dequeueBuffer 2] :=
  keepsRequests_iff_demands false cleared 0x1000 5 2 _ rfl

/-- The usage that is set already, on a new window, and then a dequeue. -/
theorem not_keepsRequests_sameUsage :
    ¬ (Always (Watched.step false) Keeps (.start cleared 0x1000 5 2)
        [.setUsage 0x1000, .dequeueBuffer 2] ∧
      Guarded (Watched.step false) Served (.start cleared 0x1000 5 2)
        [.setUsage 0x1000, .dequeueBuffer 2]) := by
  rintro ⟨_, hserved⟩
  have hnone : (none : Option Request) = some _ :=
    hserved [.setUsage 0x1000] _ _ List.prefix_rfl rfl
  cases hnone

end FakeLibc.FbDevRequests

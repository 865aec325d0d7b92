import FakeLibc.Lib.Counting
import FakeLibc.Lib.Run
import Mathlib.Logic.Function.Basic

namespace FakeLibc.ImageWrapping

open FakeLibc.Lib.Run

abbrev Ptr := Nat

/-- For the application the address of a wrapper, for the driver its own handle. -/
abbrev EGLImageKHR := Nat

abbrev EGLBoolean := Nat

def eglNoImageKHR : EGLImageKHR := 0

def eglTrue : EGLBoolean := 1

structure ImageSource where
  ctx : Nat
  target : Nat
  buffer : Nat
  attribList : List Int

structure EglImage where
  eglImage : EGLImageKHR
  eglBuffer : Nat
  target : Nat

/-- A call that reaches the driver, or the allocator. A call of the driver has
the image of the application that it is about. -/
inductive Event
  | create (dpy : Nat) (source : ImageSource) (eik image : EGLImageKHR)
  | destroy (dpy : Nat) (image passed : EGLImageKHR) (ret : EGLBoolean)
  | texture (target : Nat) (image passed : EGLImageKHR)
  | malloc (p : Ptr)
  | free (p : Ptr)

/-- `blocks` are the wrappers on the heap and `app` the images that the
application may use. The last event is the first in `log`. -/
structure State where
  mem : Ptr → EglImage
  blocks : List Ptr
  app : List EGLImageKHR
  log : List Event

def malloc (s : State) (p : Ptr) : State :=
  { s with blocks := p :: s.blocks, log := .malloc p :: s.log }

def free (s : State) (p : Ptr) : State :=
  if p = 0 then s else { s with blocks := s.blocks.erase p, log := .free p :: s.log }

def State.record (s : State) (e : Event) : State := { s with log := e :: s.log }

/-- The driver answers `eik`, and `malloc` would answer `p`. -/
def myEglCreateImageKHR (wsPassthroughImageKHR : ImageSource → ImageSource) (s : State)
    (dpy : Nat) (source : ImageSource) (eik : EGLImageKHR) (p : Ptr) : State × EGLImageKHR :=
  if eik = eglNoImageKHR then
    (s.record (.create dpy (wsPassthroughImageKHR source) eik eglNoImageKHR), eglNoImageKHR)
  else
    let s := malloc (s.record (.create dpy (wsPassthroughImageKHR source) eik p)) p
    ({ s with mem := Function.update s.mem p ⟨eik, source.buffer, source.target⟩ }, p)

def eglDestroyImageKHR (s : State) (dpy : Nat) (image : EGLImageKHR) (ret : EGLBoolean) :
    State × EGLBoolean :=
  let s := s.record (.destroy dpy image (if image = 0 then 0 else (s.mem image).eglImage) ret)
  if ret = eglTrue then (free s image, eglTrue) else (s, ret)

/-- The function of `egl.c`. -/
def myGlEGLImageTargetTexture2DOES (s : State) (target : Nat) (image : EGLImageKHR) : State :=
  s.record (.texture target image (if image = 0 then 0 else (s.mem image).eglImage))

/-- The one that `libGLESv2` exports. -/
def glEGLImageTargetTexture2DOES (s : State) (target : Nat) (image : EGLImageKHR) : State :=
  s.record (.texture target image (if image = 0 then 0 else (s.mem image).eglImage))

inductive Proc
  | myEglCreateImageKHR
  | eglDestroyImageKHR
  | myEglSwapBuffersWithDamageEXT
  | myGlEGLImageTargetTexture2DOES
  | found (address : Nat)

def eglGetProcAddress (lookup : String → Nat) (procname : String) : Proc :=
  if procname = "eglCreateImageKHR" then .myEglCreateImageKHR
  else if procname = "eglDestroyImageKHR" then .eglDestroyImageKHR
  else if procname = "eglSwapBuffersWithDamageEXT" then .myEglSwapBuffersWithDamageEXT
  else if procname = "glEGLImageTargetTexture2DOES" then .myGlEGLImageTargetTexture2DOES
  else .found (lookup procname)

/-- A call of the application, with what the driver and `malloc` answer, or a
write to memory that is no wrapper. -/
inductive Call
  | create (dpy : Nat) (source : ImageSource) (eik : EGLImageKHR) (p : Ptr)
  | destroy (dpy : Nat) (image : EGLImageKHR) (ret : EGLBoolean)
  | exported (target : Nat) (image : EGLImageKHR)
  | procAddress (target : Nat) (image : EGLImageKHR)
  | scribble (p : Ptr) (bytes : EglImage)

/-- The application uses its own images only. -/
def Enabled (s : State) : Call → Prop
  | .create _ _ eik p => eik ≠ eglNoImageKHR → p ≠ 0 ∧ p ∉ s.blocks
  | .destroy _ image _ | .exported _ image | .procAddress _ image =>
    image = eglNoImageKHR ∨ image ∈ s.app
  | .scribble p _ => p ∉ s.blocks

instance (s : State) (c : Call) : Decidable (Enabled s c) := by
  cases c <;> simp only [Enabled] <;> infer_instance

def perform (ws : ImageSource → ImageSource) (lookup : String → Nat) (s : State) : Call → State
  | .create dpy source eik p =>
    let (t, image) := myEglCreateImageKHR ws s dpy source eik p
    if image = eglNoImageKHR then t else { t with app := image :: t.app }
  | .destroy dpy image ret =>
    let (t, ret) := eglDestroyImageKHR s dpy image ret
    if ret = eglTrue then { t with app := t.app.erase image } else t
  | .exported target image => glEGLImageTargetTexture2DOES s target image
  | .procAddress target image =>
    match eglGetProcAddress lookup "glEGLImageTargetTexture2DOES" with
    | .myGlEGLImageTargetTexture2DOES => myGlEGLImageTargetTexture2DOES s target image
    | _ => s
  | .scribble p bytes => { s with mem := Function.update s.mem p bytes }

/-- A wrapper that `malloc` cannot make ends the process. -/
def step (ws : ImageSource → ImageSource) (lookup : String → Nat) (s : State) (c : Call) :
    Option State :=
  if Enabled s c then some (perform ws lookup s c) else none

def start (mem : Ptr → EglImage) : State := ⟨mem, [], [], []⟩

def created (log : List Event) (h : EGLImageKHR) : Nat :=
  log.countP (fun | .create _ _ eik _ => eik = h | _ => false)

def destroyed (log : List Event) (h : EGLImageKHR) : Nat :=
  log.countP (fun | .destroy _ _ passed ret => passed = h ∧ ret = eglTrue | _ => false)

def handleOf : List Event → EGLImageKHR → EGLImageKHR
  | [], _ => eglNoImageKHR
  | .create _ _ eik image' :: log, image => if image' = image then eik else handleOf log image
  | _ :: log, image => handleOf log image

def holding (log : List Event) (app : List EGLImageKHR) (h : EGLImageKHR) : Nat :=
  app.countP (fun image => handleOf log image = h)

def Proper (log : List Event) : Event → Prop
  | .destroy _ image passed _ | .texture _ image passed =>
    passed = handleOf log image ∧
      (passed = eglNoImageKHR ∨ destroyed log passed < created log passed)
  | _ => True

def mallocs (log : List Event) (p : Ptr) : Nat :=
  log.countP (fun | .malloc q => q = p | _ => false)

def frees (log : List Event) (p : Ptr) : Nat :=
  log.countP (fun | .free q => q = p | _ => false)

def ended (log : List Event) (image : EGLImageKHR) : Nat :=
  log.countP (fun | .destroy _ image' _ ret => image' = image ∧ ret = eglTrue | _ => false)

/-- The driver cannot tell, and every wrapper is freed when its image ends. -/
structure Invisible (s : State) : Prop where
  proper : ∀ e before, e :: before <:+ s.log → Proper before e
  freed : ∀ p ≠ 0, frees s.log p = ended s.log p
  wrappers : ∀ p, mallocs s.log p = frees s.log p + s.app.count p
  nodup : s.app.Nodup

/-- What a call asks of the driver. Both texture functions ask the same. -/
def driverCall (ws : ImageSource → ImageSource) (log : List Event) : Call → Option Event
  | .create dpy source eik p =>
    some (.create dpy (ws source) eik (if eik = eglNoImageKHR then eglNoImageKHR else p))
  | .destroy dpy image ret => some (.destroy dpy image (handleOf log image) ret)
  | .exported target image | .procAddress target image =>
    some (.texture target image (handleOf log image))
  | .scribble _ _ => none

/-- Every call of the application reaches the driver, with its handle for the image. -/
def Forwards (ws : ImageSource → ImageSource) (lookup : String → Nat) (s : State) : Prop :=
  ∀ c, Enabled s c → ∀ e ∈ driverCall ws s.log c, e :: s.log <:+ (perform ws lookup s c).log

/-- The invariant: the application's images are the wrappers on the heap, and
each has a handle that the driver has returned once more than destroyed. -/
structure Inv (s : State) : Prop where
  blocks : s.blocks = s.app
  null : eglNoImageKHR ∉ s.app
  mem : ∀ p ∈ s.app, (s.mem p).eglImage = handleOf s.log p
  noImage : handleOf s.log eglNoImageKHR = eglNoImageKHR
  live : ∀ h ≠ eglNoImageKHR,
    created s.log h = destroyed s.log h + holding s.log s.app h
  invisible : Invisible s

theorem inv_start (mem : Ptr → EglImage) : Inv (start mem) where
  blocks := rfl
  null := List.not_mem_nil
  mem := fun _ hp => absurd hp List.not_mem_nil
  noImage := rfl
  live := fun _ _ => rfl
  invisible := by
    refine ⟨fun e before h => ?_, fun _ _ => rfl, fun _ => rfl, List.nodup_nil⟩
    exact absurd (List.suffix_nil.mp h) (List.cons_ne_nil e before)

theorem holding_congr {log log' : List Event} {app : List EGLImageKHR}
    (h : ∀ image ∈ app, handleOf log' image = handleOf log image) (eik : EGLImageKHR) :
    holding log' app eik = holding log app eik := by
  apply List.countP_congr
  intro image himage
  rw [h image himage]

theorem holding_cons (log : List Event) (app : List EGLImageKHR) (image h : EGLImageKHR) :
    holding log (image :: app) h = holding log app h + if handleOf log image = h then 1 else 0 := by
  simp [holding, List.countP_cons]

theorem app_free (s : State) (p : Ptr) : (free s p).app = s.app := by
  unfold free
  split <;> rfl

theorem proper_cons {log : List Event} {e : Event}
    (h : ∀ e before, e :: before <:+ log → Proper before e) (he : Proper log e) :
    ∀ e' before, e' :: before <:+ e :: log → Proper before e' := by
  intro e' before hs
  obtain hs | hs := List.suffix_cons_iff.mp hs
  · obtain ⟨rfl, rfl⟩ := List.cons.inj hs
    exact he
  · exact h e' before hs

section Step

variable {s : State} {image : EGLImageKHR}

theorem Inv.passed (hs : Inv s) (h : image = eglNoImageKHR ∨ image ∈ s.app) :
    (if image = 0 then 0 else (s.mem image).eglImage) = handleOf s.log image := by
  by_cases h0 : image = 0
  · rw [if_pos h0, h0]
    exact hs.noImage.symm
  · rw [if_neg h0]
    exact hs.mem image (h.resolve_left h0)

theorem Inv.known (hs : Inv s) (h : image = eglNoImageKHR ∨ image ∈ s.app) :
    handleOf s.log image = eglNoImageKHR ∨
      destroyed s.log (handleOf s.log image) < created s.log (handleOf s.log image) := by
  by_cases h0 : handleOf s.log image = eglNoImageKHR
  · exact .inl h0
  · right
    have hmem : image ∈ s.app := by
      refine h.resolve_left (fun himage => h0 ?_)
      rw [himage]
      exact hs.noImage
    have hpos : 0 < holding s.log s.app (handleOf s.log image) :=
      List.countP_pos_iff.mpr ⟨image, hmem, decide_eq_true rfl⟩
    have hlive := hs.live _ h0
    omega

theorem inv_texture (hs : Inv s) (target : Nat) (h : image = eglNoImageKHR ∨ image ∈ s.app) :
    Inv (s.record (.texture target image
      (if image = 0 then 0 else (s.mem image).eglImage))) := by
  rw [hs.passed h]
  refine ⟨hs.blocks, hs.null, hs.mem, hs.noImage, hs.live, ?_, hs.invisible.freed,
    hs.invisible.wrappers, hs.invisible.nodup⟩
  exact proper_cons hs.invisible.proper ⟨rfl, hs.known h⟩

theorem inv_create_none (hs : Inv s) (dpy : Nat) (source : ImageSource) :
    Inv (s.record (.create dpy source eglNoImageKHR eglNoImageKHR)) := by
  have hhandle : ∀ p ∈ s.app,
      handleOf (.create dpy source eglNoImageKHR eglNoImageKHR :: s.log) p = handleOf s.log p := by
    intro p hp
    apply if_neg
    rintro rfl
    exact hs.null hp
  refine ⟨hs.blocks, hs.null, fun p hp => ?_, if_pos rfl, fun h h0 => ?_, ?_,
    hs.invisible.freed, hs.invisible.wrappers, hs.invisible.nodup⟩
  · exact (hs.mem p hp).trans (hhandle p hp).symm
  · have hlive := hs.live h h0
    simp only [State.record, holding_congr hhandle]
    simpa [created, destroyed, Ne.symm h0] using hlive
  · exact proper_cons hs.invisible.proper trivial

theorem inv_create_some (hs : Inv s) (dpy : Nat) (source : ImageSource) (eik : EGLImageKHR)
    {p : Ptr} (hp0 : p ≠ 0) (hp : p ∉ s.blocks) (b t : Nat) :
    Inv { malloc (s.record (.create dpy source eik p)) p with
      mem := Function.update s.mem p ⟨eik, b, t⟩
      app := p :: s.app } := by
  have hnot : p ∉ s.app := hs.blocks ▸ hp
  have hself : handleOf (.malloc p :: .create dpy source eik p :: s.log) p = eik := if_pos rfl
  have hother : ∀ q ∈ s.app,
      handleOf (.malloc p :: .create dpy source eik p :: s.log) q = handleOf s.log q := by
    intro q hq
    apply if_neg
    rintro rfl
    exact hnot hq
  refine ⟨?_, ?_, ?_, ?_, ?_, ?_, ?_, ?_, ?_⟩
  · exact congrArg (p :: ·) hs.blocks
  · exact List.not_mem_cons_of_ne_of_not_mem (Ne.symm hp0) hs.null
  · intro q hq
    obtain rfl | hq := List.mem_cons.mp hq
    · exact (congrArg EglImage.eglImage (Function.update_self ..)).trans hself.symm
    · have hqp : q ≠ p := fun hqp => hnot (hqp ▸ hq)
      have hmem := hs.mem q hq
      exact (congrArg EglImage.eglImage (Function.update_of_ne hqp ..)).trans
        (hmem.trans (hother q hq).symm)
  · exact (if_neg hp0).trans hs.noImage
  · intro h h0
    have hlive := hs.live h h0
    simp only [malloc, State.record, holding_cons, holding_congr hother, hself]
    simp only [created, destroyed, List.countP_cons, decide_eq_true_eq, Bool.false_eq_true,
      ↓reduceIte] at hlive ⊢
    omega
  · exact proper_cons (proper_cons hs.invisible.proper trivial) trivial
  · intro q hq
    simpa [malloc, State.record, frees, ended] using hs.invisible.freed q hq
  · intro q
    have hw := hs.invisible.wrappers q
    simp only [malloc, State.record, mallocs, frees, List.countP_cons, List.count_cons,
      decide_eq_true_eq, beq_iff_eq, Bool.false_eq_true, ↓reduceIte] at hw ⊢
    omega
  · exact List.nodup_cons.mpr ⟨hnot, hs.invisible.nodup⟩

theorem inv_destroy_kept (hs : Inv s) (dpy : Nat) {ret : EGLBoolean}
    (h : image = eglNoImageKHR ∨ image ∈ s.app) (hkeep : image = eglNoImageKHR ∨ ret ≠ eglTrue) :
    Inv (s.record (.destroy dpy image (handleOf s.log image) ret)) := by
  have hnone : handleOf s.log image = eglNoImageKHR ∨ ret ≠ eglTrue := by
    refine hkeep.imp_left ?_
    rintro rfl
    exact hs.noImage
  refine ⟨hs.blocks, hs.null, hs.mem, hs.noImage, fun h h0 => ?_, ?_, fun p hp => ?_,
    hs.invisible.wrappers, hs.invisible.nodup⟩
  · have hne : ¬ (handleOf s.log image = h ∧ ret = eglTrue) := by
      rintro ⟨rfl, hret⟩
      exact hnone.elim h0 (fun hr => hr hret)
    have hlive := hs.live h h0
    simp only [created, destroyed] at hlive
    simp only [State.record, created, destroyed, List.countP_cons, hne, decide_false,
      Bool.false_eq_true, ↓reduceIte, Nat.add_zero, hlive]
    rfl
  · exact proper_cons hs.invisible.proper ⟨rfl, hs.known h⟩
  · have hne : ¬ (image = p ∧ ret = eglTrue) := by
      rintro ⟨rfl, hret⟩
      exact hkeep.elim hp (fun hr => hr hret)
    have hfreed := hs.invisible.freed p hp
    simp only [frees, ended] at hfreed
    simp only [State.record, frees, ended, List.countP_cons, hne, decide_false,
      Bool.false_eq_true, ↓reduceIte, Nat.add_zero, hfreed]

theorem inv_destroy_true (hs : Inv s) (dpy : Nat) (h : image ∈ s.app) :
    Inv { free (s.record (.destroy dpy image (handleOf s.log image) eglTrue)) image with
      app := s.app.erase image } := by
  have h0 : image ≠ 0 := by
    rintro rfl
    exact hs.null h
  have hsub : ∀ p ∈ s.app.erase image, p ∈ s.app := fun p hp => List.mem_of_mem_erase hp
  rw [free, if_neg h0]
  refine ⟨?_, fun hn => hs.null (hsub _ hn), fun p hp => hs.mem p (hsub p hp), hs.noImage,
    fun eik heik => ?_, ?_, fun p hp => ?_, fun p => ?_, hs.invisible.nodup.erase image⟩
  · exact congrArg (List.erase · image) hs.blocks
  · have hlive := hs.live eik heik
    have herase : holding s.log (s.app.erase image) eik +
        (if handleOf s.log image = eik then 1 else 0) = holding s.log s.app eik := by
      simpa [holding] using
        Lib.Counting.countP_erase_add (p := fun p => decide (handleOf s.log p = eik)) h
    have hlog : holding (.free image ::
        .destroy dpy image (handleOf s.log image) eglTrue :: s.log) (s.app.erase image) eik =
          holding s.log (s.app.erase image) eik := rfl
    simp only [State.record, hlog]
    simp only [created, destroyed, List.countP_cons, decide_eq_true_eq, Bool.false_eq_true,
      ↓reduceIte, and_true] at hlive ⊢
    omega
  · exact proper_cons (proper_cons hs.invisible.proper ⟨rfl, hs.known (.inr h)⟩) trivial
  · have hfreed := hs.invisible.freed p hp
    simp only [State.record, frees, ended, List.countP_cons, decide_eq_true_eq,
      Bool.false_eq_true, ↓reduceIte, and_true] at hfreed ⊢
    omega
  · have hw := hs.invisible.wrappers p
    have herase : (s.app.erase image).count p + (if image = p then 1 else 0) = s.app.count p := by
      simpa [List.count] using Lib.Counting.countP_erase_add (p := (· == p)) h
    simp only [State.record, mallocs, frees, List.countP_cons, decide_eq_true_eq,
      Bool.false_eq_true, ↓reduceIte] at hw ⊢
    omega

theorem inv_scribble (hs : Inv s) {p : Ptr} (hp : p ∉ s.blocks) (bytes : EglImage) :
    Inv { s with mem := Function.update s.mem p bytes } := by
  refine ⟨hs.blocks, hs.null, fun q hq => ?_, hs.noImage, hs.live, hs.invisible.proper,
    hs.invisible.freed, hs.invisible.wrappers, hs.invisible.nodup⟩
  have hqp : q ≠ p := by
    rintro rfl
    exact hp (hs.blocks ▸ hq)
  exact (congrArg EglImage.eglImage (Function.update_of_ne hqp ..)).trans (hs.mem q hq)

end Step

theorem procAddress_eq (ws : ImageSource → ImageSource) (lookup : String → Nat) (s : State)
    (target : Nat) (image : EGLImageKHR) :
    perform ws lookup s (.procAddress target image) =
      perform ws lookup s (.exported target image) := by
  simp [perform, eglGetProcAddress, myGlEGLImageTargetTexture2DOES, glEGLImageTargetTexture2DOES]

theorem inv_step {ws : ImageSource → ImageSource} {lookup : String → Nat} {s t : State}
    {c : Call} (hs : Inv s) (h : step ws lookup s c = some t) : Inv t := by
  obtain ⟨henabled, h⟩ := Option.ite_none_right_eq_some.mp h
  obtain rfl := Option.some.inj h
  cases c with
  | create dpy source eik p =>
    by_cases h0 : eik = eglNoImageKHR
    · subst eik
      exact inv_create_none hs dpy (ws source)
    · obtain ⟨hp0, hp⟩ := henabled h0
      simp only [perform, myEglCreateImageKHR, if_neg h0]
      rw [if_neg (show p ≠ eglNoImageKHR from hp0)]
      exact inv_create_some hs dpy (ws source) eik hp0 hp source.buffer source.target
  | destroy dpy image ret =>
    simp only [perform, eglDestroyImageKHR, hs.passed henabled]
    by_cases hret : ret = eglTrue
    · subst ret
      rw [if_pos rfl, if_pos rfl]
      obtain rfl | himage := henabled
      · have happ : s.app.erase 0 = s.app := List.erase_of_not_mem hs.null
        have hkept : Inv (s.record (.destroy dpy 0 (handleOf s.log 0) eglTrue)) :=
          inv_destroy_kept hs dpy (.inl rfl) (.inl rfl)
        simp only [State.record] at hkept
        simpa [free, eglNoImageKHR, State.record, happ] using hkept
      · have happ := app_free
          (s.record (.destroy dpy image (handleOf s.log image) eglTrue)) image
        simp only [happ]
        exact inv_destroy_true hs dpy himage
    · simp only [hret, ↓reduceIte]
      exact inv_destroy_kept hs dpy henabled (.inr hret)
  | exported target image => exact inv_texture hs target henabled
  | procAddress target image =>
    rw [procAddress_eq]
    exact inv_texture hs target henabled
  | scribble p bytes => exact inv_scribble hs henabled bytes

theorem log_free (s : State) (p : Ptr) : s.log <:+ (free s p).log := by
  unfold free
  split
  · exact List.suffix_rfl
  · exact List.suffix_cons ..

theorem forwards_of_inv {s : State} (hs : Inv s) (ws : ImageSource → ImageSource)
    (lookup : String → Nat) : Forwards ws lookup s := by
  intro c henabled e he
  cases c with
  | create dpy source eik p =>
    obtain rfl := Option.some.inj he
    by_cases h0 : eik = eglNoImageKHR
    · simp only [perform, myEglCreateImageKHR, if_pos h0, ↓reduceIte]
      exact List.suffix_rfl
    · obtain ⟨hp0, _⟩ := henabled h0
      simp only [perform, myEglCreateImageKHR, if_neg h0]
      rw [if_neg (show p ≠ eglNoImageKHR from hp0)]
      exact List.suffix_cons ..
  | destroy dpy image ret =>
    obtain rfl := Option.some.inj he
    simp only [perform, eglDestroyImageKHR, hs.passed henabled]
    by_cases hret : ret = eglTrue
    · simp only [if_pos hret, ↓reduceIte]
      exact log_free (s.record _) image
    · simp only [if_neg hret]
      exact List.suffix_rfl
  | exported target image =>
    obtain rfl := Option.some.inj he
    rw [← hs.passed henabled]
    exact List.suffix_rfl
  | procAddress target image =>
    obtain rfl := Option.some.inj he
    rw [procAddress_eq, ← hs.passed henabled]
    exact List.suffix_rfl
  | scribble p bytes => cases he

/-- In every history the driver gets null or handles that it returned and has
not destroyed, each wrapper is freed once, when its image is destroyed, and
every call reaches the driver: whichever way a texture is bound, with the same
handle. -/
theorem always_invisible (ws : ImageSource → ImageSource) (lookup : String → Nat)
    (mem : Ptr → EglImage) (calls : List Call) :
    Always (step ws lookup) (fun s => Invisible s ∧ Forwards ws lookup s) (start mem) calls :=
  (always_of_step (fun _ _ _ hs h => inv_step hs h) (inv_start mem) calls).mono
    (fun _ hs => ⟨hs.invisible, forwards_of_inv hs ws lookup⟩)

end FakeLibc.ImageWrapping

import FakeLibc.Lib.Run

namespace FakeLibc.ContextVersion

open FakeLibc.Lib.Run

abbrev EGLint := Int

abbrev Address := Nat

def eglNone : EGLint := 0x3038

def eglContextClientVersion : EGLint := 0x3098

def Terminated : List EGLint → Prop
  | [] => False
  | name :: [] => name = eglNone
  | name :: _ :: rest => name = eglNone ∨ Terminated rest

abbrev AttribList := { ints : List EGLint // Terminated ints }

/-- The loop over the list, with `_egl_context_client_version`. It has no result
when it leaves the memory. -/
def scan (version : EGLint) : List EGLint → Option EGLint
  | [] => none
  | name :: [] => if name = eglNone then some version else none
  | name :: value :: rest =>
    if name = eglNone then some version
    else scan (if name = eglContextClientVersion then value else version) rest

inductive Gles
  | libgles1
  | libgles2
deriving DecidableEq

structure State where
  version : EGLint
  libgles1 : Option Nat
  libgles2 : Option Nat
  latest : Option (Option AttribList)

/-- `latest` is the list of the last creation that succeeded. -/
def start : State := ⟨1, none, none, none⟩

structure Answers where
  dlopen : Gles → Option Nat
  dlsym : Nat → String → Option Address
  wsEglGetProcAddress : String → Option Address
  eglGetProcAddress : String → Option Address

inductive Proc
  | own (name : String)
  | address (p : Address)
  | null
deriving DecidableEq

def own : List String :=
  ["eglCreateImageKHR", "eglDestroyImageKHR", "eglSwapBuffersWithDamageEXT",
   "glEGLImageTargetTexture2DOES"]

def glSymbol (s : State) (procname : String) (answers : Answers) : State × Option Address :=
  if s.version = 1 then
    let s := { s with libgles1 := s.libgles1.orElse (fun _ => answers.dlopen .libgles1) }
    (s, s.libgles1.bind (fun lib => answers.dlsym lib procname))
  else if s.version = 2 then
    let s := { s with libgles2 := s.libgles2.orElse (fun _ => answers.dlopen .libgles2) }
    (s, s.libgles2.bind (fun lib => answers.dlsym lib procname))
  else (s, none)

def eglGetProcAddress (s : State) (procname : String) (answers : Answers) : State × Proc :=
  if procname ∈ own then (s, .own procname)
  else
    let (s, ret) := glSymbol s procname answers
    let ret := ret.orElse (fun _ => answers.wsEglGetProcAddress procname)
    let ret := ret.orElse (fun _ => answers.eglGetProcAddress procname)
    (s, ret.elim .null .address)

/-- `succeeds` is what the wrapped call answers. -/
inductive Call
  | eglCreateContext (attribList : Option AttribList) (succeeds : Bool)
  | eglGetProcAddress (procname : String) (answers : Answers)

/-- The version is set before the wrapped call. -/
def eglCreateContext (s : State) (attribList : Option AttribList) (succeeds : Bool) :
    Option State :=
  (attribList.elim (some s.version) (fun l => scan s.version l.1)).map fun version =>
    { s with version := version, latest := if succeeds then some attribList else s.latest }

def step (s : State) : Call → Option State
  | .eglCreateContext attribList succeeds => eglCreateContext s attribList succeeds
  | .eglGetProcAddress procname answers => some (eglGetProcAddress s procname answers).1

def attribs : List EGLint → List (EGLint × EGLint)
  | name :: value :: rest => if name = eglNone then [] else (name, value) :: attribs rest
  | _ => []

/-- The last version that a list asks for. -/
def lastVersion (attribList : Option AttribList) : Option EGLint :=
  attribList.bind fun l =>
    ((attribs l.1).reverse.find? (fun attrib => attrib.1 = eglContextClientVersion)).map Prod.snd

/-- The version is that of the latest context, and 1 without any. -/
def Follows (s : State) : Prop :=
  s.version = (s.latest.bind lastVersion).getD 1

/-- A creation that succeeds says the version or finds the default, and one that
fails does not say another version. -/
def Tracks (s : State) : Call → Prop
  | .eglCreateContext attribList true => lastVersion attribList ≠ none ∨ s.version = 1
  | .eglCreateContext attribList false => ∀ v, lastVersion attribList = some v → v = s.version
  | .eglGetProcAddress _ _ => True

theorem scan_eq {ints : List EGLint} (h : Terminated ints) (version : EGLint) :
    scan version ints = some ((((attribs ints).reverse.find?
      (fun attrib => attrib.1 = eglContextClientVersion)).map Prod.snd).getD version) := by
  induction version, ints using scan.induct with
  | case1 => cases h
  | case2 version => rw [scan, if_pos rfl]; rfl
  | case3 version name hname => exact absurd h hname
  | case4 version value rest => rw [scan, if_pos rfl, attribs, if_pos rfl]; rfl
  | case5 version name value rest hname ih =>
    rw [scan, if_neg hname, ih (h.resolve_left hname), attribs, if_neg hname, List.reverse_cons,
      List.find?_append]
    cases (attribs rest).reverse.find? (fun attrib => attrib.1 = eglContextClientVersion) with
    | some attrib => rfl
    | none =>
      by_cases hversion : name = eglContextClientVersion
      · simp [hversion]
      · simp [hversion]

theorem eglCreateContext_eq (s : State) (attribList : Option AttribList) (succeeds : Bool) :
    eglCreateContext s attribList succeeds =
      some { s with
        version := (lastVersion attribList).getD s.version
        latest := if succeeds then some attribList else s.latest } := by
  cases attribList with
  | none => rfl
  | some l =>
    rw [eglCreateContext, Option.elim_some, scan_eq l.2, Option.map_some]
    rfl

theorem eglGetProcAddress_keeps (s : State) (procname : String) (answers : Answers) :
    (eglGetProcAddress s procname answers).1.version = s.version ∧
      (eglGetProcAddress s procname answers).1.latest = s.latest := by
  unfold eglGetProcAddress glSymbol
  split_ifs <;> exact ⟨rfl, rfl⟩

theorem isSome_step (s : State) (call : Call) : (step s call).isSome := by
  cases call with
  | eglCreateContext attribList succeeds =>
    rw [step, eglCreateContext_eq]
    rfl
  | eglGetProcAddress procname answers => rfl

theorem follows_step_iff {s t : State} {call : Call} (hs : Follows s) (h : step s call = some t) :
    Follows t ↔ Tracks s call := by
  cases call with
  | eglGetProcAddress procname answers =>
    obtain rfl := Option.some.inj h
    obtain ⟨hversion, hlatest⟩ := eglGetProcAddress_keeps s procname answers
    refine iff_of_true ?_ trivial
    rw [Follows, hversion, hlatest]
    exact hs
  | eglCreateContext attribList succeeds =>
    rw [step, eglCreateContext_eq] at h
    obtain rfl := Option.some.inj h
    cases succeeds with
    | true =>
      rw [Follows, Tracks, if_pos rfl, Option.bind_some]
      cases lastVersion attribList with
      | none => simp
      | some v => simp
    | false =>
      rw [Follows, Tracks, if_neg (by decide), ← hs]
      cases lastVersion attribList with
      | none => simp
      | some v => simp

/-- The version follows the successful contexts throughout a run precisely when
every creation meets the condition. -/
theorem follows_iff_tracks (calls : List Call) :
    Always step Follows start calls ↔ Guarded step Tracks start calls :=
  always_iff_guarded_of_iff (fun _ _ _ => follows_step_iff) rfl
    (isSome_exec isSome_step start calls)

def asks (version : EGLint) : AttribList :=
  ⟨[eglContextClientVersion, version, eglNone], .inr rfl⟩

/-- A context for version 2 and one without a list leave 2, and so does a failure. -/
theorem not_follows_default_failed :
    ¬ Always step Follows start
        [.eglCreateContext (some (asks 2)) true, .eglCreateContext none true] ∧
      ¬ Always step Follows start [.eglCreateContext (some (asks 2)) false] := by
  constructor
  · intro h
    have hfollows : (2 : EGLint) = 1 := h _ ⟨2, none, none, some none⟩ List.prefix_rfl rfl
    exact absurd hfollows (by decide)
  · intro h
    have hfollows : (2 : EGLint) = 1 := h _ ⟨2, none, none, none⟩ List.prefix_rfl rfl
    exact absurd hfollows (by decide)

end FakeLibc.ContextVersion

import FakeLibc.Lib.Run
import Mathlib.Data.List.Basic

namespace FakeLibc.DynamicLinker

open FakeLibc.Lib.Run

inductive GnuFn
  | dlmopen | dlinfo | dlsym | dladdr | dlerror | dlclose | dlIteratePhdr | tlsGetAddr
deriving DecidableEq

/-- A machine word as it travels between the libraries: the address of a host
function or of the program's name, a number, or any other pointer. -/
inductive Word
  | fn (f : GnuFn)
  | programInvocationName
  | int (n : Int)
  | str (s : String)
  | ptr (n : Nat)
deriving DecidableEq

structure Call where
  target : Word
  args : List Word
deriving DecidableEq

structure LibC where
  glibcDlmopen : Word
  glibcDlsym : Word
  glibcTlsGetAddr : Word
  androidDlNamespaceId : Word
  progname : Word
deriving DecidableEq

structure LibDl where
  androidDlNamespaceId : Word
  glibcDlmopen : Word
  glibcDlsym : Word
  glibcDladdr : Word
  glibcDlerror : Word
  glibcDlclose : Word
  glibcDlIteratePhdr : Word
deriving DecidableEq

def initDlfunctions (aDlNsId op sym addr err clo it : Word) : LibDl :=
  ⟨aDlNsId, op, sym, addr, err, clo, it⟩

def load (op lmid : Word) (file : String) : Call := ⟨op, [lmid, .str file, .int 1]⟩

def symbol (sym : Word) (file name : String) : Call := ⟨sym, [.str file, .str name]⟩

/-- The nine parameters of the definition in `libc.so`, with the calls it
makes on a freshly loaded library. A handle is named by its file. -/
def initDl (aDlNsId op sym addr err clo it programname tls : Word) : LibC × LibDl × List Call :=
  (⟨op, sym, tls, aDlNsId, programname⟩, initDlfunctions aDlNsId op sym addr err clo it,
    [load op (.int 0) "/lib/libc.so.6", load op (.int 0) "/lib/librt.so.1",
      load op (.int 0) "/usr/lib/libgcc_s.so", load op (.int 0) "/lib/libpthread.so.0",
      load op aDlNsId "libdl.so", symbol sym "libdl.so" "init_dlfunctions",
      symbol sym "/lib/libc.so.6" "syscall", symbol sym "/lib/libc.so.6" "fprintf",
      symbol sym "/lib/libc.so.6" "stderr"])

/-- The eight words that `android_dlopen` passes under its own prototype. -/
def initDlArgs (id : Int) : List Word :=
  [.int id, .fn .dlmopen, .fn .dlsym, .fn .dladdr, .fn .dlclose, .fn .dlIteratePhdr,
    .programInvocationName, .fn .tlsGetAddr]

/-- Arguments reach parameters by position. Past the last argument the callee
reads `junk`, whatever the caller's stack holds there. -/
def callInitDl (args : List Word) (junk : Word) : LibC × LibDl × List Call :=
  initDl (args.getD 0 junk) (args.getD 1 junk) (args.getD 2 junk) (args.getD 3 junk)
    (args.getD 4 junk) (args.getD 5 junk) (args.getD 6 junk) (args.getD 7 junk) (args.getD 8 junk)

def dlopen (d : LibDl) (filename : Word) (flags : Int) : Call :=
  ⟨d.glibcDlmopen, [d.androidDlNamespaceId, filename, .int (if flags = 0 then 1 else flags)]⟩

def dlsym (d : LibDl) (handle symbol : Word) : Call := ⟨d.glibcDlsym, [handle, symbol]⟩

def dladdr (d : LibDl) (addr info : Word) : Call := ⟨d.glibcDladdr, [addr, info]⟩

def dlerror (d : LibDl) : Call := ⟨d.glibcDlerror, []⟩

def dlclose (d : LibDl) (handle : Word) : Call := ⟨d.glibcDlclose, [handle]⟩

def dlIteratePhdr (d : LibDl) (callback data : Word) : Call :=
  ⟨d.glibcDlIteratePhdr, [callback, data]⟩

def tlsGetAddr (c : LibC) (a : Word) : Call := ⟨c.glibcTlsGetAddr, [a]⟩

inductive Action
  | androidDlopen (fresh : Int) (name : Word) (flags : Int)
  | dlopen (filename : Word) (flags : Int)
  | dlsym (handle symbol : Word)
  | dladdr (addr info : Word)
  | dlerror
  | dlclose (handle : Word)
  | dlIteratePhdr (callback data : Word)
  | tlsGetAddr (a : Word)
deriving DecidableEq

/-- `requests` holds the call each action ends in, `setup` the calls made
while the libraries are initialised. -/
structure Process where
  androidDlNamespaceId : Int
  created : List Int
  inside : Option (LibC × LibDl)
  setup : List Call
  requests : List Call
deriving DecidableEq

def start : Process := ⟨-1, [], none, [], []⟩

def hostLoad (id : Int) (name : Word) (flags : Int) : Call :=
  ⟨.fn .dlmopen, [.int id, name, .int flags]⟩

/-- The loader picks a fresh positive id for a new namespace. A failed load
stops the process in an assertion, so such a run has no further step. -/
def androidDlopen (junk : Word) (p : Process) (fresh : Int) (name : Word) (flags : Int) :
    Option Process :=
  if p.androidDlNamespaceId = -1 then
    if 0 < fresh ∧ fresh ∉ p.created then
      let (libc, libdl, setup) := callInitDl (initDlArgs fresh) junk
      some ⟨fresh, p.created ++ [fresh], some (libc, libdl),
        p.setup ++ [load (.fn .dlmopen) (.int (-1)) "libc.so", ⟨.fn .dlinfo, [.str "libc.so"]⟩,
          symbol (.fn .dlsym) "libc.so" "init_dl"] ++ setup,
        p.requests ++ [hostLoad fresh name flags]⟩
    else none
  else some { p with requests := p.requests ++ [hostLoad p.androidDlNamespaceId name flags] }

def forward (libc : LibC) (libdl : LibDl) : Action → Option Call
  | .androidDlopen _ _ _ => none
  | .dlopen filename flags => some (dlopen libdl filename flags)
  | .dlsym handle symbol => some (dlsym libdl handle symbol)
  | .dladdr addr info => some (dladdr libdl addr info)
  | .dlerror => some (dlerror libdl)
  | .dlclose handle => some (dlclose libdl handle)
  | .dlIteratePhdr callback data => some (dlIteratePhdr libdl callback data)
  | .tlsGetAddr a => some (tlsGetAddr libc a)

def step (junk : Word) (p : Process) : Action → Option Process
  | .androidDlopen fresh name flags => androidDlopen junk p fresh name flags
  | a => do
    let (libc, libdl) ← p.inside
    let call ← forward libc libdl a
    some { p with requests := p.requests ++ [call] }

/-- The call that should end each action in namespace `id`. -/
def intended (id : Int) : Action → Call
  | .androidDlopen _ name flags => ⟨.fn .dlmopen, [.int id, name, .int flags]⟩
  | .dlopen filename flags =>
    ⟨.fn .dlmopen, [.int id, filename, .int (if flags = 0 then 1 else flags)]⟩
  | .dlsym handle symbol => ⟨.fn .dlsym, [handle, symbol]⟩
  | .dladdr addr info => ⟨.fn .dladdr, [addr, info]⟩
  | .dlerror => ⟨.fn .dlerror, []⟩
  | .dlclose handle => ⟨.fn .dlclose, [handle]⟩
  | .dlIteratePhdr callback data => ⟨.fn .dlIteratePhdr, [callback, data]⟩
  | .tlsGetAddr a => ⟨.fn .tlsGetAddr, [a]⟩

/-- One namespace, every call at the function of its name, and the program's
own name in `__progname`. -/
def Preserved (as : List Action) (p : Process) : Prop :=
  ∃ id libc libdl, p.created = [id] ∧ p.inside = some (libc, libdl) ∧
    p.requests = as.map (intended id) ∧ libc.progname = .programInvocationName

/-- The call that does end each action. From the fifth parameter on, every
word arrives one place too early. -/
def reached (junk : Word) (id : Int) : Action → Call
  | .dlerror => ⟨.fn .dlclose, []⟩
  | .dlclose handle => ⟨.fn .dlIteratePhdr, [handle]⟩
  | .dlIteratePhdr callback data => ⟨.programInvocationName, [callback, data]⟩
  | .tlsGetAddr a => ⟨junk, [a]⟩
  | a => intended id a

structure Settled (junk : Word) (id : Int) (p : Process) : Prop where
  pos : 0 < id
  host : p.androidDlNamespaceId = id
  created : p.created = [id]
  inside : p.inside = some
    (⟨.fn .dlmopen, .fn .dlsym, junk, .int id, .fn .tlsGetAddr⟩,
      ⟨.int id, .fn .dlmopen, .fn .dlsym, .fn .dladdr, .fn .dlclose, .fn .dlIteratePhdr,
        .programInvocationName⟩)

theorem settled_step {junk : Word} {id : Int} {p q : Process} {a : Action}
    (hp : Settled junk id p) (h : step junk p a = some q) :
    Settled junk id q ∧ q.requests = p.requests ++ [reached junk id a] := by
  have hne : p.androidDlNamespaceId ≠ -1 := by
    have hpos := hp.pos
    rw [hp.host]
    omega
  cases a with
  | androidDlopen fresh name flags =>
    rw [step, androidDlopen, if_neg hne, Option.some.injEq] at h
    subst q
    refine ⟨⟨hp.pos, hp.host, hp.created, hp.inside⟩, ?_⟩
    simp only [hp.host, hostLoad, reached, intended]
  | dlopen | dlsym | dladdr | dlerror | dlclose | dlIteratePhdr | tlsGetAddr =>
    simp only [step, hp.inside, forward, Option.bind_eq_bind, Option.bind_some,
      Option.some.injEq] at h
    subst q
    exact ⟨⟨hp.pos, hp.host, hp.created, rfl⟩, rfl⟩

theorem settled_start {junk : Word} {q : Process} {a : Action}
    (h : step junk start a = some q) :
    ∃ id, Settled junk id q ∧ q.requests = [reached junk id a] := by
  cases a with
  | androidDlopen fresh name flags =>
    rw [step, androidDlopen, if_pos (by rfl), Option.ite_none_right_eq_some] at h
    obtain ⟨⟨hpos, _⟩, h⟩ := h
    cases h
    exact ⟨fresh, ⟨hpos, rfl, rfl, rfl⟩, rfl⟩
  | dlopen | dlsym | dladdr | dlerror | dlclose | dlIteratePhdr | tlsGetAddr =>
    simp [step, start] at h

theorem settled_exec {junk : Word} {id : Int} {p q : Process} {as : List Action}
    (hp : Settled junk id p) (h : exec (step junk) p as = some q) :
    Settled junk id q ∧ q.requests = p.requests ++ as.map (reached junk id) := by
  induction as generalizing p with
  | nil =>
    obtain rfl := Option.some.inj h
    exact ⟨hp, by simp⟩
  | cons a as ih =>
    obtain ⟨r, hr, h⟩ := Option.bind_eq_some_iff.mp h
    obtain ⟨hset, hreq⟩ := settled_step hp hr
    obtain ⟨hset, hreq'⟩ := ih hset h
    exact ⟨hset, by rw [hreq', hreq, List.map_cons, List.append_assoc, List.singleton_append]⟩

/-- In every run one namespace is created and all loads use it, the calls end
where `reached` says, and `__progname` is a function's address. -/
theorem not_preserved (junk : Word) (as : List Action) (p : Process) (hne : as ≠ [])
    (h : exec (step junk) start as = some p) :
    (∃ id, p.created = [id] ∧ p.requests = as.map (reached junk id)) ∧ ¬ Preserved as p := by
  cases as with
  | nil => exact absurd rfl hne
  | cons a as =>
    obtain ⟨q, hq, h⟩ := Option.bind_eq_some_iff.mp h
    obtain ⟨id, hset, hreq⟩ := settled_start hq
    obtain ⟨hset, hreq'⟩ := settled_exec hset h
    refine ⟨⟨id, hset.created, by rw [hreq', hreq, List.map_cons, List.singleton_append]⟩, ?_⟩
    rintro ⟨_, libc, libdl, _, hinside, _, hname⟩
    obtain rfl : _ = libc := congrArg Prod.fst (Option.some.inj (hset.inside.symm.trans hinside))
    cases hname

theorem not_preserved_dlclose :
    ∃ p, exec (step (.int 0)) start
        [.androidDlopen 1 (.str "libEGL.so") 1, .dlopen (.str "libm.so") 0, .dlclose (.ptr 7)] =
          some p ∧
      (∃ id, p.created = [id] ∧ p.requests =
        [.androidDlopen 1 (.str "libEGL.so") 1, .dlopen (.str "libm.so") 0, .dlclose (.ptr 7)].map
          (reached (.int 0) id)) ∧
      ¬ Preserved [.androidDlopen 1 (.str "libEGL.so") 1, .dlopen (.str "libm.so") 0,
        .dlclose (.ptr 7)] p :=
  ⟨_, rfl, not_preserved (.int 0) _ _ (by decide) rfl⟩

/-- `dlerror` inside the namespace reaches `dlclose`. -/
theorem dlerror_reaches_dlclose :
    ∃ p, exec (step (.int 0)) start [.androidDlopen 1 (.str "libEGL.so") 1, .dlerror] = some p ∧
      p.requests = [hostLoad 1 (.str "libEGL.so") 1, ⟨.fn .dlclose, []⟩] ∧
      ¬ Preserved [.androidDlopen 1 (.str "libEGL.so") 1, .dlerror] p := by
  refine ⟨_, rfl, rfl, ?_⟩
  rintro ⟨_, _, _, _, hinside, _, hname⟩
  cases hinside
  cases hname

end FakeLibc.DynamicLinker

import FakeLibc.Lib.Run
import FakeLibc.Lib.OnDemand

namespace FakeLibc.GlibcPointers

open FakeLibc.Lib.Run FakeLibc.Lib.OnDemand

/-- The `glibc_` pointers of `fake_libc.c`. -/
inductive Sym
  | syscall | fprintf | stderr | dlmopen | dlsym | tlsGetAddr | stdin | stdout | vsprintfChk
  | vfprintf | ldexp | fputs | fputc | vasprintf | vsnprintfChk | pthreadMutexInit
  | pthreadAttrInit | pthreadAttrDestroy | pthreadAttrSetdetachstate | pthreadAttrGetdetachstate
  | pthreadAttrSetschedpolicy | pthreadAttrGetschedpolicy | pthreadAttrSetschedparam
  | pthreadAttrGetschedparam | pthreadAttrSetstacksize | pthreadAttrGetstacksize
  | pthreadAttrSetstackaddr | pthreadAttrGetstackaddr | pthreadAttrSetstack | pthreadAttrGetstack
  | pthreadAttrSetguardsize | pthreadAttrGetguardsize | pthreadAttrSetscope | pthreadAttrGetscope
  | pthreadMutexLock | pthreadMutexUnlock | errnoLocation | pthreadCondattrInit | pthreadCondInit
  | pthreadCondWait | pthreadCondTimedwait | pthreadCondDestroy | pthreadCondBroadcast
  | pthreadCondSignal | fgetc | fgets | getc | ungetc | fread | fwrite | fflush | vscanf | vfscanf
  | vsscanf | vfwprintf | vfwscanf | fgetwc | fgetws | fputwc | fputws | fwide | getwc | putwc
  | vswprintf | vswscanf | vwprintf | vwscanf | wcstod | wcstof | wcstold | wcstoldL | atof
  | strtod | strtold | strtoldL | drand48 | erand48 | pthreadMutexDestroy | pthreadMutexTrylock
  | strtof | vprintf | vdprintf | vsprintf | vsnprintf | sysconf | difftime | fclose | fopen
  | getline | feof | fdopen | freopen | readdirR | readdir | ferror | hErrnoLocation | finite
  | finitef | finitel | isinf | isinff | isinfl | isnan | isnanf | isnanl | getaddrinfo
  | freeaddrinfo | fseek | fseeko | ftell | fileno | rewind | ftello | cxaFinalize | funopen
  | fgetpos | fsetpos
deriving DecidableEq

/-- The functions of `fake_libc.c` that reach a `glibc_` pointer. An argument
says which way the function's tests go: whether a word holds a static
initialiser, whether an object is there, whether the property is cached, whether
the file is there and how often each pass over it reads a line. -/
inductive Call
  | sprintfChk | vfprintf | fprintf | ldexp | fputs | fputc | vasprintf | asprintf
  | androidSetAbortMessage | openlog | syslog | closelog | snprintfChk | vsnprintfChk
  | pthreadAttrInit | pthreadAttrDestroy | pthreadAttrSetdetachstate | pthreadAttrGetdetachstate
  | pthreadAttrSetschedpolicy | pthreadAttrGetschedpolicy | pthreadAttrSetschedparam
  | pthreadAttrGetschedparam | pthreadAttrSetstacksize | pthreadAttrGetstacksize
  | pthreadAttrSetstackaddr | pthreadAttrGetstackaddr | pthreadAttrSetstack | pthreadAttrGetstack
  | pthreadAttrSetguardsize | pthreadAttrGetguardsize | pthreadAttrSetscope | pthreadAttrGetscope
  | pthreadMutexLock (static : Bool) | pthreadMutexUnlock | setErrnoInternal
  | pthreadCreate (created : Bool) | pthreadCondWait (staticCond staticMutex : Bool)
  | pthreadCondTimedwait (staticCond staticMutex : Bool)
  | pthreadCondTimedwaitRelativeNp (staticCond staticMutex : Bool)
  | pthreadCondDestroy (realcond : Bool) | pthreadCondInit | pthreadCondBroadcast (static : Bool)
  | pthreadCondSignal (static : Bool) | fgetc | fgets | getc | ungetc | fread | fwrite | fflush
  | scanf | fscanf | sscanf | vscanf | vsscanf | vfscanf | fwprintf | fwscanf | fgetwc | fgetws
  | fputwc | fputws | fwide | getwc | putwc | swprintf | swscanf | vfwprintf | vfwscanf | vswprintf
  | vswscanf | vwprintf | vwscanf | wcstod | wcstof | wprintf | wscanf | wcstold | wcstoldL | atof
  | strtod | strtold | strtoldL | drand48 | erand48 | pthreadMutexDestroy (realmutex : Bool)
  | pthreadMutexInit | pthreadMutexTrylock | strtof | printf | dprintf | sprintf | snprintf
  | vprintf | vdprintf | vsprintf | vsnprintf | sysconf | difftime | fclose | fopen | getline
  | systemPropertyGet (cached fp : Bool) (reads : List Nat) | fdopen | freopen | readdirR | readdir
  | assert2 | pthreadGettidNp | pthreadGettid | ferror | getHErrno | finite | finitef | finitel
  | isinf | isinff | isinfl | isnan | isnanf | isnanl | getTlsHooks | getaddrinfo | freeaddrinfo
  | fseek | fseeko | ftell | fileno | rewind | ftello | cxaFinalize | funopen | fgetpos | fsetpos
  | feof | endOfThread
deriving DecidableEq

def plain (f : Sym) : List (Event Sym) := [.load f, .use f]

/-- It reads one of the three at most, whichever the stream stands for. -/
def getActualFp : List (Event Sym) :=
  [.load .stdin, .load .stdout, .load .stderr, .use .stdin, .use .stdout, .use .stderr]

def onStream (f : Sym) : List (Event Sym) := .load f :: (getActualFp ++ [.use f])

def stub : List (Event Sym) := [.load .fprintf, .load .stderr, .use .stderr, .use .fprintf]

def when (b : Bool) (es : List (Event Sym)) : List (Event Sym) := if b then es else []

def hybrisAllocInitMutex : List (Event Sym) := [.load .pthreadMutexInit, .use .pthreadMutexInit]

def hybrisAllocInitCond : List (Event Sym) :=
  [.load .pthreadCondattrInit, .load .pthreadCondInit, .use .pthreadCondattrInit,
    .use .pthreadCondInit]

def condWait (f : Sym) (staticCond staticMutex : Bool) : List (Event Sym) :=
  .load f :: (when staticCond hybrisAllocInitCond ++ when staticMutex hybrisAllocInitMutex ++
    [.use f])

def condWake (f : Sym) (static : Bool) : List (Event Sym) :=
  .load f :: (when static hybrisAllocInitCond ++ [.use f])

def destroy (f : Sym) (real : Bool) : List (Event Sym) := .load f :: when real [.use f]

/-- The functions of `pthread_gettid_helpers.cpp` trust their callers to have
loaded the two pointers. -/
def locked : List (Event Sym) := [.use .pthreadMutexLock, .use .pthreadMutexUnlock]

def mySettidToThread : List (Event Sym) := locked

def myGettidFromThread : List (Event Sym) := locked

def myRemtid : List (Event Sym) := locked

def startOfThread : List (Event Sym) := .use .syscall :: mySettidToThread

def pthreadGettidNp : List (Event Sym) :=
  .load .pthreadMutexLock :: .load .pthreadMutexUnlock :: myGettidFromThread

def myReaddirR : List (Event Sym) := [.use .readdirR]

def myReaddir : List (Event Sym) := [.use .readdir]

def myGetaddrinfo : List (Event Sym) := [.use .getaddrinfo]

def myFreeaddrinfo : List (Event Sym) := [.use .freeaddrinfo]

/-- The compiler calls this to reach a thread-local variable. -/
def tlsGetAddr : List (Event Sym) := [.use .tlsGetAddr]

def readLines (reads : List Nat) : List (Event Sym) :=
  reads.flatMap (fun n => .use .feof :: List.replicate n (.use .getline))

/-- The search for a property, which closes a file that it could not open, too. -/
def readBuildProp (fp : Bool) (reads : List Nat) : List (Event Sym) :=
  [.load .fprintf, .load .fopen, .load .fclose, .load .getline, .load .feof, .load .stderr,
    .use .fopen] ++ (when fp (readLines reads ++ [.use .feof]) ++ [.use .fclose])

/-- What a call does with the pointers, in order. `funopen`, `fgetpos` and
`fsetpos` call themselves and get no further. -/
def body : Call → List (Event Sym)
  | .sprintfChk => plain .vsprintfChk
  | .vfprintf => onStream .vfprintf
  | .fprintf => onStream .vfprintf
  | .ldexp => plain .ldexp
  | .fputs => onStream .fputs
  | .fputc => onStream .fputc
  | .vasprintf => plain .vasprintf
  | .asprintf => plain .vasprintf
  | .androidSetAbortMessage => stub
  | .openlog => stub
  | .syslog => [.load .fprintf, .load .vfprintf, .use .stderr, .use .vfprintf]
  | .closelog => stub
  | .snprintfChk => plain .vsnprintfChk
  | .vsnprintfChk => plain .vsnprintfChk
  | .pthreadAttrInit => plain .pthreadAttrInit
  | .pthreadAttrDestroy => plain .pthreadAttrDestroy
  | .pthreadAttrSetdetachstate => plain .pthreadAttrSetdetachstate
  | .pthreadAttrGetdetachstate => plain .pthreadAttrGetdetachstate
  | .pthreadAttrSetschedpolicy => plain .pthreadAttrSetschedpolicy
  | .pthreadAttrGetschedpolicy => plain .pthreadAttrGetschedpolicy
  | .pthreadAttrSetschedparam => plain .pthreadAttrSetschedparam
  | .pthreadAttrGetschedparam => plain .pthreadAttrGetschedparam
  | .pthreadAttrSetstacksize => plain .pthreadAttrSetstacksize
  | .pthreadAttrGetstacksize => plain .pthreadAttrGetstacksize
  | .pthreadAttrSetstackaddr => plain .pthreadAttrSetstackaddr
  | .pthreadAttrGetstackaddr => plain .pthreadAttrGetstackaddr
  | .pthreadAttrSetstack => plain .pthreadAttrSetstack
  | .pthreadAttrGetstack => plain .pthreadAttrGetstack
  | .pthreadAttrSetguardsize => plain .pthreadAttrSetguardsize
  | .pthreadAttrGetguardsize => plain .pthreadAttrGetguardsize
  | .pthreadAttrSetscope => plain .pthreadAttrSetscope
  | .pthreadAttrGetscope => plain .pthreadAttrGetscope
  | .pthreadMutexLock static =>
    .load .pthreadMutexLock :: (when static hybrisAllocInitMutex ++ [.use .pthreadMutexLock])
  | .pthreadMutexUnlock => plain .pthreadMutexUnlock
  | .setErrnoInternal => plain .errnoLocation
  | .pthreadCreate created =>
    .load .pthreadMutexLock :: .load .pthreadMutexUnlock :: when created startOfThread
  | .pthreadCondWait staticCond staticMutex => condWait .pthreadCondWait staticCond staticMutex
  | .pthreadCondTimedwait staticCond staticMutex =>
    condWait .pthreadCondTimedwait staticCond staticMutex
  | .pthreadCondTimedwaitRelativeNp staticCond staticMutex =>
    condWait .pthreadCondTimedwait staticCond staticMutex
  | .pthreadCondDestroy realcond => destroy .pthreadCondDestroy realcond
  | .pthreadCondInit => plain .pthreadCondInit
  | .pthreadCondBroadcast static => condWake .pthreadCondBroadcast static
  | .pthreadCondSignal static => condWake .pthreadCondSignal static
  | .fgetc => onStream .fgetc
  | .fgets => onStream .fgets
  | .getc => onStream .getc
  | .ungetc => onStream .ungetc
  | .fread => onStream .fread
  | .fwrite => onStream .fwrite
  | .fflush => onStream .fflush
  | .scanf => plain .vscanf
  | .fscanf => onStream .vfscanf
  | .sscanf => plain .vsscanf
  | .vscanf => plain .vscanf
  | .vsscanf => plain .vsscanf
  | .vfscanf => onStream .vfscanf
  | .fwprintf => onStream .vfwprintf
  | .fwscanf => onStream .vfwscanf
  | .fgetwc => onStream .fgetwc
  | .fgetws => onStream .fgetws
  | .fputwc => onStream .fputwc
  | .fputws => onStream .fputws
  | .fwide => onStream .fwide
  | .getwc => onStream .getwc
  | .putwc => onStream .putwc
  | .swprintf => plain .vswprintf
  | .swscanf => plain .vswscanf
  | .vfwprintf => plain .vfwprintf
  | .vfwscanf => plain .vfwscanf
  | .vswprintf => plain .vswprintf
  | .vswscanf => plain .vswscanf
  | .vwprintf => plain .vwprintf
  | .vwscanf => plain .vwscanf
  | .wcstod => plain .wcstod
  | .wcstof => plain .wcstof
  | .wprintf => plain .vwprintf
  | .wscanf => plain .vwscanf
  | .wcstold => plain .wcstold
  | .wcstoldL => plain .wcstoldL
  | .atof => plain .atof
  | .strtod => plain .strtod
  | .strtold => plain .strtold
  | .strtoldL => plain .strtoldL
  | .drand48 => plain .drand48
  | .erand48 => plain .erand48
  | .pthreadMutexDestroy realmutex => destroy .pthreadMutexDestroy realmutex
  | .pthreadMutexInit => plain .pthreadMutexInit
  | .pthreadMutexTrylock => plain .pthreadMutexTrylock
  | .strtof => plain .strtof
  | .printf => [.load .vfprintf, .use .vprintf]
  | .dprintf => plain .vdprintf
  | .sprintf => plain .vsprintf
  | .snprintf => plain .vsnprintf
  | .vprintf => plain .vprintf
  | .vdprintf => plain .vdprintf
  | .vsprintf => plain .vsprintf
  | .vsnprintf => plain .vsnprintf
  | .sysconf => plain .sysconf
  | .difftime => plain .difftime
  | .fclose => onStream .fclose
  | .fopen => plain .fopen
  | .getline => onStream .getline
  | .systemPropertyGet cached fp reads => when (!cached) (readBuildProp fp reads)
  | .fdopen => plain .fdopen
  | .freopen => onStream .freopen
  | .readdirR => .load .readdirR :: myReaddirR
  | .readdir => .load .readdirR :: myReaddir
  | .assert2 => stub
  | .pthreadGettidNp => pthreadGettidNp
  | .pthreadGettid => pthreadGettidNp
  | .ferror => onStream .ferror
  | .getHErrno => plain .hErrnoLocation
  | .finite => plain .finite
  | .finitef => plain .finitef
  | .finitel => plain .finitel
  | .isinf => plain .isinf
  | .isinff => plain .isinff
  | .isinfl => plain .isinfl
  | .isnan => plain .isnan
  | .isnanf => plain .isnanf
  | .isnanl => plain .isnanl
  | .getTlsHooks => tlsGetAddr
  | .getaddrinfo => .load .getaddrinfo :: myGetaddrinfo
  | .freeaddrinfo => .load .freeaddrinfo :: myFreeaddrinfo
  | .fseek => onStream .fseek
  | .fseeko => onStream .fseeko
  | .ftell => onStream .ftell
  | .fileno => onStream .fileno
  | .rewind => plain .rewind
  | .ftello => plain .ftello
  | .cxaFinalize => plain .cxaFinalize
  | .funopen => [.load .funopen]
  | .fgetpos => .load .fgetpos :: getActualFp
  | .fsetpos => .load .fsetpos :: getActualFp
  | .feof => plain .feof
  | .endOfThread => myRemtid

/-- `threads` have been started by `pthread_create` and not ended. -/
structure State where
  table : Table Sym
  threads : Nat

/-- What `init_dl` leaves behind, when it is given the two loader functions. -/
def initDl (tls : Bool) : State where
  table := ⟨fun s => match s with
    | .dlmopen => true
    | .dlsym => true
    | .syscall => true
    | .fprintf => true
    | .stderr => true
    | .tlsGetAddr => tls
    | _ => false, []⟩
  threads := 0

def threadsAfter (n : Nat) : Call → Nat
  | .pthreadCreate true => n + 1
  | .endOfThread => n - 1
  | _ => n

def step (s : State) (c : Call) : Option State :=
  if c = .endOfThread → 0 < s.threads then
    some ⟨s.table.run .dlsym (body c), threadsAfter s.threads c⟩
  else none

def NoNullCall (s : State) : Prop := s.table.missed = []

/-- What a call needs beyond the pointers it loads itself and those of `initDl`. -/
def needs : Call → List Sym
  | .printf => [.vprintf]
  | .readdir => [.readdir]
  | .getTlsHooks => [.tlsGetAddr]
  | .endOfThread => [.pthreadMutexLock, .pthreadMutexUnlock]
  | _ => []

def ready : List Sym := [.dlmopen, .dlsym, .syscall, .fprintf, .stderr]

/-- The three calls that miss a load find the pointer resolved. -/
def Met (tls : Bool) (s : State) : Call → Prop
  | .printf => s.table.resolved .vprintf = true
  | .readdir => False
  | .getTlsHooks => tls = true
  | _ => True

structure Inv (tls : Bool) (s : State) : Prop where
  missed : s.table.missed = []
  ready : ∀ f ∈ ready, s.table.resolved f = true
  readdir : s.table.resolved .readdir = false
  tls : s.table.resolved .tlsGetAddr = tls
  threads : 0 < s.threads →
    s.table.resolved .pthreadMutexLock = true ∧ s.table.resolved .pthreadMutexUnlock = true

theorem use_mem_readLines {reads : List Nat} {f : Sym} (h : .use f ∈ readLines reads) :
    f = .feof ∨ f = .getline := by
  obtain ⟨n, _, h⟩ := List.mem_flatMap.mp h
  obtain h | h := List.mem_cons.mp h
  · exact .inl (Event.use.inj h)
  · exact .inr (Event.use.inj (List.eq_of_mem_replicate h))

theorem unmet_readBuildProp {fp : Bool} {reads : List Nat} {f : Sym}
    (h : f ∈ unmet (readBuildProp fp reads)) : f ∈ ready := by
  obtain h | ⟨h, hload⟩ := mem_unmet_append h
  · exact absurd h (by simp [unmet])
  · have huse : f = .feof ∨ f = .getline ∨ f = .fclose := by
      obtain h | h := List.mem_append.mp (use_mem_of_mem_unmet h)
      · cases fp with
        | false => exact absurd h List.not_mem_nil
        | true =>
          obtain h | h := List.mem_append.mp h
          · exact (use_mem_readLines h).imp id .inl
          · exact .inl (Event.use.inj (List.mem_singleton.mp h))
      · exact .inr (.inr (Event.use.inj (List.mem_singleton.mp h)))
    obtain rfl | rfl | rfl := huse <;> exact absurd (by decide) hload

theorem body_loads (c : Call) :
    (∀ f ∈ unmet (body c), f ∈ needs c ∨ f ∈ ready) ∧
      .load .readdir ∉ body c ∧ .load .tlsGetAddr ∉ body c := by
  cases c with
  | pthreadMutexLock static => cases static <;> decide
  | pthreadCreate created => cases created <;> decide
  | pthreadCondWait staticCond staticMutex => cases staticCond <;> cases staticMutex <;> decide
  | pthreadCondTimedwait staticCond staticMutex =>
    cases staticCond <;> cases staticMutex <;> decide
  | pthreadCondTimedwaitRelativeNp staticCond staticMutex =>
    cases staticCond <;> cases staticMutex <;> decide
  | pthreadCondDestroy realcond => cases realcond <;> decide
  | pthreadCondBroadcast static => cases static <;> decide
  | pthreadCondSignal static => cases static <;> decide
  | pthreadMutexDestroy realmutex => cases realmutex <;> decide
  | systemPropertyGet cached fp reads =>
    constructor
    · intro f hf
      cases cached with
      | true => exact absurd hf List.not_mem_nil
      | false => exact .inr (unmet_readBuildProp hf)
    · cases cached <;> cases fp <;> simp [body, when, readBuildProp, readLines]
  | _ => decide

theorem needs_subset_unmet (c : Call) : ∀ f ∈ needs c, f ∈ unmet (body c) := by
  cases c with
  | printf => decide
  | readdir => decide
  | getTlsHooks => decide
  | endOfThread => decide
  | _ => exact List.forall_mem_nil _

theorem step_cases {s t : State} {c : Call} (h : step s c = some t) :
    (c = .endOfThread → 0 < s.threads) ∧
      t = ⟨s.table.run .dlsym (body c), threadsAfter s.threads c⟩ := by
  unfold step at h
  split at h
  · rename_i hc
    exact ⟨hc, (Option.some.inj h).symm⟩
  · cases h

theorem needs_resolved_iff {tls : Bool} {s : State} {c : Call} (hi : Inv tls s)
    (henabled : c = .endOfThread → 0 < s.threads) :
    (∀ f ∈ needs c, s.table.resolved f = true) ↔ Met tls s c := by
  cases c with
  | printf => simp [needs, Met]
  | readdir => simp [needs, Met, hi.readdir]
  | getTlsHooks => simp [needs, Met, hi.tls]
  | endOfThread => simpa [needs, Met] using hi.threads (henabled rfl)
  | _ => simp [needs, Met]

theorem noNullCall_step_iff {tls : Bool} {s t : State} {c : Call} (hi : Inv tls s)
    (h : step s c = some t) : NoNullCall t ↔ Met tls s c := by
  obtain ⟨henabled, rfl⟩ := step_cases h
  have hdlsym : s.table.resolved .dlsym = true := hi.ready _ (by decide)
  rw [NoNullCall, run_missed_eq_nil_iff hdlsym hi.missed, ← needs_resolved_iff hi henabled]
  constructor
  · intro hall f hf
    exact hall f (needs_subset_unmet c f hf)
  · intro hneeds f hf
    obtain hf | hf := (body_loads c).1 f hf
    · exact hneeds f hf
    · exact hi.ready f hf

theorem pos_threadsAfter {n : Nat} {c : Call} (h : 0 < threadsAfter n c) :
    c = .pthreadCreate true ∨ 0 < n := by
  cases c with
  | pthreadCreate created =>
    cases created with
    | true => exact .inl rfl
    | false => exact .inr h
  | endOfThread =>
    apply Or.inr
    have h : 0 < n - 1 := h
    omega
  | _ => exact .inr h

theorem inv_step {tls : Bool} {s t : State} {c : Call} (hi : Inv tls s) (hc : Met tls s c)
    (h : step s c = some t) : Inv tls t := by
  have hmissed : t.table.missed = [] := (noNullCall_step_iff hi h).mpr hc
  obtain ⟨_, rfl⟩ := step_cases h
  have hmono : ∀ f, s.table.resolved f = true →
      (s.table.run .dlsym (body c)).resolved f = true :=
    fun f hf => (run_resolved .dlsym s.table (body c) f).mpr (.inl hf)
  have hframe : ∀ f, .load f ∉ body c →
      (s.table.run .dlsym (body c)).resolved f = s.table.resolved f := by
    intro f hf
    rw [Bool.eq_iff_iff, run_resolved, or_iff_left hf]
  obtain ⟨_, hreaddir, htls⟩ := body_loads c
  refine ⟨hmissed, fun f hf => hmono f (hi.ready f hf), ?_, ?_, fun hthreads => ?_⟩
  · rw [hframe _ hreaddir, hi.readdir]
  · rw [hframe _ htls, hi.tls]
  · obtain rfl | hthreads := pos_threadsAfter hthreads
    · constructor <;> exact (run_resolved _ _ _ _).mpr (.inr (by decide))
    · exact (hi.threads hthreads).imp (hmono _) (hmono _)

theorem inv_initDl (tls : Bool) : Inv tls (initDl tls) := by
  refine ⟨rfl, by simp [ready, initDl], rfl, rfl, fun h => absurd h (Nat.lt_irrefl 0)⟩

/-- Which histories of calls go through no null pointer. -/
theorem noNullCall_iff_met {tls : Bool} {calls : List Call}
    (hrun : (exec step (initDl tls) calls).isSome) :
    Always step NoNullCall (initDl tls) calls ↔ Guarded step (Met tls) (initDl tls) calls :=
  always_iff_guarded (fun _ hi => hi.missed) (fun _ _ _ => inv_step)
    (fun _ _ _ hi hc h hp => hc ((noNullCall_step_iff hi h).mp hp)) (inv_initDl tls) hrun

/-- An earlier `vprintf` hides what `printf` misses. -/
theorem noNullCall_iff_met_vprintf :
    Always step NoNullCall (initDl true)
        [.pthreadCreate true, .vprintf, .printf, .getTlsHooks, .endOfThread] ↔
      Guarded step (Met true) (initDl true)
        [.pthreadCreate true, .vprintf, .printf, .getTlsHooks, .endOfThread] :=
  noNullCall_iff_met (by decide)

/-- A first `printf` calls a null pointer, and so does any `readdir`. -/
theorem not_noNullCall_printf :
    ¬ ∀ calls, (exec step (initDl true) calls).isSome →
      Always step NoNullCall (initDl true) calls := by
  intro h
  have hp := h [.printf] (by decide) _ _ List.prefix_rfl rfl
  exact absurd (show _ = [] from hp) (by decide)

end FakeLibc.GlibcPointers

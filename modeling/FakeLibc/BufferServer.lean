import FakeLibc.RemoteBuffers
import FakeLibc.ServerWlegl
import Mathlib.Logic.Function.Basic

namespace FakeLibc.BufferServer

open FakeLibc.Lib.Words FakeLibc.NativeHandles FakeLibc.RemoteBuffers

structure server_wlegl_handle where
  client : Nat
  ints : WlArray
  fds : List CInt
  num_fds : CInt

structure Native where
  fds : List CInt
  ints : WlArray

/-- Where the native handle of a buffer is from: `native_handle_create`, the
allocator, or a variable that was never set. -/
inductive Source
  | created
  | allocated
  | unset
deriving DecidableEq

inductive Buf
  | unset
  | live (b : RemoteWindowBuffer)
  | deleted
deriving DecidableEq

/-- What a call has made. `resource` says that its `wl_buffer` resource is
alive, and `wrapper` that the `server_wlegl_buffer` in its user data is. -/
structure Buffer where
  client : Option Nat
  resource : Bool
  wrapper : Bool
  buf : Buf
  native : Native
  source : Source
  freed : Bool
  failed : Bool
  acquired : Nat

/-- A server with all its clients. Handles and buffers are numbered as they are
made. `received` has the descriptors that came with `add_fd` or with a remote
buffer that was registered, and `sent` the calls that sent the events of their
handle. -/
structure State where
  handles : Nat → Option server_wlegl_handle
  nextHandle : Nat
  buffers : Nat → Option Buffer
  nextBuffer : Nat
  received : List CInt
  closed : List CInt
  sent : List Nat
  crashed : Bool

def start : State := ⟨fun _ => none, 0, fun _ => none, 0, [], [], [], false⟩

def State.setHandle (s : State) (n : Nat) (h : Option server_wlegl_handle) : State :=
  { s with handles := Function.update s.handles n h }

def State.setBuffer (s : State) (n : Nat) (e : Buffer) : State :=
  { s with buffers := Function.update s.buffers n (some e) }

def State.newBuffer (s : State) (e : Buffer) : State :=
  { s.setBuffer s.nextBuffer e with nextBuffer := s.nextBuffer + 1 }

def State.close (s : State) (fds : List CInt) : State := { s with closed := s.closed ++ fds }

def State.receive (s : State) (fds : List CInt) : State := { s with received := s.received ++ fds }

def State.crash (s : State) : State := { s with crashed := true }

def server_wlegl_create_handle (s : State) (client : Nat) (num_fds : CInt) (ints : WlArray) :
    State :=
  if num_fds.toInt < 0 then s
  else { s.setHandle s.nextHandle (some ⟨client, ints, [], num_fds⟩) with
    nextHandle := s.nextHandle + 1 }

def add_fd (host : Host) (s : State) (n : Nat) (handle : server_wlegl_handle) (fd : CInt) : State :=
  if host.bytes handle.num_fds ≤ 4 * handle.fds.length then s.close [fd]
  else s.setHandle n (some { handle with fds := handle.fds ++ [fd] })

def server_wlegl_handle_dtor (s : State) (n : Nat) (handle : server_wlegl_handle) : State :=
  (s.setHandle n none).close handle.fds

/-- What the two arrays are copied into. -/
def nativeOf (host : Host) (handle : server_wlegl_handle) : NativeHandle :=
  native_handle_create host (countOf (4 * handle.fds.length)) (countOf handle.ints.length)

/-- The native handle, or `NULL` where the descriptors are not all there. It is
`none` where memory would be overrun: by ints that are no whole number of words. -/
def server_wlegl_handle_to_native (host : Host) (handle : server_wlegl_handle) :
    Option (Option Native) :=
  let native := nativeOf host handle
  if native.numFds ≠ handle.num_fds then some none
  else if 4 * handle.fds.length ≤ native.data.length ∧
      4 * native.numFds.toNat + handle.ints.length ≤ native.data.length then
    some (some ⟨handle.fds, handle.ints⟩)
  else none

/-- The resource is made before `registerBuffer` answers `ret`. A failure
deletes the `server_wlegl_buffer`, and the caller closes and frees the handle. -/
def server_wlegl_buffer_create (s : State) (client : Nat) (native : Native) (ret : Int) : State :=
  if ret ≠ 0 then
    (s.newBuffer ⟨some client, true, false, .unset, native, .created, true, true, 0⟩).close
      native.fds
  else
    s.newBuffer ⟨some client, true, true, .live Constructor.create.build, native, .created, false,
      false, 0⟩

def server_wlegl_create_buffer (host : Host) (s : State) (n : Nat) (handle : server_wlegl_handle)
    (width height : CInt) (ret : Int) : Option State :=
  if width.toInt < 1 ∨ height.toInt < 1 then some s
  else
    (server_wlegl_handle_to_native host handle).map (fun native =>
      match native with
      | none => s
      | some native =>
        server_wlegl_buffer_create (s.setHandle n (some { handle with fds := [] })) handle.client
          native ret)

/-- `alloc` answers `ret` and sets the handle to `native` if it succeeds. If it
does not, `native` is what lies where the handle points, which may not be
`readable`. -/
def server_wlegl_get_server_buffer_handle (s : State) (client : Nat) (width height : CInt)
    (ret : Int) (native : Native) (readable : Bool) : State :=
  if width = 0 ∨ height = 0 then s
  else
    let source := if ret = 0 then Source.allocated else .unset
    let t := s.newBuffer ⟨some client, true, true, .live Constructor.createServer.build, native,
      source, false, ret ≠ 0, 0⟩
    if ret ≠ 0 ∧ !readable then t.crash else { t with sent := s.nextBuffer :: s.sent }

/-- The caller has a reference to the buffer, which owns the descriptors. If it
is not registered, the native handle is left behind. -/
def eglHybrisCreateRemoteBuffer (s : State) (native : Native) (ret : Int) : State :=
  if ret = 0 then
    s.newBuffer ⟨none, false, false, .live (incRef (remoteWindowBuffer true)), native, .created,
      false, false, 1⟩
  else s.newBuffer ⟨none, false, false, .unset, native, .created, false, true, 0⟩

def closedBy (b : RemoteWindowBuffer) (native : Native) : List CInt :=
  if .nativeHandleClose ∈ dispose b then native.fds else []

/-- The use of a buffer that is not alive ends the process. -/
def State.unref (s : State) (n : Nat) : State :=
  match s.buffers n with
  | none => s.crash
  | some e =>
    match e.buf with
    | .live b =>
      match decRef b with
      | some b => s.setBuffer n { e with buf := .live b }
      | none =>
        (s.setBuffer n { e with buf := .deleted, freed := true }).close (closedBy b e.native)
    | _ => s.crash

/-- The buffer that is reached through a resource. Where a `server_wlegl_buffer`
was deleted there may be another one by now, or nothing usable. -/
def Buffer.target (e : Buffer) (n : Nat) (garbage : Option Nat) : Option Nat :=
  if e.wrapper then some n else garbage

def State.deleteWrapper (s : State) (n : Nat) : State :=
  match s.buffers n with
  | none => s
  | some e => s.setBuffer n { e with wrapper := false }

def server_wlegl_buffer_dtor (s : State) (n : Nat) (e : Buffer) (garbage : Option Nat) : State :=
  let s := s.setBuffer n { e with resource := false }
  match e.target n garbage with
  | none => s.crash
  | some m => (s.unref m).deleteWrapper m

def eglHybrisAcquireNativeBufferWL (s : State) (n : Nat) (e : Buffer) (garbage : Option Nat) :
    State :=
  match e.target n garbage with
  | none => s.crash
  | some m =>
    match s.buffers m with
    | none => s.crash
    | some e =>
      match e.buf with
      | .live b =>
        if b.allocated then
          s.setBuffer m { e with buf := .live (incRef b), acquired := e.acquired + 1 }
        else s
      | _ => s.crash

def eglHybrisReleaseNativeBuffer (s : State) (n : Nat) (e : Buffer) : State :=
  (s.setBuffer n { e with acquired := e.acquired - 1 }).unref n

inductive Resource
  | handle (n : Nat)
  | buffer (n : Nat)
deriving DecidableEq

def wl_resource_destroy (garbage : Nat → Option Nat) (s : State) (r : Resource) : State :=
  if s.crashed then s
  else
    match r with
    | .handle n =>
      match s.handles n with
      | none => s
      | some handle => server_wlegl_handle_dtor s n handle
    | .buffer n =>
      match s.buffers n with
      | none => s
      | some e => if e.resource then server_wlegl_buffer_dtor s n e (garbage n) else s

def State.owns (s : State) (client : Nat) : Resource → Bool
  | .handle n => (s.handles n).any (fun h => h.client = client)
  | .buffer n => (s.buffers n).any (fun e => e.resource ∧ e.client = some client)

/-- Requests of clients, calls of the compositor, and the end of a client, whose
resources are destroyed in some order. -/
inductive Action
  | create_handle (client : Nat) (num_fds : CInt) (ints : WlArray)
  | add_fd (handle : Nat) (fd : CInt)
  | create_buffer (handle : Nat) (width height : CInt) (ret : Int)
  | get_server_buffer_handle (client : Nat) (width height : CInt) (ret : Int) (native : Native)
      (readable : Bool)
  | destroy (r : Resource) (garbage : Nat → Option Nat)
  | disconnect (client : Nat) (order : List Resource) (garbage : Nat → Option Nat)
  | acquire (buffer : Nat) (garbage : Option Nat)
  | release (buffer : Nat)
  | createRemoteBuffer (native : Native) (ret : Int)

def State.Lists (s : State) (client : Nat) (order : List Resource) : Prop :=
  (∀ n < s.nextHandle, s.owns client (.handle n) → .handle n ∈ order) ∧
    (∀ n < s.nextBuffer, s.owns client (.buffer n) → .buffer n ∈ order) ∧
    ∀ r ∈ order, s.owns client r

instance (s : State) (client : Nat) (order : List Resource) : Decidable (s.Lists client order) :=
  inferInstanceAs (Decidable (_ ∧ _ ∧ _))

/-- A request is about an object that exists, and nobody releases a buffer that
he has not acquired. The descriptors of a remote buffer stay the caller's if it
is not registered. -/
def step (host : Host) (s : State) (a : Action) : Option State :=
  if s.crashed then none
  else
    match a with
    | .create_handle client num_fds ints =>
      some (server_wlegl_create_handle s client num_fds ints)
    | .add_fd n fd => (s.handles n).map (fun handle => add_fd host (s.receive [fd]) n handle fd)
    | .create_buffer n width height ret =>
      (s.handles n).bind (fun handle =>
        server_wlegl_create_buffer host s n handle width height ret)
    | .get_server_buffer_handle client width height ret native readable =>
      some (server_wlegl_get_server_buffer_handle s client width height ret native readable)
    | .destroy r garbage => some (wl_resource_destroy garbage s r)
    | .disconnect client order garbage =>
      if s.Lists client order then some (order.foldl (wl_resource_destroy garbage) s) else none
    | .acquire n garbage =>
      (s.buffers n).bind (fun e =>
        if e.resource then some (eglHybrisAcquireNativeBufferWL s n e garbage) else none)
    | .release n =>
      (s.buffers n).bind (fun e =>
        if 0 < e.acquired then some (eglHybrisReleaseNativeBuffer s n e) else none)
    | .createRemoteBuffer native ret =>
      some (eglHybrisCreateRemoteBuffer (s.receive (if ret = 0 then native.fds else [])) native ret)

section Cases

variable {s : State} {n : Nat}

/-- What dropping a reference can do. -/
theorem unref_cases (s : State) (n : Nat) :
    s.unref n = s.crash ∨ ∃ e b, s.buffers n = some e ∧ e.buf = .live b ∧
      ((∃ b', decRef b = some b' ∧ s.unref n = s.setBuffer n { e with buf := .live b' }) ∨
        decRef b = none ∧ s.unref n = (s.setBuffer n
          { e with buf := .deleted, freed := true }).close (closedBy b e.native)) := by
  unfold State.unref
  cases he : s.buffers n with
  | none => exact .inl rfl
  | some e =>
    dsimp only
    cases hbuf : e.buf with
    | unset | deleted => exact .inl rfl
    | live b =>
      refine .inr ⟨e, b, rfl, hbuf, ?_⟩
      dsimp only
      cases hdec : decRef b with
      | some b' => exact .inl ⟨b', rfl, rfl⟩
      | none => exact .inr ⟨rfl, rfl⟩

theorem acquire_cases (s : State) (n : Nat) (e : Buffer) (garbage : Option Nat) :
    eglHybrisAcquireNativeBufferWL s n e garbage = s ∨
      eglHybrisAcquireNativeBufferWL s n e garbage = s.crash ∨
      ∃ m e' b, s.buffers m = some e' ∧ e'.buf = .live b ∧
        eglHybrisAcquireNativeBufferWL s n e garbage =
          s.setBuffer m { e' with buf := .live (incRef b), acquired := e'.acquired + 1 } := by
  unfold eglHybrisAcquireNativeBufferWL
  cases e.target n garbage with
  | none => exact .inr (.inl rfl)
  | some m =>
    dsimp only
    cases he : s.buffers m with
    | none => exact .inr (.inl rfl)
    | some e' =>
      dsimp only
      cases hbuf : e'.buf with
      | unset | deleted => exact .inr (.inl rfl)
      | live b =>
        dsimp only
        split
        · exact .inr (.inr ⟨m, e', b, he, hbuf, rfl⟩)
        · exact .inl rfl

theorem fds_of_to_native {host : Host} {handle : server_wlegl_handle} {native : Native}
    (h : server_wlegl_handle_to_native host handle = some (some native)) :
    native.fds = handle.fds := by
  rw [server_wlegl_handle_to_native] at h
  split at h
  · cases h
  · obtain ⟨_, h⟩ := Option.ite_none_right_eq_some.mp h
    obtain rfl := Option.some.inj (Option.some.inj h)
    rfl

theorem create_buffer_cases {host : Host} {s t : State} {n : Nat} {handle : server_wlegl_handle}
    {width height : CInt} {ret : Int}
    (h : server_wlegl_create_buffer host s n handle width height ret = some t) :
    t = s ∧ ((width.toInt < 1 ∨ height.toInt < 1) ∨
        server_wlegl_handle_to_native host handle = some none) ∨
      ∃ native, ¬ (width.toInt < 1 ∨ height.toInt < 1) ∧
        server_wlegl_handle_to_native host handle = some (some native) ∧
        t = server_wlegl_buffer_create (s.setHandle n (some { handle with fds := [] }))
          handle.client native ret := by
  unfold server_wlegl_create_buffer at h
  split at h
  next hbad => exact .inl ⟨(Option.some.inj h).symm, .inl hbad⟩
  next hgood =>
    obtain ⟨native, hnative, rfl⟩ := Option.map_eq_some_iff.mp h
    cases native with
    | none => exact .inl ⟨rfl, .inr hnative⟩
    | some native => exact .inr ⟨native, hgood, hnative, rfl⟩

variable {P : State → Prop} {garbage : Nat → Option Nat}

theorem destroy_preserves
    (hhandle : ∀ s n handle, P s → s.handles n = some handle →
      P (server_wlegl_handle_dtor s n handle))
    (hbuffer : ∀ s n e, P s → s.buffers n = some e → e.resource = true →
      P (server_wlegl_buffer_dtor s n e (garbage n)))
    (hs : P s) (r : Resource) : P (wl_resource_destroy garbage s r) := by
  unfold wl_resource_destroy
  split
  · exact hs
  · cases r with
    | handle n =>
      dsimp only
      cases hn : s.handles n with
      | none => exact hs
      | some handle => exact hhandle s n handle hs hn
    | buffer n =>
      dsimp only
      cases he : s.buffers n with
      | none => exact hs
      | some e =>
        dsimp only
        split
        next hlive => exact hbuffer s n e hs he hlive
        next => exact hs

theorem disconnect_preserves (hdestroy : ∀ s r, P s → P (wl_resource_destroy garbage s r))
    (hs : P s) (order : List Resource) : P (order.foldl (wl_resource_destroy garbage) s) := by
  induction order generalizing s with
  | nil => exact hs
  | cons r order ih => exact ih (hdestroy s r hs)

end Cases

/-- A handle whose arrays are in memory, byte for byte. -/
structure Shows (layout : Layout) (a : ServerWlegl.server_wlegl_handle)
    (handle : server_wlegl_handle) : Prop where
  ints : a.ints = handle.ints
  fds : a.fds = layout.pack handle.fds
  num_fds : a.num_fds = handle.num_fds

section Bytes

variable {host : Host} {layout : Layout} {a : ServerWlegl.server_wlegl_handle}
  {handle : server_wlegl_handle}

theorem Shows.length_fds (h : Shows layout a handle) : a.fds.length = 4 * handle.fds.length := by
  rw [h.fds, layout.length_pack, layout.size_eq]

/-- The request that takes a descriptor does the same in memory. -/
theorem shows_add_fd (h : Shows layout a handle) {server : ServerWlegl.Server} {id : Nat}
    (hserver : server.handles id = some a) {s : State} {n : Nat} (hs : s.handles n = some handle)
    (fd : CInt) : ∃ server' a' handle' closed,
      ServerWlegl.add_fd host layout server id fd = some server' ∧
      server'.handles id = some a' ∧ (add_fd host s n handle fd).handles n = some handle' ∧
      Shows layout a' handle' ∧ server'.closed = server.closed ++ closed ∧
      (add_fd host s n handle fd).closed = s.closed ++ closed := by
  have hlength := h.length_fds
  rw [ServerWlegl.add_fd, hserver]
  simp only [Option.bind_eq_bind, Option.bind_some]
  by_cases hfull : host.bytes handle.num_fds ≤ 4 * handle.fds.length
  · rw [if_pos (by rw [h.num_fds, hlength]; exact hfull), add_fd, if_pos hfull]
    exact ⟨_, a, handle, [fd], rfl, hserver, hs, h, rfl, rfl⟩
  · rw [if_neg (by rw [h.num_fds, hlength]; exact hfull), add_fd, if_neg hfull, appendInt_eq]
    refine ⟨_, { a with fds := a.fds ++ layout.encode fd },
      { handle with fds := handle.fds ++ [fd] }, [], rfl, Function.update_self ..,
      Function.update_self .., ⟨h.ints, ?_, h.num_fds⟩, (List.append_nil _).symm,
      (List.append_nil _).symm⟩
    rw [h.fds, layout.pack_append, layout.pack_cons, layout.pack_nil, List.append_nil]

theorem shows_dtor (h : Shows layout a handle) {server : ServerWlegl.Server} {id : Nat}
    (hserver : server.handles id = some a) :
    ∃ server', ServerWlegl.destroy layout server id = some server' ∧
      server'.handles id = none ∧ server'.closed = server.closed ++ handle.fds := by
  have hcount : a.fds.length / 4 = handle.fds.length := by
    rw [h.length_fds, Nat.mul_div_cancel_left _ (by decide)]
  have hwords : layout.words a.fds (a.fds.length / 4) = handle.fds := by
    rw [hcount, h.fds, ← List.append_nil (layout.pack handle.fds)]
    exact layout.words_pack_append handle.fds []
  rw [ServerWlegl.destroy, hserver]
  exact ⟨_, rfl, Function.update_self .., congrArg (server.closed ++ ·) hwords⟩

theorem countOf_length (h : Shows layout a handle) :
    countOf a.fds.length = (nativeOf host handle).numFds := by
  rw [h.length_fds]
  rfl

theorem shows_to_native_none (h : Shows layout a handle)
    (hnone : server_wlegl_handle_to_native host handle = some none) :
    ServerWlegl.server_wlegl_handle_to_native host a = some (none, a) := by
  have hne : (nativeOf host handle).numFds ≠ handle.num_fds := by
    intro heq
    rw [server_wlegl_handle_to_native, if_neg (not_not_intro heq)] at hnone
    split at hnone <;> cases hnone
  rw [ServerWlegl.server_wlegl_handle_to_native, if_pos]
  rwa [countOf_length h, h.num_fds]

theorem to_native_eq (h : Shows layout a handle)
    (hcount : (nativeOf host handle).numFds = handle.num_fds) :
    ServerWlegl.server_wlegl_handle_to_native host a =
      (memcpy (nativeOf host handle).data 0 a.fds).bind (fun data =>
        (memcpy data (4 * (nativeOf host handle).numFds.toNat) a.ints).map (fun data =>
          (some { nativeOf host handle with data := data }, { a with fds := [] }))) := by
  rw [ServerWlegl.server_wlegl_handle_to_native,
    if_neg (by rw [countOf_length h, h.num_fds]; exact not_not_intro hcount), assemble,
    h.length_fds, h.ints]
  simp only [Option.bind_eq_bind, Option.pure_def, Option.map_bind]
  refine congrArg (Option.bind (memcpy (nativeOf host handle).data 0 a.fds)) (funext fun data => ?_)
  show Option.map _ ((memcpy data (4 * (nativeOf host handle).numFds.toNat) handle.ints).bind _) = _
  cases memcpy data (4 * (nativeOf host handle).numFds.toNat) handle.ints with
  | none => rfl
  | some data => rfl

/-- Where memory would be overrun, one of the two copies overruns it. -/
theorem shows_to_native_overrun (h : Shows layout a handle)
    (hover : server_wlegl_handle_to_native host handle = none) :
    ServerWlegl.server_wlegl_handle_to_native host a = none := by
  rw [server_wlegl_handle_to_native] at hover
  split at hover
  next => cases hover
  next hcount =>
    split at hover
    next => cases hover
    next hroom =>
      rw [to_native_eq h (not_not.mp hcount)]
      cases hfds : memcpy (nativeOf host handle).data 0 a.fds with
      | none => rfl
      | some mem =>
        obtain ⟨hle, hlength, _⟩ := memcpy_some hfds
        rw [Option.bind_some, memcpy_eq_none, Option.map_none]
        intro hints
        rw [hlength, h.ints] at hints
        rw [h.length_fds, Nat.zero_add] at hle
        exact hroom ⟨hle, hints⟩

/-- Otherwise the native handle in memory has the same descriptors. -/
theorem shows_to_native_some (h : Shows layout a handle) {native : Native}
    (hsome : server_wlegl_handle_to_native host handle = some (some native))
    (hlt : handle.fds.length < 2 ^ 31) :
    ∃ b, ServerWlegl.server_wlegl_handle_to_native host a = some (some b, { a with fds := [] }) ∧
      native_handle_close layout b = native.fds := by
  rw [server_wlegl_handle_to_native] at hsome
  split at hsome
  next => cases hsome
  next hcount =>
    obtain ⟨⟨hfds, hints⟩, hnative⟩ := Option.ite_none_right_eq_some.mp hsome
    have hnum : (nativeOf host handle).numFds.toNat = handle.fds.length := by
      rw [nativeOf, native_handle_create, countOf, Nat.mul_div_cancel_left _ (by decide),
        BitVec.toNat_ofNat]
      omega
    have hlength : a.fds.length = 4 * (nativeOf host handle).numFds.toNat := by
      rw [h.length_fds, hnum]
    -- the first copy leaves the descriptors in front, and the second one goes behind them
    let mem := a.fds ++ (nativeOf host handle).data.drop a.fds.length
    have hstart : memcpy (nativeOf host handle).data 0 a.fds = some mem :=
      memcpy_start (by rw [h.length_fds]; exact hfds)
    have hmem : mem.length = (nativeOf host handle).data.length := (memcpy_some hstart).2.1
    have hroom : a.fds.length + a.ints.length ≤ mem.length := by
      rw [hmem, hlength, h.ints]
      exact hints
    have hsecond := memcpy_eq hroom
    rw [show mem.take a.fds.length = a.fds from List.take_left] at hsecond
    rw [to_native_eq h (not_not.mp hcount), hstart, Option.bind_some, ← hlength, hsecond]
    refine ⟨_, rfl, ?_⟩
    have hversion : (nativeOf host handle).version = sizeofNativeHandle := rfl
    have htoInt : (nativeOf host handle).numFds.toInt.toNat = handle.fds.length := by
      rw [toInt_of_lt (by omega), Int.toNat_natCast, hnum]
    obtain rfl := Option.some.inj (Option.some.inj hnative)
    rw [native_handle_close, if_neg (not_not_intro hversion), htoInt, h.fds, List.append_assoc]
    exact layout.words_pack_append handle.fds _

end Bytes

end FakeLibc.BufferServer

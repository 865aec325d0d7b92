import FakeLibc.Lib.Run
import FakeLibc.NativeHandles
import Mathlib.Data.List.Forall2
import Mathlib.Logic.Function.Basic

namespace FakeLibc.ServerWlegl

open FakeLibc.NativeHandles

abbrev ObjectId := Nat

def ANDROID_WLEGL_ERROR_BAD_HANDLE : Nat := 0

def ANDROID_WLEGL_ERROR_BAD_VALUE : Nat := 1

def ANDROID_WLEGL_HANDLE_ERROR_TOO_MANY_FDS : Nat := 0

def GRALLOC_USAGE_HW_COMPOSER : CInt := 0x800

structure ProtocolError where
  code : Nat
  message : String
  deriving DecidableEq

structure server_wlegl_handle where
  ints : WlArray
  fds : WlArray
  num_fds : CInt

structure RemoteWindowBuffer where
  width : CInt
  height : CInt
  stride : CInt
  format : CInt
  usage : CInt
  handle : NativeHandle
  allocated : Bool

inductive Request
  | create_handle (id : ObjectId) (num_fds : CInt) (ints : WlArray)
  | create_buffer (id : ObjectId) (width height stride format usage : CInt)
      (native_handle : ObjectId)
  | get_server_buffer_handle (id : ObjectId) (width height format usage : CInt)
  | add_fd (handle : ObjectId) (fd : CInt)
  | destroy (handle : ObjectId)

inductive Event
  | buffer_fd (fd : CInt)
  | buffer_ints (ints : WlArray)
  | buffer (buffer : ObjectId) (format stride : CInt)

/-- The two modules of the server's graphics driver. A buffer is registered
where `registerBuffer` is true, and `alloc` gives a handle and its stride. -/
structure Driver where
  registerBuffer : NativeHandle → Bool
  alloc : (width height format usage : CInt) → NativeHandle × CInt

/-- What the server keeps for one client, with all it has sent to it and all
the descriptors it has closed. -/
structure Server where
  handles : ObjectId → Option server_wlegl_handle
  buffers : ObjectId → Option RemoteWindowBuffer
  nextId : ObjectId
  events : List (ObjectId × Event)
  errors : List ProtocolError
  closed : List CInt

def Server.post_error (s : Server) (code : Nat) (message : String) : Server :=
  { s with errors := s.errors ++ [⟨code, message⟩] }

def server_wlegl_create_handle (s : Server) (id : ObjectId) (num_fds : CInt) (ints : WlArray) :
    Server :=
  if num_fds.toInt < 0 then
    s.post_error ANDROID_WLEGL_ERROR_BAD_VALUE ("num_fds is negative: " ++ toString num_fds.toInt)
  else
    { s with
      handles := Function.update s.handles id
        (some { ints := wl_array_copy [] ints, fds := [], num_fds := num_fds }) }

section Process

variable (host : Host) (layout : Layout) (driver : Driver)

def add_fd (s : Server) (id : ObjectId) (fd : CInt) : Option Server := do
  let handle ← s.handles id
  if host.bytes handle.num_fds ≤ handle.fds.length then
    return { s with closed := s.closed ++ [fd] }.post_error
      ANDROID_WLEGL_HANDLE_ERROR_TOO_MANY_FDS "too many file descriptors"
  else
    let fds ← appendInt host layout handle.fds fd
    return { s with handles := Function.update s.handles id (some { handle with fds := fds }) }

def destroy (s : Server) (id : ObjectId) : Option Server := do
  let handle ← s.handles id
  return { s with
    handles := Function.update s.handles id none
    closed := s.closed ++ layout.words handle.fds (handle.fds.length / 4) }

/-- The handle, or `NULL` where the descriptors are not all there. The
descriptors go with the handle. -/
def server_wlegl_handle_to_native (handle : server_wlegl_handle) :
    Option (Option NativeHandle × server_wlegl_handle) :=
  if countOf handle.fds.length ≠ handle.num_fds then some (none, handle)
  else (assemble host handle.fds handle.ints).map
    (fun native => (some native, { handle with fds := [] }))

def server_wlegl_create_buffer (s : Server) (id : ObjectId)
    (width height stride format usage : CInt) (hnd : ObjectId) : Option Server := do
  let handle ← s.handles hnd
  if width.toInt < 1 ∨ height.toInt < 1 then
    return s.post_error ANDROID_WLEGL_ERROR_BAD_VALUE
      ("bad width (" ++ toString width.toInt ++ ") or height (" ++ toString height.toInt ++ ")")
  else
    let (native, handle) ← server_wlegl_handle_to_native host handle
    let s := { s with handles := Function.update s.handles hnd (some handle) }
    match native with
    | none => return s.post_error ANDROID_WLEGL_ERROR_BAD_HANDLE "fd count mismatch"
    | some native =>
      if driver.registerBuffer native then
        return { s with
          buffers := Function.update s.buffers id
            (some ⟨width, height, stride, format, usage, native, false⟩) }
      else
        return { s with closed := s.closed ++ native_handle_close layout native }.post_error
          ANDROID_WLEGL_ERROR_BAD_HANDLE "invalid native handle"

/-- The buffer that is made here is an object of the server's own. -/
def server_wlegl_get_server_buffer_handle (s : Server) (id : ObjectId)
    (width height format usage : CInt) : Option Server :=
  if width = 0 ∨ height = 0 then
    return s.post_error 0 ("invalid buffer size: " ++ toString width.toNat ++ ","
      ++ toString height.toNat ++ "\n")
  else do
    let usage := usage ||| GRALLOC_USAGE_HW_COMPOSER
    let (handle, stride) := driver.alloc width height format usage
    let ints ← intsOf host handle
    let sent := .buffer_ints ints :: (fdsOf layout handle).map .buffer_fd
      ++ [.buffer s.nextId format stride]
    return { s with
      buffers := Function.update s.buffers s.nextId
        (some ⟨width, height, stride, format, usage, handle, true⟩)
      nextId := s.nextId + 1
      events := s.events ++ sent.map (fun event => (id, event)) }

/-- One request. It is `none` for an object that does not exist, which the
protocol library turns away, and where memory would be overrun. -/
def dispatch (s : Server) : Request → Option Server
  | .create_handle id num_fds ints => some (server_wlegl_create_handle s id num_fds ints)
  | .create_buffer id width height stride format usage hnd =>
    server_wlegl_create_buffer host layout driver s id width height stride format usage hnd
  | .get_server_buffer_handle id width height format usage =>
    server_wlegl_get_server_buffer_handle host layout driver s id width height format usage
  | .add_fd id fd => add_fd host layout s id fd
  | .destroy id => destroy layout s id

end Process

/-- A message as it arrives: a descriptor may have another number in the other
process, as `same` says, and all else is as it was sent. -/
inductive Request.Delivered (same : CInt → CInt → Prop) : Request → Request → Prop
  | add_fd (handle : ObjectId) {fd fd' : CInt} (hsame : same fd fd') :
    Delivered same (.add_fd handle fd) (.add_fd handle fd')
  | other {r : Request} (hr : ∀ handle fd, r ≠ .add_fd handle fd) : Delivered same r r

inductive Event.Delivered (same : CInt → CInt → Prop) : Event → Event → Prop
  | buffer_fd {fd fd' : CInt} (hsame : same fd fd') :
    Delivered same (.buffer_fd fd) (.buffer_fd fd')
  | other {e : Event} (he : ∀ fd, e ≠ .buffer_fd fd) : Delivered same e e

section Transport

variable {same : CInt → CInt → Prop}

theorem forall₂_map_append {M : Type} {R : M → M → Prop} {f : CInt → M}
    (hf : ∀ fd m, R (f fd) m → ∃ fd', m = f fd' ∧ same fd fd') {fds : List CInt}
    {rest received : List M} (h : List.Forall₂ R (fds.map f ++ rest) received) :
    ∃ fds' rest', received = fds'.map f ++ rest' ∧ List.Forall₂ same fds fds' ∧
      List.Forall₂ R rest rest' := by
  induction fds generalizing received with
  | nil => exact ⟨[], received, rfl, .nil, h⟩
  | cons fd fds ih =>
    rw [List.map_cons, List.cons_append] at h
    obtain ⟨m, ms, hm, hms, rfl⟩ := List.forall₂_cons_left_iff.mp h
    obtain ⟨fd', rfl, hsame⟩ := hf fd m hm
    obtain ⟨fds', rest', rfl, hfds, hrest⟩ := ih hms
    exact ⟨fd' :: fds', rest', rfl, .cons hsame hfds, hrest⟩

theorem Request.Delivered.add_fd_left (id : ObjectId) (fd : CInt) (r : Request)
    (h : Request.Delivered same (.add_fd id fd) r) : ∃ fd', r = .add_fd id fd' ∧ same fd fd' := by
  cases h with
  | add_fd _ hsame => exact ⟨_, rfl, hsame⟩
  | other hr => exact absurd rfl (hr id fd)

theorem Request.Delivered.eq_of_ne {r r' : Request} (h : Request.Delivered same r r')
    (hr : ∀ id fd, r ≠ .add_fd id fd) : r' = r := by
  cases h with
  | add_fd id _ => exact absurd rfl (hr id _)
  | other _ => rfl

theorem Event.Delivered.buffer_fd_left (fd : CInt) (e : Event)
    (h : Event.Delivered same (.buffer_fd fd) e) : ∃ fd', e = .buffer_fd fd' ∧ same fd fd' := by
  cases h with
  | buffer_fd hsame => exact ⟨_, rfl, hsame⟩
  | other he => exact absurd rfl (he fd)

theorem Event.Delivered.eq_of_ne {e e' : Event} (h : Event.Delivered same e e')
    (he : ∀ fd, e ≠ .buffer_fd fd) : e' = e := by
  cases h with
  | buffer_fd _ => exact absurd rfl (he _)
  | other _ => rfl

end Transport

end FakeLibc.ServerWlegl

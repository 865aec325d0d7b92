import FakeLibc.BufferServer
import FakeLibc.Lib.Places

namespace FakeLibc.DescriptorBalance

open FakeLibc.Lib.Run FakeLibc.Lib.Places
open FakeLibc.NativeHandles FakeLibc.BufferServer
open FakeLibc.RemoteBuffers (RemoteWindowBuffer Constructor incRef decRef dispose)

def arrayOf : Option server_wlegl_handle → List CInt
  | none => []
  | some handle => handle.fds

/-- The descriptors that a live native handle owns: those that the destructor of
its buffer is going to close. -/
def ownedBy : Option Buffer → List CInt
  | none => []
  | some e =>
    match e.buf with
    | .live b => closedBy b e.native
    | _ => []

/-- Every descriptor that was received was closed once, or it is in the array of
one handle, or one live native handle owns it. -/
def Balanced (s : State) : Prop :=
  ∀ fd, s.received.count fd = s.closed.count fd +
    held arrayOf s.handles fd s.nextHandle +
    held ownedBy s.buffers fd s.nextBuffer

/-- The invariant within a call, where some descriptors are `pending`: they were
taken from one place and are not yet in another. -/
structure Inv (pending : List CInt) (s : State) : Prop where
  balanced : ∀ fd, s.received.count fd = s.closed.count fd +
    held arrayOf s.handles fd s.nextHandle +
    held ownedBy s.buffers fd s.nextBuffer + pending.count fd
  handles : ∀ n handle, s.handles n = some handle → n < s.nextHandle
  buffers : ∀ n e, s.buffers n = some e → n < s.nextBuffer

theorem inv_start : Inv [] start :=
  ⟨fun _ => rfl, fun _ _ h => by simp [start] at h, fun _ _ h => by simp [start] at h⟩

section Parts

variable {s : State} {n : Nat} {pending pending' : List CInt}

theorem lt_of_update {α : Type} {table : Nat → Option α} {k n m : Nat} {x : Option α} {y : α}
    (h : ∀ n y, table n = some y → n < k) (hn : n < k)
    (hm : Function.update table n x m = some y) : m < k := by
  by_cases hmn : m = n
  · exact hmn ▸ hn
  · rw [Function.update_of_ne hmn] at hm
    exact h m y hm

theorem inv_receive (hs : Inv [] s) (fds : List CInt) : Inv fds (s.receive fds) := by
  refine ⟨fun fd => ?_, hs.handles, hs.buffers⟩
  have hbalance := hs.balanced fd
  rw [List.count_nil] at hbalance
  simp only [State.receive, List.count_append]
  omega

theorem inv_close (hs : Inv pending s) : Inv [] (s.close pending) := by
  refine ⟨fun fd => ?_, hs.handles, hs.buffers⟩
  have hbalance := hs.balanced fd
  simp only [State.close, List.count_append, List.count_nil]
  omega

theorem inv_setHandle (hs : Inv pending s) (hn : n < s.nextHandle)
    {h : Option server_wlegl_handle}
    (hcount : ∀ fd, pending.count fd + (arrayOf (s.handles n)).count fd =
      pending'.count fd + (arrayOf h).count fd) :
    Inv pending' (s.setHandle n h) := by
  refine ⟨fun fd => ?_, fun m _ => lt_of_update hs.handles hn, hs.buffers⟩
  have hchange := held_update arrayOf s.handles hn h fd
  have hbalance := hs.balanced fd
  have hfd := hcount fd
  simp only [State.setHandle]
  omega

theorem inv_setBuffer (hs : Inv pending s) (hn : n < s.nextBuffer) {e : Buffer}
    (hcount : ∀ fd, pending.count fd + (ownedBy (s.buffers n)).count fd =
      pending'.count fd + (ownedBy (some e)).count fd) :
    Inv pending' (s.setBuffer n e) := by
  refine ⟨fun fd => ?_, hs.handles, fun m _ => lt_of_update hs.buffers hn⟩
  have hchange := held_update ownedBy s.buffers hn (some e) fd
  have hbalance := hs.balanced fd
  have hfd := hcount fd
  simp only [State.setBuffer]
  omega

theorem inv_setBuffer_same (hs : Inv pending s) {e e' : Buffer} (he : s.buffers n = some e)
    (hsame : ownedBy (some e') = ownedBy (some e)) : Inv pending (s.setBuffer n e') := by
  refine inv_setBuffer hs (hs.buffers n e he) (fun fd => ?_)
  rw [he, hsame]

theorem inv_newBuffer (hs : Inv pending s) {e : Buffer}
    (hcount : ∀ fd, pending.count fd = pending'.count fd + (ownedBy (some e)).count fd) :
    Inv pending' (s.newBuffer e) := by
  have hlt : ∀ m y, s.buffers m = some y → m < s.nextBuffer + 1 :=
    fun m y hm => Nat.lt_succ_of_lt (hs.buffers m y hm)
  refine ⟨fun fd => ?_, hs.handles, fun m _ => lt_of_update hlt (Nat.lt_succ_self _)⟩
  have hnew := held_insert ownedBy s.buffers s.nextBuffer (some e) fd
  have hbalance := hs.balanced fd
  have hfd := hcount fd
  simp only [State.newBuffer, State.setBuffer]
  omega

theorem inv_crash (hs : Inv pending s) : Inv pending s.crash :=
  ⟨hs.balanced, hs.handles, hs.buffers⟩

end Parts

section Handles

variable {s : State} {n : Nat} {handle : server_wlegl_handle}

theorem inv_create_handle (hs : Inv [] s) (client : Nat) (num_fds : CInt) (ints : WlArray) :
    Inv [] (server_wlegl_create_handle s client num_fds ints) := by
  unfold server_wlegl_create_handle
  split
  · exact hs
  · have hlt : ∀ m y, s.handles m = some y → m < s.nextHandle + 1 :=
      fun m y hm => Nat.lt_succ_of_lt (hs.handles m y hm)
    refine ⟨fun fd => ?_, fun m _ => lt_of_update hlt (Nat.lt_succ_self _), hs.buffers⟩
    have hnew := held_insert arrayOf s.handles s.nextHandle (some ⟨client, ints, [], num_fds⟩) fd
    have hbalance := hs.balanced fd
    have hempty : arrayOf (some ⟨client, ints, [], num_fds⟩) = [] := rfl
    rw [hempty, List.count_nil] at hnew
    simp only [State.setHandle]
    omega

theorem inv_add_fd {fd : CInt} (hs : Inv [fd] s) (host : Host) (hn : s.handles n = some handle) :
    Inv [] (add_fd host s n handle fd) := by
  unfold add_fd
  split
  · exact inv_close hs
  · refine inv_setHandle hs (hs.handles n handle hn) (fun x => ?_)
    simp only [hn, arrayOf, List.count_append, List.count_nil]
    omega

theorem inv_takeFds (hs : Inv [] s) (hn : s.handles n = some handle)
    {h : Option server_wlegl_handle} (hempty : arrayOf h = []) :
    Inv handle.fds (s.setHandle n h) := by
  refine inv_setHandle hs (hs.handles n handle hn) (fun fd => ?_)
  rw [hn, hempty]
  exact Nat.add_comm _ _

theorem inv_handle_dtor (hs : Inv [] s) (hn : s.handles n = some handle) :
    Inv [] (server_wlegl_handle_dtor s n handle) :=
  inv_close (inv_takeFds hs hn rfl)

theorem inv_buffer_create {native : Native} (hs : Inv native.fds s) (client : Nat) (ret : Int) :
    Inv [] (server_wlegl_buffer_create s client native ret) := by
  unfold server_wlegl_buffer_create
  split
  · refine inv_close (inv_newBuffer hs (fun fd => ?_))
    simp [ownedBy]
  · refine inv_newBuffer hs (fun fd => ?_)
    have howned : closedBy Constructor.create.build native = native.fds := rfl
    simp [ownedBy, howned]

theorem inv_create_buffer {host : Host} {t : State} (hs : Inv [] s)
    (hn : s.handles n = some handle) {width height : CInt} {ret : Int}
    (h : server_wlegl_create_buffer host s n handle width height ret = some t) : Inv [] t := by
  obtain ⟨rfl, _⟩ | ⟨native, _, hnative, rfl⟩ := create_buffer_cases h
  · exact hs
  · apply inv_buffer_create
    rw [fds_of_to_native hnative]
    exact inv_takeFds hs hn rfl

end Handles

section Buffers

variable {s : State} {n : Nat} {e : Buffer}

theorem inv_get_server_buffer_handle (hs : Inv [] s) (client : Nat) (width height : CInt)
    (ret : Int) (native : Native) (readable : Bool) :
    Inv [] (server_wlegl_get_server_buffer_handle s client width height ret native readable) := by
  unfold server_wlegl_get_server_buffer_handle
  split
  · exact hs
  · have hnew : Inv [] (s.newBuffer ⟨some client, true, true,
        .live Constructor.createServer.build, native,
        if ret = 0 then Source.allocated else .unset, false, ret ≠ 0, 0⟩) := by
      refine inv_newBuffer hs (fun fd => ?_)
      have howned : closedBy Constructor.createServer.build native = [] := rfl
      simp [ownedBy, howned]
    dsimp only
    split
    · exact inv_crash hnew
    · exact ⟨hnew.balanced, hnew.handles, hnew.buffers⟩

theorem inv_createRemoteBuffer {native : Native} {ret : Int}
    (hs : Inv (if ret = 0 then native.fds else []) s) :
    Inv [] (eglHybrisCreateRemoteBuffer s native ret) := by
  unfold eglHybrisCreateRemoteBuffer
  split
  next hret =>
    rw [if_pos hret] at hs
    refine inv_newBuffer hs (fun fd => ?_)
    have howned : closedBy (incRef (RemoteBuffers.remoteWindowBuffer true)) native = native.fds :=
      rfl
    simp [ownedBy, howned]
  next hret =>
    rw [if_neg hret] at hs
    refine inv_newBuffer hs (fun fd => ?_)
    simp [ownedBy]

theorem closedBy_decRef {b b' : RemoteWindowBuffer} (h : decRef b = some b') (native : Native) :
    closedBy b' native = closedBy b native := by
  obtain ⟨_, h⟩ := Option.ite_none_left_eq_some.mp h
  obtain rfl := Option.some.inj h
  rfl

theorem inv_unref (hs : Inv [] s) (n : Nat) : Inv [] (s.unref n) := by
  obtain h | ⟨e, b, he, hbuf, ⟨b', hdec, h⟩ | ⟨_, h⟩⟩ := unref_cases s n
  · exact h ▸ inv_crash hs
  · rw [h]
    refine inv_setBuffer_same hs he ?_
    simp only [ownedBy, hbuf, closedBy_decRef hdec]
  · rw [h]
    refine inv_close (inv_setBuffer hs (hs.buffers n e he) (fun fd => ?_))
    simp only [he, ownedBy, hbuf, List.count_nil]
    omega

theorem inv_deleteWrapper (hs : Inv [] s) (n : Nat) : Inv [] (s.deleteWrapper n) := by
  unfold State.deleteWrapper
  cases he : s.buffers n with
  | none => exact hs
  | some e => exact inv_setBuffer_same hs he rfl

theorem inv_buffer_dtor (hs : Inv [] s) (he : s.buffers n = some e) (garbage : Option Nat) :
    Inv [] (server_wlegl_buffer_dtor s n e garbage) := by
  have hset : Inv [] (s.setBuffer n { e with resource := false }) := inv_setBuffer_same hs he rfl
  unfold server_wlegl_buffer_dtor
  cases e.target n garbage with
  | none => exact inv_crash hset
  | some m => exact inv_deleteWrapper (inv_unref hset m) m

theorem inv_acquire (hs : Inv [] s) (n : Nat) (e : Buffer) (garbage : Option Nat) :
    Inv [] (eglHybrisAcquireNativeBufferWL s n e garbage) := by
  obtain h | h | ⟨m, e', b, he, hbuf, h⟩ := acquire_cases s n e garbage
  · exact h.symm ▸ hs
  · exact h.symm ▸ inv_crash hs
  · rw [h]
    refine inv_setBuffer_same hs he ?_
    simp only [ownedBy, hbuf]
    rfl

theorem inv_release (hs : Inv [] s) (he : s.buffers n = some e) :
    Inv [] (eglHybrisReleaseNativeBuffer s n e) := by
  have hset : Inv [] (s.setBuffer n { e with acquired := e.acquired - 1 }) :=
    inv_setBuffer_same hs he rfl
  exact inv_unref hset n

theorem inv_destroy (garbage : Nat → Option Nat) (hs : Inv [] s) (r : Resource) :
    Inv [] (wl_resource_destroy garbage s r) :=
  destroy_preserves (P := Inv []) (fun _ _ _ hs hn => inv_handle_dtor hs hn)
    (fun _ n _ hs he _ => inv_buffer_dtor hs he (garbage n)) hs r

theorem inv_disconnect (garbage : Nat → Option Nat) (hs : Inv [] s) (order : List Resource) :
    Inv [] (order.foldl (wl_resource_destroy garbage) s) :=
  disconnect_preserves (P := Inv []) (fun _ r hs => inv_destroy garbage hs r) hs order

end Buffers

theorem inv_step {host : Host} {s t : State} {a : Action} (hs : Inv [] s)
    (h : step host s a = some t) : Inv [] t := by
  obtain ⟨_, h⟩ := Option.ite_none_left_eq_some.mp h
  cases a with
  | create_handle client num_fds ints =>
    exact Option.some.inj h ▸ inv_create_handle hs client num_fds ints
  | add_fd n fd =>
    obtain ⟨handle, hn, rfl⟩ := Option.map_eq_some_iff.mp h
    exact inv_add_fd (inv_receive hs [fd]) host hn
  | create_buffer n width height ret =>
    obtain ⟨handle, hn, h⟩ := Option.bind_eq_some_iff.mp h
    exact inv_create_buffer hs hn h
  | get_server_buffer_handle client width height ret native readable =>
    obtain rfl := Option.some.inj h
    exact inv_get_server_buffer_handle hs client width height ret native readable
  | destroy r garbage => exact Option.some.inj h ▸ inv_destroy garbage hs r
  | disconnect client order garbage =>
    obtain ⟨_, h⟩ := Option.ite_none_right_eq_some.mp h
    exact Option.some.inj h ▸ inv_disconnect garbage hs order
  | acquire n garbage =>
    obtain ⟨e, _, h⟩ := Option.bind_eq_some_iff.mp h
    obtain ⟨_, h⟩ := Option.ite_none_right_eq_some.mp h
    exact Option.some.inj h ▸ inv_acquire hs n e garbage
  | release n =>
    obtain ⟨e, he, h⟩ := Option.bind_eq_some_iff.mp h
    obtain ⟨_, h⟩ := Option.ite_none_right_eq_some.mp h
    exact Option.some.inj h ▸ inv_release hs he
  | createRemoteBuffer native ret =>
    exact Option.some.inj h ▸ inv_createRemoteBuffer (inv_receive hs _)

end FakeLibc.DescriptorBalance

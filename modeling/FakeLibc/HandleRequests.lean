import FakeLibc.ServerWlegl

namespace FakeLibc.HandleRequests

open FakeLibc.Lib.Run FakeLibc.NativeHandles FakeLibc.ServerWlegl

structure WaylandNativeWindowBuffer where
  width : CInt
  height : CInt
  stride : CInt
  format : CInt
  usage : CInt
  handle : NativeHandle

/-- The requests by which a client passes a buffer on. The two objects it makes
are `wlegl_handle` and `wlbuffer`. -/
def wlbuffer_from_native_handle (host : Host) (layout : Layout) (b : WaylandNativeWindowBuffer)
    (wlegl_handle wlbuffer : ObjectId) : Option (List Request) := do
  let ints ← intsOf host b.handle
  return .create_handle wlegl_handle b.handle.numFds ints ::
    ((fdsOf layout b.handle).map (.add_fd wlegl_handle) ++
      [.create_buffer wlbuffer b.width b.height b.stride b.format b.usage wlegl_handle,
        .destroy wlegl_handle])

theorem requests_eq {host : Host} {layout : Layout} {b : WaylandNativeWindowBuffer}
    (hv : b.handle.Valid) (hf : host.Fits b.handle) (wlegl_handle wlbuffer : ObjectId) :
    wlbuffer_from_native_handle host layout b wlegl_handle wlbuffer = some
      (.create_handle wlegl_handle b.handle.numFds (b.handle.data.drop (4 * b.handle.numFds.toNat))
        :: ((b.handle.fds layout).map (.add_fd wlegl_handle) ++
          [.create_buffer wlbuffer b.width b.height b.stride b.format b.usage wlegl_handle,
            .destroy wlegl_handle])) := by
  rw [wlbuffer_from_native_handle, intsOf_eq hv hf, fdsOf_eq hv]
  rfl

section Server

variable {host : Host} {layout : Layout} {driver : Driver}

theorem create_handle_eq {s : Server} {id : ObjectId} {num_fds : CInt} (h : 0 ≤ num_fds.toInt)
    (ints : WlArray) :
    server_wlegl_create_handle s id num_fds ints =
      { s with handles := Function.update s.handles id (some ⟨ints, [], num_fds⟩) } :=
  if_neg (Int.not_lt.mpr h)

theorem add_fd_eq {s : Server} {id : ObjectId} {handle : server_wlegl_handle}
    (hs : s.handles id = some handle) (h : handle.fds.length < host.bytes handle.num_fds)
    (fd : CInt) :
    add_fd host layout s id fd = some { s with
      handles := Function.update s.handles id
        (some { handle with fds := handle.fds ++ layout.encode fd }) } := by
  rw [add_fd, hs]
  simp only [Option.bind_eq_bind, Option.bind_some, if_neg (Nat.not_le.mpr h), appendInt_eq]
  rfl

theorem exec_add_fd {id : ObjectId} (fds : List CInt) {s : Server} {handle : server_wlegl_handle}
    (hs : s.handles id = some handle)
    (hroom : handle.fds.length + (layout.pack fds).length ≤ host.bytes handle.num_fds) :
    exec (dispatch host layout driver) s (fds.map (.add_fd id)) = some { s with
      handles := Function.update s.handles id
        (some { handle with fds := handle.fds ++ layout.pack fds }) } := by
  induction fds generalizing s handle with
  | nil =>
    rw [List.map_nil, exec_nil, layout.pack_nil, List.append_nil, ← hs, Function.update_eq_self]
  | cons fd fds ih =>
    rw [layout.pack_cons, List.length_append, layout.length_encode] at hroom
    have hpos := layout.size_pos
    have hadd : add_fd host layout s id fd = _ := add_fd_eq hs (by omega) fd
    have hrest : (handle.fds ++ layout.encode fd).length + (layout.pack fds).length
        ≤ host.bytes handle.num_fds := by
      rw [List.length_append, layout.length_encode]
      omega
    rw [List.map_cons, exec_cons, dispatch, hadd, Option.bind_some,
      ih (Function.update_self ..) hrest]
    simp only [Function.update_idem, layout.pack_cons, List.append_assoc]

theorem exec_handle {h : NativeHandle} (hv : h.Valid) (hf : host.Fits h) (s : Server)
    (id : ObjectId) (ints : WlArray) {fds : List CInt} (hlen : fds.length = h.numFds.toNat) :
    exec (dispatch host layout driver) s
        (.create_handle id h.numFds ints :: fds.map (.add_fd id)) =
      some { s with
        handles := Function.update s.handles id (some ⟨ints, layout.pack fds, h.numFds⟩) } := by
  have hroom : ([] : WlArray).length + (layout.pack fds).length ≤ host.bytes h.numFds := by
    rw [hf.bytes_numFds, layout.length_pack, layout.size_eq, hlen, List.length_nil, Nat.zero_add]
  rw [exec_cons, dispatch, Option.bind_some, create_handle_eq hv.numFds_nonneg,
    exec_add_fd fds (Function.update_self ..) hroom]
  simp only [Function.update_idem, List.nil_append]

theorem to_native_eq {h : NativeHandle} (hv : h.Valid) (hf : host.Fits h) {fds : List CInt}
    (hlen : fds.length = h.numFds.toNat) :
    server_wlegl_handle_to_native host
        ⟨h.data.drop (4 * h.numFds.toNat), layout.pack fds, h.numFds⟩ =
      some (some (h.withFds layout fds), ⟨h.data.drop (4 * h.numFds.toNat), [], h.numFds⟩) := by
  have hcount : countOf (layout.pack fds).length = h.numFds := by
    rw [length_pack_eq hlen, countOf_mul]
  rw [server_wlegl_handle_to_native, if_neg (not_not_intro hcount), assemble_eq hv hf hlen]
  rfl

theorem create_buffer_eq {s : Server} {hnd : ObjectId} {handle handle' : server_wlegl_handle}
    {native : NativeHandle} (hs : s.handles hnd = some handle)
    (hnative : server_wlegl_handle_to_native host handle = some (some native, handle'))
    (hreg : driver.registerBuffer native = true) (id : ObjectId)
    {width height : CInt} (hw : 1 ≤ width.toInt) (hh : 1 ≤ height.toInt)
    (stride format usage : CInt) :
    ∃ t, server_wlegl_create_buffer host layout driver s id width height stride format usage hnd
        = some t ∧
      t.buffers id = some ⟨width, height, stride, format, usage, native, false⟩ := by
  have hsize : ¬(width.toInt < 1 ∨ height.toInt < 1) := by omega
  rw [server_wlegl_create_buffer, hs]
  simp only [Option.bind_eq_bind, Option.bind_some, if_neg hsize, hnative, if_pos hreg]
  exact ⟨_, rfl, Function.update_self ..⟩

end Server

/-- A handle survives its way from the client to the server, with the
parameters of its buffer. -/
theorem handle_survives_requests {same : CInt → CInt → Prop} {layout : Layout}
    {client server : Host} {driver : Driver} {b : WaylandNativeWindowBuffer}
    (hv : b.handle.Valid) (hc : client.Fits b.handle) (hs : server.Fits b.handle)
    (wlegl_handle wlbuffer : ObjectId) (s : Server) :
    ∃ sent, wlbuffer_from_native_handle client layout b wlegl_handle wlbuffer = some sent ∧
      ∀ received, List.Forall₂ (Request.Delivered same) sent received →
        ∃ before t handle native,
          received = before ++
            [.create_buffer wlbuffer b.width b.height b.stride b.format b.usage wlegl_handle,
              .destroy wlegl_handle] ∧
          exec (dispatch server layout driver) s before = some t ∧
          t.errors = s.errors ∧
          t.handles wlegl_handle = some handle ∧
          server_wlegl_handle_to_native server handle =
            some (some native, { handle with fds := [] }) ∧
          native.numFds = b.handle.numFds ∧
          native.numInts = b.handle.numInts ∧
          List.Forall₂ same (b.handle.fds layout) (native.fds layout) ∧
          native.ints layout = b.handle.ints layout ∧
          (1 ≤ b.width.toInt → 1 ≤ b.height.toInt → driver.registerBuffer native = true →
            ∃ u, dispatch server layout driver t (.create_buffer wlbuffer b.width b.height b.stride
                b.format b.usage wlegl_handle) = some u ∧
              u.buffers wlbuffer =
                some ⟨b.width, b.height, b.stride, b.format, b.usage, native, false⟩) := by
  refine ⟨_, requests_eq hv hc wlegl_handle wlbuffer, fun received hrec => ?_⟩
  obtain ⟨_, _, hr, hfdsRec, rfl⟩ := List.forall₂_cons_left_iff.mp hrec
  obtain rfl := hr.eq_of_ne (by simp)
  obtain ⟨fds, _, rfl, hfds, hbuffer⟩ :=
    forall₂_map_append (Request.Delivered.add_fd_left wlegl_handle) hfdsRec
  obtain ⟨_, _, hr, hdestroy, rfl⟩ := List.forall₂_cons_left_iff.mp hbuffer
  obtain rfl := hr.eq_of_ne (by simp)
  obtain ⟨_, _, hr, hnil, rfl⟩ := List.forall₂_cons_left_iff.mp hdestroy
  obtain rfl := hr.eq_of_ne (by simp)
  obtain rfl := List.forall₂_nil_left_iff.mp hnil
  have hlen : fds.length = b.handle.numFds.toNat := by
    rw [← hfds.length_eq, NativeHandle.fds, layout.length_words]
  have hnative := @to_native_eq server layout _ hv hs _ hlen
  refine ⟨_, _, _, b.handle.withFds layout fds, rfl, exec_handle hv hs s wlegl_handle _ hlen, rfl,
    Function.update_self .., hnative, rfl, rfl, (withFds_fds hlen).symm ▸ hfds,
    withFds_ints hlen, fun hw hh hreg => ?_⟩
  exact create_buffer_eq (Function.update_self ..) hnative hreg wlbuffer hw hh _ _ _

def twoFdsOneInt : WaylandNativeWindowBuffer where
  width := 64
  height := 48
  stride := 64
  format := 1
  usage := 0x100
  handle := ⟨sizeofNativeHandle, 2, 1, littleEndian.pack [3, 4, 7]⟩

theorem handle_survives_requests_twoFds :
    ∃ sent, wlbuffer_from_native_handle host64 littleEndian twoFdsOneInt 5 6 = some sent ∧
      ∀ received, List.Forall₂ (Request.Delivered (fun fd fd' => fd' = fd + 10)) sent received →
        ∃ before t handle native,
          exec
            (dispatch host64 littleEndian
              ⟨fun _ => true, fun _ _ _ _ => (twoFdsOneInt.handle, 64)⟩)
            ⟨fun _ => none, fun _ => none, 0, [], [], []⟩ before = some t ∧
          t.handles 5 = some handle ∧
          server_wlegl_handle_to_native host64 handle =
            some (some native, { handle with fds := [] }) ∧
          native.fds littleEndian = [13, 14] ∧ native.ints littleEndian = [7] := by
  have hv : twoFdsOneInt.handle.Valid := ⟨by decide, by decide, by decide⟩
  have hf : host64.Fits twoFdsOneInt.handle := ⟨by decide, by decide⟩
  obtain ⟨sent, hsent, h⟩ := handle_survives_requests hv hf hf 5 6
    ⟨fun _ => none, fun _ => none, 0, [], [], []⟩
  refine ⟨sent, hsent, fun received hrec => ?_⟩
  obtain ⟨before, t, handle, native, -, hexec, -, hhandle, hnative, -, -, hfds, hints, -⟩ :=
    h received hrec
  refine ⟨before, t, handle, native, hexec, hhandle, hnative, ?_, hints⟩
  have hsame : List.Forall₂ (fun fd fd' => fd' = fd + 10) [3, 4] (native.fds littleEndian) := hfds
  simp only [List.forall₂_cons_left_iff, List.forall₂_nil_left_iff] at hsame
  obtain ⟨_, _, rfl, ⟨_, _, rfl, rfl, rfl⟩, h⟩ := hsame
  exact h

end FakeLibc.HandleRequests

import FakeLibc.ServerWlegl

namespace FakeLibc.HandleEvents

open FakeLibc.Lib.Run FakeLibc.NativeHandles FakeLibc.ServerWlegl

structure ServerWaylandBuffer where
  width : CInt
  height : CInt
  format : CInt
  usage : CInt
  stride : CInt
  handle : Option NativeHandle
  ints : WlArray
  fds : WlArray
  m_buf : Option ObjectId
  refs : Nat

/-- The constructor, with the request that it sends. The fields it does not set
have some value. -/
def serverWaylandBuffer (ssb : ObjectId) (w h f u : CInt) (format stride : CInt) :
    ServerWaylandBuffer × Request :=
  ({ width := w, height := h, format := format, usage := u, stride := stride, handle := none,
     ints := [], fds := [], m_buf := none, refs := 0 },
    .get_server_buffer_handle ssb w h f u)

section Process

variable (host : Host) (layout : Layout) (registerBuffer : NativeHandle → Bool)

def ssb_ints (wsb : ServerWaylandBuffer) (ints : WlArray) : ServerWaylandBuffer :=
  { wsb with ints := wl_array_copy wsb.ints ints }

def ssb_fd (wsb : ServerWaylandBuffer) (fd : CInt) : Option ServerWaylandBuffer := do
  let fds ← appendInt host layout wsb.fds fd
  return { wsb with fds := fds }

def ssb_buffer (wsb : ServerWaylandBuffer) (buffer : ObjectId) (format stride : CInt) :
    Option ServerWaylandBuffer := do
  let native ← assemble host wsb.fds wsb.ints
  let wsb := { wsb with fds := [], handle := some native, format := format, stride := stride }
  if registerBuffer native then return { wsb with refs := wsb.refs + 1, m_buf := some buffer }
  else return wsb

/-- `server_handle_listener`. -/
def listen (wsb : ServerWaylandBuffer) : Event → Option ServerWaylandBuffer
  | .buffer_fd fd => ssb_fd host layout wsb fd
  | .buffer_ints ints => some (ssb_ints wsb ints)
  | .buffer buffer format stride => ssb_buffer host registerBuffer wsb buffer format stride

end Process

/-- The events for one buffer, with the ints between the descriptors `before`
and `after`. -/
def bufferEvents (before : List CInt) (ints : WlArray) (after : List CInt) (buffer : ObjectId)
    (format stride : CInt) : List Event :=
  before.map .buffer_fd ++
    .buffer_ints ints :: (after.map .buffer_fd ++ [.buffer buffer format stride])

section Client

variable {host : Host} {layout : Layout} {registerBuffer : NativeHandle → Bool}

theorem ssb_fd_eq (wsb : ServerWaylandBuffer) (fd : CInt) :
    ssb_fd host layout wsb fd = some { wsb with fds := wsb.fds ++ layout.encode fd } := by
  rw [ssb_fd, appendInt_eq]
  rfl

theorem exec_buffer_fd (fds : List CInt) (wsb : ServerWaylandBuffer) :
    exec (listen host layout registerBuffer) wsb (fds.map .buffer_fd) =
      some { wsb with fds := wsb.fds ++ layout.pack fds } := by
  induction fds generalizing wsb with
  | nil => rw [List.map_nil, exec_nil, layout.pack_nil, List.append_nil]
  | cons fd fds ih =>
    rw [List.map_cons, exec_cons, listen, ssb_fd_eq, Option.bind_some, ih]
    simp only [layout.pack_cons, List.append_assoc]

/-- The ints may come before, among and after the descriptors. -/
theorem exec_fds_ints (fds fds' : List CInt) (ints : WlArray) (wsb : ServerWaylandBuffer) :
    exec (listen host layout registerBuffer) wsb
        (fds.map .buffer_fd ++ .buffer_ints ints :: fds'.map .buffer_fd) =
      some { wsb with fds := wsb.fds ++ layout.pack (fds ++ fds'), ints := ints } := by
  rw [exec_append, exec_buffer_fd, Option.bind_some, exec_cons, listen, Option.bind_some,
    exec_buffer_fd]
  simp only [ssb_ints, wl_array_copy, layout.pack_append, List.append_assoc]

theorem ssb_buffer_eq {h : NativeHandle} (hv : h.Valid) (hf : host.Fits h)
    (hreg : ∀ native, registerBuffer native = true) {wsb : ServerWaylandBuffer} {fds : List CInt}
    (hlen : fds.length = h.numFds.toNat) (hfds : wsb.fds = layout.pack fds)
    (hints : wsb.ints = h.data.drop (4 * h.numFds.toNat)) (buffer : ObjectId)
    (format stride : CInt) :
    ssb_buffer host registerBuffer wsb buffer format stride =
      some { wsb with
        fds := []
        handle := some (h.withFds layout fds)
        format := format
        stride := stride
        refs := wsb.refs + 1
        m_buf := some buffer } := by
  rw [ssb_buffer, hfds, hints, assemble_eq hv hf hlen]
  simp only [Option.bind_eq_bind, Option.bind_some, if_pos (hreg _)]
  rfl

theorem exec_bufferEvents {h : NativeHandle} (hv : h.Valid) (hf : host.Fits h)
    (hreg : ∀ native, registerBuffer native = true) {wsb : ServerWaylandBuffer}
    (hempty : wsb.fds = []) {fds fds' : List CInt} (hlen : (fds ++ fds').length = h.numFds.toNat)
    (buffer : ObjectId) (format stride : CInt) :
    exec (listen host layout registerBuffer) wsb
        (bufferEvents fds (h.data.drop (4 * h.numFds.toNat)) fds' buffer format stride) =
      some { wsb with
        fds := []
        ints := h.data.drop (4 * h.numFds.toNat)
        handle := some (h.withFds layout (fds ++ fds'))
        format := format
        stride := stride
        refs := wsb.refs + 1
        m_buf := some buffer } := by
  have hpack : wsb.fds ++ layout.pack (fds ++ fds') = layout.pack (fds ++ fds') := by
    rw [hempty, List.nil_append]
  rw [bufferEvents, ← List.cons_append, ← List.append_assoc, exec_append, exec_fds_ints,
    Option.bind_some, exec_cons, listen, ssb_buffer_eq hv hf hreg hlen hpack rfl]
  rfl

end Client

/-- What the server does for one request, and the events it sends. -/
theorem get_server_buffer_handle_eq {host : Host} {layout : Layout} {driver : Driver}
    {w h f u : CInt} (hw : w ≠ 0) (hh : h ≠ 0) {handle : NativeHandle} {stride : CInt}
    (halloc : driver.alloc w h f (u ||| GRALLOC_USAGE_HW_COMPOSER) = (handle, stride))
    (hv : handle.Valid) (hf : host.Fits handle) (id : ObjectId) (s : Server) :
    ∃ t, server_wlegl_get_server_buffer_handle host layout driver s id w h f u = some t ∧
      t.events = s.events ++
        (bufferEvents [] (handle.data.drop (4 * handle.numFds.toNat)) (handle.fds layout)
          s.nextId f stride).map (fun event => (id, event)) ∧
      t.buffers s.nextId =
        some ⟨w, h, stride, f, u ||| GRALLOC_USAGE_HW_COMPOSER, handle, true⟩ := by
  have hsize : ¬(w = 0 ∨ h = 0) := not_or.mpr ⟨hw, hh⟩
  rw [server_wlegl_get_server_buffer_handle, if_neg hsize]
  simp only [halloc, intsOf_eq hv hf, fdsOf_eq hv, Option.bind_eq_bind, Option.bind_some]
  exact ⟨_, rfl, rfl, Function.update_self ..⟩

/-- A handle survives its way from the server to the client, wherever the ints
come among the descriptors. -/
theorem handle_survives_events {same : CInt → CInt → Prop} {layout : Layout}
    {client server : Host} {driver : Driver} {registerBuffer : NativeHandle → Bool}
    (hreg : ∀ native, registerBuffer native = true) {w h f u : CInt} (hw : w ≠ 0) (hh : h ≠ 0)
    {handle : NativeHandle} {stride : CInt}
    (halloc : driver.alloc w h f (u ||| GRALLOC_USAGE_HW_COMPOSER) = (handle, stride))
    (hv : handle.Valid) (hs : server.Fits handle) (hc : client.Fits handle)
    (ssb : ObjectId) (format₀ stride₀ : CInt) (s : Server) :
    ∃ t ints,
      dispatch server layout driver s (serverWaylandBuffer ssb w h f u format₀ stride₀).2 =
        some t ∧
      t.events = s.events ++
        (bufferEvents [] ints (handle.fds layout) s.nextId f stride).map
          (fun event => (ssb, event)) ∧
      t.buffers s.nextId =
        some ⟨w, h, stride, f, u ||| GRALLOC_USAGE_HW_COMPOSER, handle, true⟩ ∧
      ∀ before after received, handle.fds layout = before ++ after →
        List.Forall₂ (Event.Delivered same)
          (bufferEvents before ints after s.nextId f stride) received →
        ∃ wsb native,
          exec (listen client layout registerBuffer)
            (serverWaylandBuffer ssb w h f u format₀ stride₀).1 received = some wsb ∧
          wsb.handle = some native ∧
          native.numFds = handle.numFds ∧
          native.numInts = handle.numInts ∧
          List.Forall₂ same (handle.fds layout) (native.fds layout) ∧
          native.ints layout = handle.ints layout ∧
          wsb.format = f ∧ wsb.stride = stride ∧ wsb.m_buf = some s.nextId := by
  obtain ⟨t, ht, hevents, hbuffers⟩ := get_server_buffer_handle_eq hw hh halloc hv hs ssb s
  refine ⟨t, _, ht, hevents, hbuffers, fun before after received hfds hrec => ?_⟩
  obtain ⟨fds, _, rfl, hbefore, hints⟩ := forall₂_map_append Event.Delivered.buffer_fd_left hrec
  obtain ⟨_, _, he, hrest, rfl⟩ := List.forall₂_cons_left_iff.mp hints
  obtain rfl := he.eq_of_ne (by simp)
  obtain ⟨fds', _, rfl, hafter, hbuffer⟩ :=
    forall₂_map_append Event.Delivered.buffer_fd_left hrest
  obtain ⟨_, _, he, hnil, rfl⟩ := List.forall₂_cons_left_iff.mp hbuffer
  obtain rfl := he.eq_of_ne (by simp)
  obtain rfl := List.forall₂_nil_left_iff.mp hnil
  have hsame : List.Forall₂ same (handle.fds layout) (fds ++ fds') :=
    hfds ▸ List.rel_append hbefore hafter
  have hlen : (fds ++ fds').length = handle.numFds.toNat := by
    rw [← hsame.length_eq, NativeHandle.fds, layout.length_words]
  exact ⟨_, handle.withFds layout (fds ++ fds'),
    exec_bufferEvents hv hc hreg rfl hlen s.nextId f stride, rfl, rfl, rfl,
    (withFds_fds hlen).symm ▸ hsame, withFds_ints hlen, rfl, rfl, rfl⟩

def twoFdsOneInt : NativeHandle := ⟨sizeofNativeHandle, 2, 1, littleEndian.pack [3, 4, 7]⟩

def twoFdsDriver : Driver := ⟨fun _ => true, fun _ _ _ _ => (twoFdsOneInt, 64)⟩

theorem handle_survives_events_twoFds :
    ∃ t ints,
      dispatch host64 littleEndian twoFdsDriver
        ⟨fun _ => none, fun _ => none, 9, [], [], []⟩ (serverWaylandBuffer 5 64 48 1 0 0 0).2 =
        some t ∧
      ∀ received,
        List.Forall₂ (Event.Delivered (fun fd fd' => fd' = fd + 10))
          (bufferEvents [3] ints [4] 9 1 64) received →
        ∃ wsb native,
          exec (listen host64 littleEndian (fun _ => true)) (serverWaylandBuffer 5 64 48 1 0 0 0).1
            received = some wsb ∧
          wsb.handle = some native ∧ native.fds littleEndian = [13, 14] ∧
          native.ints littleEndian = [7] ∧ wsb.m_buf = some 9 := by
  have hv : twoFdsOneInt.Valid := ⟨by decide, by decide, by decide⟩
  have hf : host64.Fits twoFdsOneInt := ⟨by decide, by decide⟩
  have hw : (64 : CInt) ≠ 0 := by decide
  have hh : (48 : CInt) ≠ 0 := by decide
  have halloc : twoFdsDriver.alloc 64 48 1 (0 ||| GRALLOC_USAGE_HW_COMPOSER)
      = (twoFdsOneInt, 64) := rfl
  obtain ⟨t, ints, ht, -, -, h⟩ := handle_survives_events (fun _ => rfl) hw hh halloc hv hf hf
    5 0 0 ⟨fun _ => none, fun _ => none, 9, [], [], []⟩
  refine ⟨t, ints, ht, fun received hrec => ?_⟩
  obtain ⟨wsb, native, hexec, hnative, -, -, hfds, hints, -, -, hbuf⟩ :=
    h [3] [4] received (by decide) hrec
  refine ⟨wsb, native, hexec, hnative, ?_, hints, hbuf⟩
  have hsame : List.Forall₂ (fun fd fd' => fd' = fd + 10) [3, 4] (native.fds littleEndian) := hfds
  simp only [List.forall₂_cons_left_iff, List.forall₂_nil_left_iff] at hsame
  obtain ⟨_, _, rfl, ⟨_, _, rfl, rfl, rfl⟩, h⟩ := hsame
  exact h

end FakeLibc.HandleEvents

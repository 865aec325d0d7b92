import FakeLibc.NativeHandles

namespace FakeLibc.SerializedBuffers

open FakeLibc.Lib.Words FakeLibc.NativeHandles

structure RemoteWindowBuffer where
  width : CInt
  height : CInt
  format : CInt
  usage : CInt
  stride : CInt
  handle : NativeHandle

def remoteWindowBuffer (width height stride format usage : CInt) (handle : NativeHandle) :
    RemoteWindowBuffer where
  width := width
  height := height
  format := format
  usage := usage
  stride := stride
  handle := handle

/-- The module of the graphics driver. It gets a pointer to a constant handle. -/
structure Gralloc where
  registerBuffer : NativeHandle → CInt

def eglHybrisGetNativeBufferInfo (buf : RemoteWindowBuffer) : CInt × CInt :=
  (buf.handle.numInts, buf.handle.numFds)

/-- What `ints` and `fds` hold afterwards. It is `none` where memory outside of
an array is used. -/
def eglHybrisSerializeNativeBuffer (host : Host) (buf : RemoteWindowBuffer) (ints fds : List Byte) :
    Option (List Byte × List Byte) := do
  let src ← load buf.handle.data (4 * buf.handle.numFds.toNat) (host.bytes buf.handle.numInts)
  let ints ← memcpy ints 0 src
  let src ← load buf.handle.data 0 (host.bytes buf.handle.numFds)
  let fds ← memcpy fds 0 src
  return (ints, fds)

/-- The inner `none` is `EGL_FALSE`, the outer one the end of the process. -/
def eglHybrisCreateRemoteBuffer (host : Host) (my_gralloc : Option Gralloc)
    (width height usage format stride : CInt) (num_ints : CInt) (ints : List Byte)
    (num_fds : CInt) (fds : List Byte) : Option (Option RemoteWindowBuffer) := do
  let gralloc ← my_gralloc
  let native := native_handle_create host num_fds num_ints
  let src ← load fds 0 (host.bytes num_fds)
  let data ← memcpy native.data 0 src
  let src ← load ints 0 (host.bytes num_ints)
  let data ← memcpy data (4 * num_fds.toNat) src
  let native := { native with data := data }
  return if gralloc.registerBuffer native = 0 then
    some (remoteWindowBuffer width height stride format usage native)
  else none

def copied (h : NativeHandle) : NativeHandle := { h with version := sizeofNativeHandle }

def fdBytes (h : NativeHandle) : List Byte := h.data.take (4 * h.numFds.toNat)

def intBytes (h : NativeHandle) : List Byte := h.data.drop (4 * h.numFds.toNat)

variable {host : Host} {h : NativeHandle} {buf : RemoteWindowBuffer} {ints fds : List Byte}

theorem fdBytes_append_intBytes (h : NativeHandle) : fdBytes h ++ intBytes h = h.data :=
  List.take_append_drop _ _

theorem length_fdBytes (hv : h.Valid) : (fdBytes h).length = 4 * h.numFds.toNat := by
  rw [fdBytes, List.length_take, hv.length_data]
  omega

theorem length_intBytes (hv : h.Valid) : (intBytes h).length = 4 * h.numInts.toNat := by
  rw [intBytes, List.length_drop, hv.length_data]
  omega

theorem load_ints (hv : h.Valid) (hf : host.Fits h) :
    load h.data (4 * h.numFds.toNat) (host.bytes h.numInts) = some (intBytes h) := by
  have hlen := length_intBytes hv
  rw [hf.bytes_numInts, load_eq (by rw [hv.length_data]; omega), slice]
  rw [intBytes] at hlen ⊢
  rw [List.take_of_length_le (Nat.le_of_eq hlen)]

theorem load_fds (hv : h.Valid) (hf : host.Fits h) :
    load h.data 0 (host.bytes h.numFds) = some (fdBytes h) := by
  rw [hf.bytes_numFds, load_eq (by rw [hv.length_data]; omega), slice, List.drop_zero, fdBytes]

theorem serialize_eq (hv : buf.handle.Valid) (hf : host.Fits buf.handle)
    (hints : 4 * buf.handle.numInts.toNat ≤ ints.length)
    (hfds : 4 * buf.handle.numFds.toNat ≤ fds.length) :
    eglHybrisSerializeNativeBuffer host buf ints fds = some
      (intBytes buf.handle ++ ints.drop (4 * buf.handle.numInts.toNat),
        fdBytes buf.handle ++ fds.drop (4 * buf.handle.numFds.toNat)) := by
  have hi : memcpy ints 0 (intBytes buf.handle) = some _ :=
    memcpy_start (by rw [length_intBytes hv]; exact hints)
  have hd : memcpy fds 0 (fdBytes buf.handle) = some _ :=
    memcpy_start (by rw [length_fdBytes hv]; exact hfds)
  rw [length_intBytes hv] at hi
  rw [length_fdBytes hv] at hd
  simp only [eglHybrisSerializeNativeBuffer, load_ints hv hf, load_fds hv hf, hi, hd,
    Option.bind_eq_bind, Option.bind_some, Option.pure_def]

/-- Serialising reads no more of a handle than its counts and its data. -/
theorem serialize_congr {buf' : RemoteWindowBuffer} (hcopy : buf'.handle = copied buf.handle)
    (ints fds : List Byte) :
    eglHybrisSerializeNativeBuffer host buf' ints fds =
      eglHybrisSerializeNativeBuffer host buf ints fds := by
  rw [eglHybrisSerializeNativeBuffer, hcopy]
  rfl

/-- The two parts are put together again behind each other. -/
theorem create_eq (hv : h.Valid) (hf : host.Fits h) (gralloc : Gralloc)
    (width height usage format stride : CInt) (ints fds : List Byte) :
    eglHybrisCreateRemoteBuffer host (some gralloc) width height usage format stride
        h.numInts (intBytes h ++ ints) h.numFds (fdBytes h ++ fds) =
      some (if gralloc.registerBuffer (copied h) = 0 then
        some (remoteWindowBuffer width height stride format usage (copied h)) else none) := by
  have hi : load (intBytes h ++ ints) 0 (host.bytes h.numInts) = some (intBytes h) := by
    rw [hf.bytes_numInts, ← length_intBytes hv]
    exact load_start _ _
  have hd : load (fdBytes h ++ fds) 0 (host.bytes h.numFds) = some (fdBytes h) := by
    rw [hf.bytes_numFds, ← length_fdBytes hv]
    exact load_start _ _
  have hcopy := memcpy_memcpy (native_handle_create host h.numFds h.numInts).data
    (fdBytes h) (intBytes h)
    (by rw [hf.length_create, length_fdBytes hv, length_intBytes hv]; omega)
  obtain ⟨mem, hfirst, hsecond⟩ := Option.bind_eq_some_iff.mp hcopy
  rw [length_fdBytes hv, fdBytes_append_intBytes] at hsecond
  simp only [eglHybrisCreateRemoteBuffer, hi, hd, hfirst, hsecond, Option.bind_eq_bind,
    Option.bind_some, Option.pure_def]
  rfl

/-- A buffer is rebuilt from its counts and its two arrays, which may be longer
than they have to be. -/
theorem rebuilt_of_registered (hv : buf.handle.Valid) (hf : host.Fits buf.handle)
    (hints : 4 * buf.handle.numInts.toNat ≤ ints.length)
    (hfds : 4 * buf.handle.numFds.toNat ≤ fds.length)
    {gralloc : Gralloc} (hreg : gralloc.registerBuffer (copied buf.handle) = 0)
    (width height usage format stride : CInt) :
    ∃ arrays rebuilt,
      eglHybrisSerializeNativeBuffer host buf ints fds = some arrays ∧
      eglHybrisCreateRemoteBuffer host (some gralloc) width height usage format stride
          (eglHybrisGetNativeBufferInfo buf).1 arrays.1
          (eglHybrisGetNativeBufferInfo buf).2 arrays.2 = some (some rebuilt) ∧
      rebuilt.handle.numFds = buf.handle.numFds ∧
      rebuilt.handle.numInts = buf.handle.numInts ∧
      rebuilt.handle.data = buf.handle.data ∧
      rebuilt.width = width ∧ rebuilt.height = height ∧ rebuilt.stride = stride ∧
      rebuilt.format = format ∧ rebuilt.usage = usage ∧
      eglHybrisGetNativeBufferInfo rebuilt = eglHybrisGetNativeBufferInfo buf ∧
      ∀ ints fds, eglHybrisSerializeNativeBuffer host rebuilt ints fds =
        eglHybrisSerializeNativeBuffer host buf ints fds := by
  refine ⟨_, remoteWindowBuffer width height stride format usage (copied buf.handle),
    serialize_eq hv hf hints hfds, ?_, rfl, rfl, rfl, rfl, rfl, rfl, rfl, rfl, rfl,
    fun ints fds => serialize_congr rfl ints fds⟩
  have hcreate := create_eq hv hf gralloc width height usage format stride
    (ints.drop (4 * buf.handle.numInts.toNat)) (fds.drop (4 * buf.handle.numFds.toNat))
  rw [if_pos hreg] at hcreate
  exact hcreate

def oneFdTwoInts : RemoteWindowBuffer :=
  remoteWindowBuffer 64 48 64 1 0x300 ⟨0, 1, 2, littleEndian.pack [3, 5, 6]⟩

theorem valid_oneFdTwoInts : oneFdTwoInts.handle.Valid := ⟨by decide, by decide, by decide⟩

theorem fits_oneFdTwoInts : host64.Fits oneFdTwoInts.handle := ⟨by decide, by decide⟩

/-- The array of the ints has a word more than it has to. -/
theorem rebuilt_of_registered_oneFdTwoInts :
    ∃ arrays rebuilt,
      eglHybrisSerializeNativeBuffer host64 oneFdTwoInts (List.replicate 12 7)
          (List.replicate 4 7) = some arrays ∧
      eglHybrisCreateRemoteBuffer host64 (some ⟨fun _ => 0⟩) 32 24 0x100 2 32
          (eglHybrisGetNativeBufferInfo oneFdTwoInts).1 arrays.1
          (eglHybrisGetNativeBufferInfo oneFdTwoInts).2 arrays.2 = some (some rebuilt) ∧
      rebuilt.handle.numFds = oneFdTwoInts.handle.numFds ∧
      rebuilt.handle.numInts = oneFdTwoInts.handle.numInts ∧
      rebuilt.handle.data = oneFdTwoInts.handle.data ∧
      rebuilt.width = 32 ∧ rebuilt.height = 24 ∧ rebuilt.stride = 32 ∧
      rebuilt.format = 2 ∧ rebuilt.usage = 0x100 ∧
      eglHybrisGetNativeBufferInfo rebuilt = eglHybrisGetNativeBufferInfo oneFdTwoInts ∧
      ∀ ints fds, eglHybrisSerializeNativeBuffer host64 rebuilt ints fds =
        eglHybrisSerializeNativeBuffer host64 oneFdTwoInts ints fds :=
  rebuilt_of_registered valid_oneFdTwoInts fits_oneFdTwoInts (by decide) (by decide) rfl
    32 24 0x100 2 32

end FakeLibc.SerializedBuffers

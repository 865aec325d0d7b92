import FakeLibc.Lib.Words
import Mathlib.Algebra.Group.Nat.Defs
import Mathlib.Algebra.Ring.Int.Defs

namespace FakeLibc.NativeHandles

open FakeLibc.Lib.Words

abbrev CInt := BitVec 32

abbrev Byte := BitVec 8

/-- What two processes on one machine share about an `int` in memory. -/
structure Layout extends Codec CInt Byte where
  size_eq : size = 4

theorem append_extractLsb' (n : CInt) :
    n.extractLsb' 24 8 ++ n.extractLsb' 16 8 ++ n.extractLsb' 8 8 ++ n.extractLsb' 0 8 = n := by
  apply BitVec.eq_of_getLsbD_eq
  intro i hi
  simp only [BitVec.getLsbD_append, BitVec.getLsbD_extractLsb']
  grind

def littleEndian : Layout where
  size := 4
  encode n := [n.extractLsb' 0 8, n.extractLsb' 8 8, n.extractLsb' 16 8, n.extractLsb' 24 8]
  decode
    | [b₀, b₁, b₂, b₃] => b₃ ++ b₂ ++ b₁ ++ b₀
    | _ => 0
  size_pos := by decide
  length_encode _ := rfl
  decode_encode n := append_extractLsb' n
  size_eq := rfl

/-- A process: the width of its `size_t` and the memory it allocates, with
whatever is in it. -/
structure Host where
  sizeBits : Nat
  malloc : Nat → List Byte
  length_malloc : ∀ n, (malloc n).length = n

def Host.bytes (host : Host) (n : CInt) : Nat := (n.toInt * 4 % 2 ^ host.sizeBits).toNat

def host64 : Host where
  sizeBits := 64
  malloc n := List.replicate n 0
  length_malloc _ := List.length_replicate

def sizeofNativeHandle : Nat := 12

structure NativeHandle where
  version : Nat
  numFds : CInt
  numInts : CInt
  data : List Byte

/-- The allocation has room for the descriptors and the ints. -/
structure NativeHandle.Valid (h : NativeHandle) : Prop where
  numFds_nonneg : 0 ≤ h.numFds.toInt
  numInts_nonneg : 0 ≤ h.numInts.toInt
  length_data : h.data.length = 4 * (h.numFds.toNat + h.numInts.toNat)

/-- Neither the count of the words nor the size of the allocation overflows. -/
structure Host.Fits (host : Host) (h : NativeHandle) : Prop where
  count_lt : h.numFds.toNat + h.numInts.toNat < 2 ^ 31
  size_lt : sizeofNativeHandle + 4 * (h.numFds.toNat + h.numInts.toNat) < 2 ^ host.sizeBits

def NativeHandle.fds (layout : Layout) (h : NativeHandle) : List CInt :=
  layout.words h.data h.numFds.toNat

def NativeHandle.ints (layout : Layout) (h : NativeHandle) : List CInt :=
  layout.words (h.data.drop (4 * h.numFds.toNat)) h.numInts.toNat

def native_handle_create (host : Host) (numFds numInts : CInt) : NativeHandle where
  version := sizeofNativeHandle
  numFds := numFds
  numInts := numInts
  data := (host.malloc
    ((sizeofNativeHandle + host.bytes (numFds + numInts)) % 2 ^ host.sizeBits)).drop
      sizeofNativeHandle

def native_handle_close (layout : Layout) (h : NativeHandle) : List CInt :=
  if h.version ≠ sizeofNativeHandle then [] else layout.words h.data h.numFds.toInt.toNat

abbrev WlArray := List Byte

def wl_array_add (host : Host) (array : WlArray) (size : Nat) : WlArray :=
  array ++ host.malloc size

def wl_array_copy (_array source : WlArray) : WlArray := source

def appendInt (host : Host) (layout : Layout) (array : WlArray) (value : CInt) :
    Option WlArray :=
  memcpy (wl_array_add host array layout.size) array.length (layout.encode value)

def intsOf (host : Host) (handle : NativeHandle) : Option WlArray := do
  let ints_data := wl_array_add host [] (host.bytes handle.numInts)
  let src ← load handle.data (4 * handle.numFds.toNat) (host.bytes handle.numInts)
  memcpy ints_data 0 src

def fdsOf (layout : Layout) (handle : NativeHandle) : List CInt :=
  layout.words handle.data handle.numFds.toInt.toNat

def countOf (size : Nat) : CInt := BitVec.ofNat 32 (size / 4)

/-- A new handle from the two arrays, as either side puts it together. -/
def assemble (host : Host) (fds ints : WlArray) : Option NativeHandle := do
  let numFds := countOf fds.length
  let native := native_handle_create host numFds (countOf ints.length)
  let data ← memcpy native.data 0 fds
  let data ← memcpy data (4 * numFds.toNat) ints
  return { native with data := data }

section Counts

variable {host : Host} {n : CInt}

theorem toInt_eq_toNat (h : 0 ≤ n.toInt) : n.toInt = n.toNat := by
  rw [BitVec.toInt_eq_toNat_of_msb]
  rw [BitVec.msb_eq_toInt]
  exact decide_eq_false (Int.not_lt.mpr h)

theorem toInt_of_lt (h : n.toNat < 2 ^ 31) : n.toInt = n.toNat :=
  BitVec.toInt_eq_toNat_of_lt (by omega)

theorem bytes_eq (hn : n.toNat < 2 ^ 31) (hs : 4 * n.toNat < 2 ^ host.sizeBits) :
    host.bytes n = 4 * n.toNat := by
  have hmod : ((n.toNat : Int) * 4) % 2 ^ host.sizeBits = (n.toNat : Int) * 4 := by
    refine Int.emod_eq_of_lt (by omega) ?_
    have : ((4 * n.toNat : Nat) : Int) < ((2 ^ host.sizeBits : Nat) : Int) := Int.ofNat_lt.mpr hs
    push_cast at this
    omega
  rw [Host.bytes, toInt_of_lt hn, hmod]
  omega

theorem countOf_mul (n : CInt) : countOf (4 * n.toNat) = n := by
  rw [countOf, Nat.mul_div_cancel_left _ (by decide), BitVec.ofNat_toNat, BitVec.setWidth_eq]

theorem toNat_add {m : CInt} (h : n.toNat + m.toNat < 2 ^ 31) :
    (n + m).toNat = n.toNat + m.toNat := by
  rw [BitVec.toNat_add]
  omega

end Counts

section Handle

variable {host : Host} {layout : Layout} {h : NativeHandle}

theorem NativeHandle.Valid.numFds_toNat (hv : h.Valid) : h.numFds.toInt.toNat = h.numFds.toNat := by
  rw [toInt_eq_toNat hv.numFds_nonneg, Int.toNat_natCast]

theorem Host.Fits.bytes_numInts (hf : host.Fits h) :
    host.bytes h.numInts = 4 * h.numInts.toNat := by
  have hc := hf.count_lt
  have hs := hf.size_lt
  exact bytes_eq (by omega) (by omega)

theorem Host.Fits.bytes_numFds (hf : host.Fits h) : host.bytes h.numFds = 4 * h.numFds.toNat := by
  have hc := hf.count_lt
  have hs := hf.size_lt
  exact bytes_eq (by omega) (by omega)

theorem Host.Fits.length_create (hf : host.Fits h) :
    (native_handle_create host h.numFds h.numInts).data.length
      = 4 * (h.numFds.toNat + h.numInts.toNat) := by
  have hc := hf.count_lt
  have hs := hf.size_lt
  have hadd := toNat_add hc
  have hb : host.bytes (h.numFds + h.numInts) = 4 * (h.numFds.toNat + h.numInts.toNat) := by
    rw [bytes_eq (by omega) (by omega), hadd]
  rw [native_handle_create, List.length_drop, host.length_malloc, hb, Nat.mod_eq_of_lt hs]
  omega

theorem fdsOf_eq (hv : h.Valid) : fdsOf layout h = h.fds layout := by
  rw [fdsOf, NativeHandle.fds, hv.numFds_toNat]

/-- The array that is sent is the memory of the ints, byte for byte. -/
theorem intsOf_eq (hv : h.Valid) (hf : host.Fits h) :
    intsOf host h = some (h.data.drop (4 * h.numFds.toNat)) := by
  have hlen : (h.data.drop (4 * h.numFds.toNat)).length = 4 * h.numInts.toNat := by
    rw [List.length_drop, hv.length_data]
    omega
  have hload : load h.data (4 * h.numFds.toNat) (4 * h.numInts.toNat)
      = some (h.data.drop (4 * h.numFds.toNat)) := by
    rw [load_eq (by rw [hv.length_data]; omega), slice, List.take_of_length_le (by omega)]
  rw [intsOf, hf.bytes_numInts, hload]
  refine memcpy_all ?_
  rw [wl_array_add, List.nil_append, host.length_malloc, hlen]

theorem appendInt_eq (array : WlArray) (value : CInt) :
    appendInt host layout array value = some (array ++ layout.encode value) := by
  have hlen : (wl_array_add host array layout.size).length = array.length + layout.size := by
    rw [wl_array_add, List.length_append, host.length_malloc]
  have henc := layout.length_encode value
  rw [appendInt, memcpy_eq (by omega), wl_array_add, List.take_left,
    List.drop_eq_nil_of_le (by rw [List.length_append, host.length_malloc]; omega), List.append_nil]

def NativeHandle.withFds (layout : Layout) (h : NativeHandle) (fds : List CInt) : NativeHandle where
  version := sizeofNativeHandle
  numFds := h.numFds
  numInts := h.numInts
  data := layout.pack fds ++ h.data.drop (4 * h.numFds.toNat)

theorem length_pack_eq {fds : List CInt} (hlen : fds.length = h.numFds.toNat) :
    (layout.pack fds).length = 4 * h.numFds.toNat := by
  rw [layout.length_pack, layout.size_eq, hlen]

/-- Two arrays that carry as many descriptors as `h` has and the bytes of its
ints are put together to one handle. -/
theorem assemble_eq (hv : h.Valid) (hf : host.Fits h) {fds : List CInt}
    (hlen : fds.length = h.numFds.toNat) :
    assemble host (layout.pack fds) (h.data.drop (4 * h.numFds.toNat)) =
      some (h.withFds layout fds) := by
  have hp : (layout.pack fds).length = 4 * h.numFds.toNat := length_pack_eq hlen
  have hi : (h.data.drop (4 * h.numFds.toNat)).length = 4 * h.numInts.toNat := by
    rw [List.length_drop, hv.length_data]
    omega
  have hcopy := memcpy_memcpy (native_handle_create host h.numFds h.numInts).data
    (layout.pack fds) (h.data.drop (4 * h.numFds.toNat))
    (by rw [hf.length_create, hp, hi]; omega)
  obtain ⟨mem, h₁, h₂⟩ := Option.bind_eq_some_iff.mp hcopy
  rw [hp] at h₂
  rw [assemble, hp, hi, countOf_mul, countOf_mul]
  simp only [Option.bind_eq_bind, h₁, Option.bind_some, h₂]
  rfl

theorem withFds_fds {fds : List CInt} (hlen : fds.length = h.numFds.toNat) :
    (h.withFds layout fds).fds layout = fds := by
  rw [NativeHandle.fds, NativeHandle.withFds, ← hlen]
  exact layout.words_pack_append fds _

theorem withFds_ints {fds : List CInt} (hlen : fds.length = h.numFds.toNat) :
    (h.withFds layout fds).ints layout = h.ints layout := by
  have hp : (layout.pack fds).length = 4 * h.numFds.toNat := length_pack_eq hlen
  rw [NativeHandle.ints, NativeHandle.ints, NativeHandle.withFds, ← hp, List.drop_left]

end Handle

end FakeLibc.NativeHandles

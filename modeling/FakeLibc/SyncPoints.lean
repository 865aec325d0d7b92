import FakeLibc.Lib.Records
import FakeLibc.NativeHandles
import Mathlib.Data.Nat.Periodic

namespace FakeLibc.SyncPoints

open FakeLibc.Lib.Words FakeLibc.Lib.Records FakeLibc.NativeHandles

abbrev Word := BitVec 32

abbrev Memory := Word → Byte

/-- What the driver's header says of the two structures: where `pt_info` is in
the first, and the size of the second. Both begin with their `len`. -/
structure Header where
  ptInfo : Nat
  sizeofPtInfo : Nat
  len_le_ptInfo : 4 ≤ ptInfo
  len_le_sizeof : 4 ≤ sizeofPtInfo

def bytesAt (m : Memory) (p : Word) (n : Nat) : List Byte :=
  (List.range n).map (fun i => m (p + BitVec.ofNat 32 i))

def lenAt (m : Memory) (p : Word) : Word := littleEndian.decode (bytesAt m p 4)

/-- The null pointer is 0, addresses wrap around, and the difference of two
pointers has a sign. -/
def syncPtInfo (hd : Header) (m : Memory) (info itr : Word) : Word :=
  let itr := if itr = 0 then info + BitVec.ofNat 32 hd.ptInfo else itr + lenAt m itr
  if (lenAt m info).toInt ≤ (itr - info).toInt then 0 else itr

/-- A client begins with the null pointer and gives back what it gets. -/
def call (hd : Header) (m : Memory) (info : Word) (i : Nat) : Word :=
  (syncPtInfo hd m info)^[i + 1] 0

structure PtInfo (hd : Header) where
  rest : List Byte
  sizeof_le : hd.sizeofPtInfo ≤ 4 + rest.length
  size_lt : 4 + rest.length < 2 ^ 32

variable {hd : Header}

def PtInfo.size (pt : PtInfo hd) : Nat := 4 + pt.rest.length

def PtInfo.bytes (pt : PtInfo hd) : List Byte :=
  littleEndian.encode (BitVec.ofNat 32 pt.size) ++ pt.rest

def Holds (m : Memory) (p : Word) (bytes : List Byte) : Prop :=
  ∀ i (h : i < bytes.length), m (p + BitVec.ofNat 32 i) = bytes[i]

def offset (pts : List (PtInfo hd)) (k : Nat) : Nat :=
  hd.ptInfo + ((pts.take k).map PtInfo.size).sum

/-- What the driver leaves at `info`. -/
structure Filled (m : Memory) (info : Word) (pts : List (PtInfo hd)) : Prop where
  len_eq : (lenAt m info).toNat = offset pts pts.length
  holds : Holds m (info + BitVec.ofNat 32 hd.ptInfo) (pts.flatMap PtInfo.bytes)

/-- There is an object at `info` that is as big as it says. -/
structure Object (m : Memory) (info : Word) : Prop where
  ne_zero : info ≠ 0
  fits : info.toNat + (lenAt m info).toNat ≤ 2 ^ 32
  len_lt : (lenAt m info).toNat < 2 ^ 31

/-- A whole `sync_pt_info` is at `p`, and it ends inside the object. -/
structure Inside (hd : Header) (m : Memory) (info p : Word) : Prop where
  ne_zero : p ≠ 0
  sizeof_le : hd.sizeofPtInfo ≤ (lenAt m p).toNat
  fits : (p - info).toNat + (lenAt m p).toNat ≤ (lenAt m info).toNat

def place (info : Word) (o : Nat) : Word := info + BitVec.ofNat 32 o

def sizeAt (m : Memory) (info : Word) (o : Nat) : Nat := (lenAt m (place info o)).toNat

def shown (m : Memory) (info : Word) (o : Nat) : Word :=
  if o < (lenAt m info).toNat then place info o else 0

variable {m : Memory} {info itr : Word} {o : Nat} {pts : List (PtInfo hd)} {l : List Nat}

theorem place_add (info : Word) (o k : Nat) :
    place info o + BitVec.ofNat 32 k = place info (o + k) := by
  rw [place, place, BitVec.add_assoc, BitVec.ofNat_add]

theorem place_sub (info : Word) (o : Nat) : place info o - info = BitVec.ofNat 32 o := by
  rw [place, BitVec.add_comm, BitVec.add_sub_cancel]

theorem Object.toNat_place (h : Object m info) (ho : o < (lenAt m info).toNat) :
    (place info o).toNat = info.toNat + o := by
  have hfits := h.fits
  rw [place, BitVec.toNat_add, BitVec.toNat_ofNat, Nat.add_mod_mod, Nat.mod_eq_of_lt (by omega)]

theorem Object.place_ne_zero (h : Object m info) (ho : o < (lenAt m info).toNat) :
    place info o ≠ 0 := by
  intro hzero
  have hnat := h.toNat_place ho
  have hpos : info.toNat ≠ 0 := fun hi => h.ne_zero (BitVec.eq_of_toNat_eq hi)
  rw [hzero] at hnat
  simp at hnat
  omega

theorem shown_eq_zero_iff (h : Object m info) :
    shown m info o = 0 ↔ (lenAt m info).toNat ≤ o := by
  unfold shown
  by_cases ho : o < (lenAt m info).toNat
  · rw [if_pos ho]
    exact ⟨fun hzero => absurd hzero (h.place_ne_zero ho), fun hle => absurd hle (by omega)⟩
  · rw [if_neg ho]
    exact ⟨fun _ => by omega, fun _ => rfl⟩

theorem toNat_place_sub (ho : o < 2 ^ 32) : (place info o - info).toNat = o := by
  rw [place_sub, BitVec.toNat_ofNat, Nat.mod_eq_of_lt ho]

theorem test_place (h : Object m info) (ho : o < 2 ^ 31) :
    (if (lenAt m info).toInt ≤ (place info o - info).toInt then 0 else place info o) =
      shown m info o := by
  have hlen := h.len_lt
  have hoff : (place info o - info).toInt = o := by
    rw [BitVec.toInt_eq_toNat_of_lt (by rw [toNat_place_sub (by omega)]; omega),
      toNat_place_sub (by omega)]
  rw [BitVec.toInt_eq_toNat_of_lt (by omega), hoff, shown]
  by_cases hlt : o < (lenAt m info).toNat
  · rw [if_pos hlt, if_neg (by omega)]
  · rw [if_neg hlt, if_pos (by omega)]

theorem syncPtInfo_zero (h : Object m info) (hp : hd.ptInfo < 2 ^ 31) :
    syncPtInfo hd m info 0 = shown m info hd.ptInfo := by
  rw [← test_place h hp]
  rfl

theorem syncPtInfo_place (h : Object m info) (ho : o < (lenAt m info).toNat)
    (hin : o + sizeAt m info o ≤ (lenAt m info).toNat) :
    syncPtInfo hd m info (place info o) = shown m info (o + sizeAt m info o) := by
  have hlen := h.len_lt
  have hnext : place info o + lenAt m (place info o) = place info (o + sizeAt m info o) := by
    rw [← place_add, sizeAt, BitVec.ofNat_toNat, BitVec.setWidth_eq]
  rw [← test_place h (by omega), ← hnext, syncPtInfo, if_neg (h.place_ne_zero ho)]

theorem holds_append (m : Memory) (o : Nat) (xs ys : List Byte) :
    Holds m (place info o) (xs ++ ys) ↔
      Holds m (place info o) xs ∧ Holds m (place info (o + xs.length)) ys := by
  constructor
  · intro h
    constructor
    · intro i hi
      rw [h i (by rw [List.length_append]; omega), List.getElem_append_left hi]
    · intro i hi
      rw [place_add, Nat.add_assoc, ← place_add,
        h (xs.length + i) (by rw [List.length_append]; omega),
        List.getElem_append_right (by omega)]
      congr 1
      omega
  · rintro ⟨hxs, hys⟩ i hi
    by_cases hlt : i < xs.length
    · rw [hxs i hlt, List.getElem_append_left hlt]
    · have hcell := hys (i - xs.length) (by rw [List.length_append] at hi; omega)
      rw [place_add, Nat.add_assoc, Nat.add_sub_cancel' (by omega), ← place_add] at hcell
      rw [hcell, List.getElem_append_right (by omega)]

@[simp] theorem length_bytesAt (m : Memory) (p : Word) (n : Nat) : (bytesAt m p n).length = n := by
  rw [bytesAt, List.length_map, List.length_range]

theorem holds_bytesAt (m : Memory) (p : Word) (n : Nat) : Holds m p (bytesAt m p n) := by
  intro i hi
  simp [bytesAt]

theorem encode_decode (b₀ b₁ b₂ b₃ : Byte) :
    littleEndian.encode (littleEndian.decode [b₀, b₁, b₂, b₃]) = [b₀, b₁, b₂, b₃] := by
  have hcell : ∀ (x y : Byte), x = y ↔ ∀ i < 8, x.getLsbD i = y.getLsbD i := by
    intro x y
    exact ⟨fun h i _ => h ▸ rfl, BitVec.eq_of_getLsbD_eq⟩
  simp only [littleEndian, List.cons.injEq, and_true, hcell, BitVec.getLsbD_extractLsb',
    BitVec.getLsbD_append]
  grind

theorem bytesAt_eq {p : Word} {bytes : List Byte} (h : Holds m p bytes) :
    bytesAt m p bytes.length = bytes := by
  apply List.ext_getElem
  · exact length_bytesAt m p _
  · intro i hi hi'
    rw [← h i hi']
    simp [bytesAt]

theorem encode_lenAt (m : Memory) (p : Word) :
    littleEndian.encode (lenAt m p) = bytesAt m p 4 :=
  encode_decode _ _ _ _

theorem PtInfo.length_bytes (pt : PtInfo hd) : pt.bytes.length = pt.size := by
  rw [PtInfo.bytes, List.length_append, littleEndian.length_encode]
  rfl

theorem PtInfo.size_pos (pt : PtInfo hd) : 0 < pt.size := Nat.add_pos_left (by decide) _

theorem sizeAt_of_holds {pt : PtInfo hd} (h : Holds m (place info o) pt.bytes) :
    sizeAt m info o = pt.size := by
  have hlen : Holds m (place info o) (littleEndian.encode (BitVec.ofNat 32 pt.size)) :=
    ((holds_append m o _ _).mp h).1
  have hbytes := bytesAt_eq hlen
  rw [littleEndian.length_encode] at hbytes
  have hfour : littleEndian.size = 4 := rfl
  have hlt : pt.size < 2 ^ 32 := pt.size_lt
  rw [sizeAt, lenAt, ← hfour, hbytes, littleEndian.decode_encode, BitVec.toNat_ofNat,
    Nat.mod_eq_of_lt hlt]

def starts : Nat → List (PtInfo hd) → List Nat
  | _, [] => []
  | a, pt :: pts => a :: starts (a + pt.size) pts

theorem length_starts (a : Nat) (pts : List (PtInfo hd)) : (starts a pts).length = pts.length := by
  induction pts generalizing a with
  | nil => rfl
  | cons pt pts ih => rw [starts, List.length_cons, List.length_cons, ih]

theorem getElem_starts (a : Nat) (pts : List (PtInfo hd)) {k : Nat}
    (hk : k < (starts a pts).length) :
    (starts a pts)[k] = a + ((pts.take k).map PtInfo.size).sum := by
  induction pts generalizing a k with
  | nil => simp [starts] at hk
  | cons pt pts ih =>
    cases k with
    | zero => rfl
    | succ k =>
      have hrest := ih (a + pt.size) (k := k) (by simpa [starts] using hk)
      simp only [starts, List.getElem_cons_succ, List.take_succ_cons, List.map_cons,
        List.sum_cons]
      omega

theorem tiles_starts {a : Nat} (h : Holds m (place info a) (pts.flatMap PtInfo.bytes)) :
    Tiles (sizeAt m info) (a + (pts.map PtInfo.size).sum) a (starts a pts) ∧
      (starts a pts).map (sizeAt m info) = pts.map PtInfo.size := by
  induction pts generalizing a with
  | nil => exact ⟨Tiles.nil, rfl⟩
  | cons pt pts ih =>
    rw [List.flatMap_cons, holds_append, pt.length_bytes] at h
    obtain ⟨hpt, hrest⟩ := h
    have hsize := sizeAt_of_holds hpt
    obtain ⟨htiles, hmap⟩ := ih hrest
    rw [Nat.add_assoc, ← List.sum_cons, ← List.map_cons] at htiles
    constructor
    · apply Tiles.cons
      rw [hsize]
      exact htiles
    · rw [starts, List.map_cons, hmap, hsize, List.map_cons]

theorem exists_point {a : Nat} (h : hd.sizeofPtInfo ≤ sizeAt m info a) :
    ∃ pt : PtInfo hd, pt.size = sizeAt m info a ∧ Holds m (place info a) pt.bytes := by
  have hfour := hd.len_le_sizeof
  have hlt : sizeAt m info a < 2 ^ 32 := (lenAt m (place info a)).isLt
  obtain ⟨rest, hrest, hbytes⟩ : ∃ rest : List Byte, 4 + rest.length = sizeAt m info a ∧
      Holds m (place info (a + 4)) rest :=
    ⟨bytesAt m (place info (a + 4)) (sizeAt m info a - 4), by rw [length_bytesAt]; omega,
      holds_bytesAt m _ _⟩
  have hlen : BitVec.ofNat 32 (4 + rest.length) = lenAt m (place info a) := by
    rw [hrest, sizeAt, BitVec.ofNat_toNat, BitVec.setWidth_eq]
  refine ⟨⟨rest, hrest ▸ h, hrest ▸ hlt⟩, hrest, ?_⟩
  rw [PtInfo.bytes, PtInfo.size, hlen, encode_lenAt, holds_append, length_bytesAt]
  exact ⟨holds_bytesAt m _ 4, hbytes⟩

theorem exists_points {a b : Nat} (h : Tiles (sizeAt m info) b a l)
    (hsize : ∀ c ∈ l, hd.sizeofPtInfo ≤ sizeAt m info c) :
    ∃ pts : List (PtInfo hd), a + (pts.map PtInfo.size).sum = b ∧
      Holds m (place info a) (pts.flatMap PtInfo.bytes) := by
  induction h with
  | nil => exact ⟨[], rfl, fun i hi => absurd hi (Nat.not_lt_zero i)⟩
  | @cons a l _ ih =>
    obtain ⟨pt, hpt, hbytes⟩ := exists_point (hsize a List.mem_cons_self)
    obtain ⟨pts, hsum, hrest⟩ := ih (fun c hc => hsize c (List.mem_cons_of_mem a hc))
    refine ⟨pt :: pts, ?_, ?_⟩
    · rw [List.map_cons, List.sum_cons, hpt, ← Nat.add_assoc, hsum]
    · rw [List.flatMap_cons, holds_append, pt.length_bytes, hpt]
      exact ⟨hbytes, hrest⟩

/-- Where the records fill the object, each is returned in its turn. -/
theorem iterate_of_tiles (h : Object m info)
    (ht : Tiles (sizeAt m info) (lenAt m info).toNat o l) (hpos : ∀ c ∈ l, 0 < sizeAt m info c)
    (hitr : syncPtInfo hd m info itr = shown m info o) :
    (∀ i (hi : i < l.length), (syncPtInfo hd m info)^[i + 1] itr = place info l[i]) ∧
      (syncPtInfo hd m info)^[l.length + 1] itr = 0 := by
  induction ht generalizing itr with
  | nil =>
    refine ⟨fun i hi => absurd hi (Nat.not_lt_zero i), ?_⟩
    exact hitr.trans ((shown_eq_zero_iff h).mpr (Nat.le_refl _))
  | @cons a l ht ih =>
    have hsize := hpos a List.mem_cons_self
    have hle := ht.le
    have hfirst : syncPtInfo hd m info itr = place info a := by
      rw [hitr, shown, if_pos (by omega)]
    obtain ⟨hrest, hend⟩ := ih (fun c hc => hpos c (List.mem_cons_of_mem a hc))
      (syncPtInfo_place h (by omega) hle)
    constructor
    · intro i hi
      cases i with
      | zero => exact hfirst
      | succ i =>
        rw [Function.iterate_succ_apply, hfirst]
        exact hrest i (by simpa using hi)
    · rw [List.length_cons, Function.iterate_succ_apply, hfirst]
      exact hend

theorem pass_of_inside (h : Object m info) {n : Nat} (ho : o ≤ (lenAt m info).toNat)
    (hitr : syncPtInfo hd m info itr = shown m info o)
    (hend : (syncPtInfo hd m info)^[n + 1] itr = 0)
    (hin : ∀ i < n, Inside hd m info ((syncPtInfo hd m info)^[i + 1] itr)) :
    ∃ l, Pass (sizeAt m info) (lenAt m info).toNat o l ∧
      ∀ c ∈ l, hd.sizeofPtInfo ≤ sizeAt m info c ∧ c + sizeAt m info c ≤ (lenAt m info).toNat := by
  induction n generalizing itr o with
  | zero =>
    have hzero : shown m info o = 0 := hitr.symm.trans hend
    exact ⟨[], Pass.stop ((shown_eq_zero_iff h).mp hzero), by simp⟩
  | succ n ih =>
    have hfirst := hin 0 (Nat.zero_lt_succ n)
    rw [Function.iterate_one, hitr] at hfirst
    have hlt : o < (lenAt m info).toNat := by
      by_contra hle
      exact hfirst.ne_zero ((shown_eq_zero_iff h).mpr (by omega))
    have hplace : shown m info o = place info o := if_pos hlt
    rw [hplace] at hitr hfirst
    have hfits := hfirst.fits
    rw [toNat_place_sub (by omega)] at hfits
    rw [Function.iterate_succ_apply, hitr] at hend
    obtain ⟨l, hpass, hl⟩ := ih hfits (syncPtInfo_place h hlt hfits) hend
      (fun i hi => by
        have hnext := hin (i + 1) (by omega)
        rwa [Function.iterate_succ_apply, hitr] at hnext)
    refine ⟨o :: l, Pass.next hlt hpass, ?_⟩
    intro c hc
    rcases List.mem_cons.mp hc with rfl | hc
    · exact ⟨hfirst.sizeof_le, hfits⟩
    · exact hl c hc

theorem Filled.holds_place (h : Filled m info pts) :
    Holds m (place info hd.ptInfo) (pts.flatMap PtInfo.bytes) := h.holds

theorem offset_length (pts : List (PtInfo hd)) :
    offset pts pts.length = hd.ptInfo + (pts.map PtInfo.size).sum := by
  rw [offset, List.take_length]

theorem Filled.tiles (h : Filled m info pts) :
    Tiles (sizeAt m info) (lenAt m info).toNat hd.ptInfo (starts hd.ptInfo pts) ∧
      (starts hd.ptInfo pts).map (sizeAt m info) = pts.map PtInfo.size := by
  rw [h.len_eq, offset_length]
  exact tiles_starts h.holds_place

theorem Filled.size_mem (h : Filled m info pts) :
    ∀ c ∈ starts hd.ptInfo pts, ∃ pt ∈ pts, pt.size = sizeAt m info c := by
  intro c hc
  have hmem := List.mem_map_of_mem (f := sizeAt m info) hc
  rw [h.tiles.2] at hmem
  obtain ⟨pt, hpt, hsize⟩ := List.mem_map.mp hmem
  exact ⟨pt, hpt, hsize⟩

theorem Filled.pos (h : Filled m info pts) :
    ∀ c ∈ starts hd.ptInfo pts, 0 < sizeAt m info c := by
  intro c hc
  obtain ⟨pt, _, hsize⟩ := h.size_mem c hc
  exact hsize ▸ pt.size_pos

theorem Filled.calls (h : Filled m info pts) (hobj : Object m info) :
    (∀ i, i < pts.length → call hd m info i = place info (offset pts i)) ∧
      call hd m info pts.length = 0 := by
  have hle := h.tiles.1.le
  have hlen := hobj.len_lt
  obtain ⟨hcalls, hend⟩ := iterate_of_tiles hobj h.tiles.1 h.pos
    (syncPtInfo_zero hobj (by omega))
  rw [length_starts] at hend
  refine ⟨fun i hi => ?_, hend⟩
  have hstart := getElem_starts hd.ptInfo pts (k := i) (by rw [length_starts]; exact hi)
  rw [call, hcalls i (by rw [length_starts]; exact hi), hstart, offset]

theorem Filled.inside (h : Filled m info pts) (hobj : Object m info) {i : Nat}
    (hi : i < pts.length) : Inside hd m info (call hd m info i) := by
  have hlen := hobj.len_lt
  have hi' : i < (starts hd.ptInfo pts).length := by rw [length_starts]; exact hi
  have hstart : (starts hd.ptInfo pts)[i] = offset pts i := getElem_starts hd.ptInfo pts hi'
  have hmem : offset pts i ∈ starts hd.ptInfo pts := hstart ▸ List.getElem_mem hi'
  obtain ⟨pt, _, hsize⟩ := h.size_mem _ hmem
  have hpos := h.pos _ hmem
  have hle := h.tiles.1.add_size_le _ hmem
  rw [(h.calls hobj).1 i hi]
  constructor
  · exact hobj.place_ne_zero (by omega)
  · have hbig : hd.sizeofPtInfo ≤ pt.size := pt.sizeof_le
    rw [hsize] at hbig
    exact hbig
  · rw [toNat_place_sub (by omega)]
    exact hle

/-- After the null pointer a client begins again. -/
theorem Filled.periodic (h : Filled m info pts) (hobj : Object m info) :
    Function.Periodic (call hd m info) (pts.length + 1) := by
  intro i
  have hend := (h.calls hobj).2
  rw [call] at hend ⊢
  have hsum : i + (pts.length + 1) + 1 = (i + 1) + (pts.length + 1) := by omega
  rw [hsum, Function.iterate_add_apply, hend]
  rfl

theorem holds_point {a k : Nat} (h : Holds m (place info a) (pts.flatMap PtInfo.bytes))
    (hk : k < pts.length) :
    Holds m (place info (a + ((pts.take k).map PtInfo.size).sum)) pts[k].bytes := by
  induction pts generalizing a k with
  | nil => simp at hk
  | cons pt pts ih =>
    rw [List.flatMap_cons, holds_append, pt.length_bytes] at h
    cases k with
    | zero => exact h.1
    | succ k =>
      have hrest := ih h.2 (k := k) (by simpa using hk)
      rw [Nat.add_assoc] at hrest
      exact hrest

/-- The calls show the points of the fence one after the other, then the null
pointer, and then the points again. -/
theorem points_in_turn (hd : Header) (m : Memory) (info : Word) (pts : List (PtInfo hd))
    (hobj : Object m info) (hfill : Filled m info pts) (i : Nat) :
    (∃ h : i % (pts.length + 1) < pts.length,
      call hd m info i = place info (offset pts (i % (pts.length + 1))) ∧
        Holds m (call hd m info i) (pts[i % (pts.length + 1)].bytes)) ∨
      i % (pts.length + 1) = pts.length ∧ call hd m info i = 0 := by
  obtain ⟨hcalls, hend⟩ := hfill.calls hobj
  have hmod : i % (pts.length + 1) < pts.length + 1 := Nat.mod_lt i (Nat.succ_pos _)
  rw [← Function.Periodic.map_mod_nat (hfill.periodic hobj) i]
  rcases Nat.lt_succ_iff_lt_or_eq.mp hmod with hlt | heq
  · refine Or.inl ⟨hlt, hcalls _ hlt, ?_⟩
    rw [hcalls _ hlt, offset]
    exact holds_point hfill.holds_place hlt
  · exact Or.inr ⟨heq, by rw [heq]; exact hend⟩

def ofBytes (p : Word) (bytes : List Byte) : Memory := fun x => (bytes[(x - p).toNat]?).getD 0

theorem holds_ofBytes (p : Word) {bytes : List Byte} (h : bytes.length < 2 ^ 32) :
    Holds (ofBytes p bytes) p bytes := by
  intro i hi
  have hsub : (p + BitVec.ofNat 32 i - p).toNat = i := toNat_place_sub (by omega)
  rw [ofBytes, hsub, List.getElem?_eq_getElem hi, Option.getD_some]

def armHeader : Header := ⟨40, 80, by decide, by decide⟩

def twoPoints : List (PtInfo armHeader) :=
  [⟨List.replicate 76 1, by decide, by decide⟩, ⟨List.replicate 84 2, by decide, by decide⟩]

def twoPointsMemory : Memory :=
  ofBytes 0x1000 (littleEndian.encode 208 ++ List.replicate 36 7 ++
    twoPoints.flatMap PtInfo.bytes)

theorem object_twoPoints : Object twoPointsMemory 0x1000 := ⟨by decide, by decide, by decide⟩

theorem filled_twoPoints : Filled twoPointsMemory 0x1000 twoPoints where
  len_eq := by decide
  holds := by
    have hlen : (littleEndian.encode 208 ++ List.replicate 36 7 ++
        twoPoints.flatMap PtInfo.bytes).length = 208 := by
      simp only [twoPoints, List.flatMap_cons, List.flatMap_nil, List.length_append,
        PtInfo.length_bytes, PtInfo.size, List.length_replicate, littleEndian.length_encode]
      rfl
    have h : Holds twoPointsMemory (place 0x1000 0) _ :=
      holds_ofBytes 0x1000 (by rw [hlen]; decide)
    exact ((holds_append _ 0 _ _).mp h).2

/-- The fifth call shows the second point again. -/
theorem points_in_turn_twoPoints :
    (∃ h : 4 % (twoPoints.length + 1) < twoPoints.length,
      call armHeader twoPointsMemory 0x1000 4 =
          place 0x1000 (offset twoPoints (4 % (twoPoints.length + 1))) ∧
        Holds twoPointsMemory (call armHeader twoPointsMemory 0x1000 4)
          (twoPoints[4 % (twoPoints.length + 1)].bytes)) ∨
      4 % (twoPoints.length + 1) = twoPoints.length ∧
        call armHeader twoPointsMemory 0x1000 4 = 0 :=
  points_in_turn armHeader twoPointsMemory 0x1000 twoPoints object_twoPoints filled_twoPoints 4

/-- A client that reads each point it gets stays inside until the null pointer
exactly where the object is a sequence of points. -/
theorem pass_inside_iff (hd : Header) (m : Memory) (info : Word) (hobj : Object m info)
    (hhead : hd.ptInfo ≤ (lenAt m info).toNat) :
    (∃ n, call hd m info n = 0 ∧ ∀ i < n, Inside hd m info (call hd m info i)) ↔
      ∃ pts : List (PtInfo hd), Filled m info pts := by
  have hlen := hobj.len_lt
  constructor
  · rintro ⟨n, hend, hin⟩
    obtain ⟨l, hpass, hl⟩ := pass_of_inside hobj hhead
      (syncPtInfo_zero hobj (by omega)) hend hin
    have htiles := hpass.tiles hhead (fun c hc => (hl c hc).2)
    obtain ⟨pts, hsum, hholds⟩ := exists_points htiles (fun c hc => (hl c hc).1)
    exact ⟨pts, by rw [offset_length, hsum], hholds⟩
  · rintro ⟨pts, hfill⟩
    refine ⟨pts.length, (hfill.calls hobj).2, fun i hi => ?_⟩
    exact hfill.inside hobj hi

theorem pass_inside_iff_twoPoints :
    (∃ n, call armHeader twoPointsMemory 0x1000 n = 0 ∧
      ∀ i < n, Inside armHeader twoPointsMemory 0x1000
        (call armHeader twoPointsMemory 0x1000 i)) ↔
      ∃ pts : List (PtInfo armHeader), Filled twoPointsMemory 0x1000 pts :=
  pass_inside_iff armHeader twoPointsMemory 0x1000 object_twoPoints (by decide)

end FakeLibc.SyncPoints

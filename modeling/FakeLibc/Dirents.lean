import FakeLibc.Lib.CString

namespace FakeLibc.Dirents

open FakeLibc.Lib.CString

abbrev Name := { bytes : List UInt8 // bytes.length = 256 }

/-- `d_name[sizeof(d_name) - 1] = '\0'` -/
def Name.terminate (name : Name) : Name := ⟨name.1.set 255 0, by rw [List.length_set, name.2]⟩

/-- An unsigned long has 32 bits. -/
structure GlibcDirent where
  dIno : BitVec 32
  dOff : BitVec 32
  dReclen : BitVec 16
  dType : BitVec 8
  dName : Name
deriving DecidableEq

structure BionicDirent where
  dIno : BitVec 64
  dOff : BitVec 64
  dReclen : BitVec 16
  dType : BitVec 8
  dName : Name
deriving DecidableEq

/-- What a directory stream delivers at one call. -/
inductive Item
  | entry (d : GlibcDirent)
  | error (code : Int) (h : code ≠ 0)
deriving DecidableEq

abbrev Dir := List Item

def glibcReaddir : Dir → Option GlibcDirent × Dir
  | [] => (none, [])
  | .entry d :: dir => (some d, dir)
  | .error _ _ :: dir => (none, dir)

/-- The result, the entry that `*result_r` points to, and the rest. -/
def glibcReaddirR : Dir → Int × Option GlibcDirent × Dir
  | [] => (0, none, [])
  | .entry d :: dir => (0, some d, dir)
  | .error code _ :: dir => (code, none, dir)

/-- The stream and the static `result`. -/
structure Readdir where
  dir : Dir
  result : BionicDirent
deriving DecidableEq

/-- Whether a pointer to `result` is returned, and not NULL. -/
def myReaddir (s : Readdir) : Bool × Readdir :=
  match glibcReaddir s.dir with
  | (none, dir) => (false, { s with dir := dir })
  | (some realResult, dir) =>
    let result :=
      { s.result with
        dIno := realResult.dIno.setWidth 64
        dOff := realResult.dOff.setWidth 64
        dReclen := realResult.dReclen
        dType := realResult.dType
        dName := realResult.dName }
    let result := { result with dName := result.dName.terminate }
    (true, ⟨dir, result⟩)

inductive Pointer
  | null
  | entry
  | other (address : Nat)
deriving DecidableEq

structure ReaddirR where
  dir : Dir
  entry : BionicDirent
  result : Pointer
deriving DecidableEq

def myReaddirR (s : ReaddirR) : Int × ReaddirR :=
  match glibcReaddirR s.dir with
  | (res, resultR, dir) =>
    if res = 0 then
      match resultR with
      | some entryR =>
        let entry :=
          { s.entry with
            dIno := entryR.dIno.setWidth 64
            dOff := entryR.dOff.setWidth 64
            dReclen := entryR.dReclen
            dType := entryR.dType
            dName := entryR.dName }
        let entry := { entry with dName := entry.dName.terminate }
        (res, ⟨dir, entry, .entry⟩)
      | none => (res, { s with dir := dir, result := .null })
    else (res, { s with dir := dir })

def Readdir.before (s : Readdir) : Nat → Readdir
  | 0 => s
  | i + 1 => (myReaddir (s.before i)).2

def ReaddirR.before (s : ReaddirR) : Nat → ReaddirR
  | 0 => s
  | i + 1 => (myReaddirR (s.before i)).2

def Readdir.obtained (s : Readdir) (i : Nat) : Option BionicDirent :=
  match myReaddir (s.before i) with
  | (true, t) => some t.result
  | (false, _) => none

def ReaddirR.stored (s : ReaddirR) (i : Nat) : Option BionicDirent :=
  match myReaddirR (s.before i) with
  | (res, t) => if res = 0 ∧ t.result = .entry then some t.entry else none

/-- The numbers are the same, and so is the name up to its end or its last byte. -/
structure Widened (g : GlibcDirent) (b : BionicDirent) : Prop where
  dIno : b.dIno.toNat = g.dIno.toNat
  dOff : b.dOff.toInt = g.dOff.toNat
  dReclen : b.dReclen = g.dReclen
  dType : b.dType = g.dType
  dName : (cstr 0 b.dName.1).1 = (g.dName.1.take 255).takeWhile (· ≠ 0)
  terminated : b.dName.1[255]? = some 0

/-- Both kinds of calls deliver the entries of the stream, one by one. Where there
is no entry, `my_readdir` returns NULL and the caller's entry stays. -/
structure Agree (dir : Dir) (s : Readdir) (r : ReaddirR) : Prop where
  same : s.obtained = r.stored
  widened : ∀ i g, dir[i]? = some (.entry g) → ∃ b, r.stored i = some b ∧ Widened g b
  ended : ∀ i, dir[i]? = none → (myReaddir (s.before i)).1 = false ∧
    (myReaddirR (r.before i)).1 = 0 ∧ (r.before (i + 1)).result = .null ∧
      (r.before (i + 1)).entry = (r.before i).entry
  error : ∀ i code h, dir[i]? = some (.error code h) → (myReaddir (s.before i)).1 = false ∧
    (myReaddirR (r.before i)).1 = code ∧ (r.before (i + 1)).result = (r.before i).result ∧
      (r.before (i + 1)).entry = (r.before i).entry

def widen (g : GlibcDirent) : BionicDirent :=
  ⟨g.dIno.setWidth 64, g.dOff.setWidth 64, g.dReclen, g.dType, g.dName.terminate⟩

def delivered : Option Item → Option BionicDirent
  | some (.entry g) => some (widen g)
  | some (.error _ _) => none
  | none => none

theorem terminate_eq (name : Name) :
    name.terminate.1 = name.1.take 255 ++ 0 :: name.1.drop 256 := by
  have hlength : 255 < name.1.length := by
    rw [name.2]
    decide
  exact (List.set_eq_take_append_cons_drop ..).trans (if_pos hlength)

theorem toInt_setWidth (v : BitVec 32) : (v.setWidth 64).toInt = v.toNat := by
  rw [BitVec.toInt_eq_toNat_of_lt, BitVec.toNat_setWidth_of_le (by decide)]
  rw [BitVec.toNat_setWidth_of_le (by decide)]
  omega

theorem widened_widen (g : GlibcDirent) : Widened g (widen g) where
  dIno := BitVec.toNat_setWidth_of_le (by decide)
  dOff := toInt_setWidth g.dOff
  dReclen := rfl
  dType := rfl
  dName := by
    rw [widen, terminate_eq]
    exact cstr_append_nul_eq _ _
  terminated := by
    have hlength : 255 < g.dName.1.length := by
      rw [g.dName.2]
      decide
    exact List.getElem?_set_self hlength

section Calls

variable {s : Readdir} {r : ReaddirR} {g : GlibcDirent} {code : Int} {hcode : code ≠ 0}

theorem myReaddir_entry (h : s.dir.head? = some (.entry g)) :
    myReaddir s = (true, ⟨s.dir.tail, widen g⟩) := by
  obtain ⟨dir, result⟩ := s
  obtain ⟨dir, rfl⟩ := List.head?_eq_some_iff.mp h
  rfl

theorem myReaddir_error (h : s.dir.head? = some (.error code hcode)) :
    myReaddir s = (false, ⟨s.dir.tail, s.result⟩) := by
  obtain ⟨dir, result⟩ := s
  obtain ⟨dir, rfl⟩ := List.head?_eq_some_iff.mp h
  rfl

theorem myReaddir_end (h : s.dir.head? = none) :
    myReaddir s = (false, ⟨s.dir.tail, s.result⟩) := by
  obtain ⟨dir, result⟩ := s
  obtain rfl := List.head?_eq_none_iff.mp h
  rfl

theorem myReaddirR_entry (h : r.dir.head? = some (.entry g)) :
    myReaddirR r = (0, ⟨r.dir.tail, widen g, .entry⟩) := by
  obtain ⟨dir, entry, result⟩ := r
  obtain ⟨dir, rfl⟩ := List.head?_eq_some_iff.mp h
  rfl

theorem myReaddirR_error (h : r.dir.head? = some (.error code hcode)) :
    myReaddirR r = (code, ⟨r.dir.tail, r.entry, r.result⟩) := by
  obtain ⟨dir, entry, result⟩ := r
  obtain ⟨dir, rfl⟩ := List.head?_eq_some_iff.mp h
  exact if_neg hcode

theorem myReaddirR_end (h : r.dir.head? = none) :
    myReaddirR r = (0, ⟨r.dir.tail, r.entry, .null⟩) := by
  obtain ⟨dir, entry, result⟩ := r
  obtain rfl := List.head?_eq_none_iff.mp h
  rfl

theorem dir_myReaddir (s : Readdir) : (myReaddir s).2.dir = s.dir.tail := by
  cases h : s.dir.head? with
  | none => rw [myReaddir_end h]
  | some item =>
    cases item with
    | entry g => rw [myReaddir_entry h]
    | error code hcode => rw [myReaddir_error h]

theorem dir_myReaddirR (r : ReaddirR) : (myReaddirR r).2.dir = r.dir.tail := by
  cases h : r.dir.head? with
  | none => rw [myReaddirR_end h]
  | some item =>
    cases item with
    | entry g => rw [myReaddirR_entry h]
    | error code hcode => rw [myReaddirR_error h]

theorem head_before (s : Readdir) (i : Nat) : (s.before i).dir.head? = s.dir[i]? := by
  have hdrop : (s.before i).dir = s.dir.drop i := by
    induction i with
    | zero => rfl
    | succ i ih => rw [Readdir.before, dir_myReaddir, ih, List.tail_drop]
  rw [hdrop, List.head?_drop]

theorem head_beforeR (r : ReaddirR) (i : Nat) : (r.before i).dir.head? = r.dir[i]? := by
  have hdrop : (r.before i).dir = r.dir.drop i := by
    induction i with
    | zero => rfl
    | succ i ih => rw [ReaddirR.before, dir_myReaddirR, ih, List.tail_drop]
  rw [hdrop, List.head?_drop]

end Calls

theorem obtained_eq (s : Readdir) (i : Nat) : s.obtained i = delivered s.dir[i]? := by
  have hitem := head_before s i
  cases h : s.dir[i]? with
  | none =>
    rw [Readdir.obtained, myReaddir_end (hitem.trans h)]
    rfl
  | some item =>
    cases item with
    | entry g =>
      rw [Readdir.obtained, myReaddir_entry (hitem.trans h)]
      rfl
    | error code hcode =>
      rw [Readdir.obtained, myReaddir_error (hitem.trans h)]
      rfl

theorem stored_eq (r : ReaddirR) (i : Nat) : r.stored i = delivered r.dir[i]? := by
  have hitem := head_beforeR r i
  cases h : r.dir[i]? with
  | none =>
    rw [ReaddirR.stored, myReaddirR_end (hitem.trans h)]
    exact if_neg nofun
  | some item =>
    cases item with
    | entry g =>
      rw [ReaddirR.stored, myReaddirR_entry (hitem.trans h)]
      exact if_pos ⟨rfl, rfl⟩
    | error code hcode =>
      rw [ReaddirR.stored, myReaddirR_error (hitem.trans h)]
      exact if_neg (fun hboth => hcode hboth.1)

/-- The two functions agree on every stream, whatever the entries and `*result`
hold before. -/
theorem readdir_agree (dir : Dir) (result entry : BionicDirent) (pointer : Pointer) :
    Agree dir ⟨dir, result⟩ ⟨dir, entry, pointer⟩ where
  same := by
    funext i
    rw [obtained_eq, stored_eq]
  widened i g hg := by
    refine ⟨widen g, ?_, widened_widen g⟩
    rw [stored_eq, hg]
    rfl
  ended i hend := by
    rw [myReaddir_end ((head_before ..).trans hend), ReaddirR.before,
      myReaddirR_end ((head_beforeR ..).trans hend)]
    exact ⟨rfl, rfl, rfl, rfl⟩
  error i code hcode herror := by
    rw [myReaddir_error ((head_before ..).trans herror), ReaddirR.before,
      myReaddirR_error ((head_beforeR ..).trans herror)]
    exact ⟨rfl, rfl, rfl, rfl⟩

end FakeLibc.Dirents

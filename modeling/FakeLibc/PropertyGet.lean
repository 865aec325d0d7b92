import FakeLibc.Lib.CString

namespace FakeLibc.PropertyGet

open FakeLibc.Lib.CString

abbrev Bytes := List UInt8

abbrev Str := Text (0 : UInt8)

def newline : UInt8 := 10

def equals : UInt8 := 61

/-- The lines that successive `getline` calls deliver, each with its newline. -/
def getlines : Bytes → List Bytes
  | [] => []
  | b :: bs =>
    if b = newline then [b] :: getlines bs
    else match getlines bs with
      | [] => [[b]]
      | l :: ls => (b :: l) :: ls

/-- The buffer after `line[read-1] = 0`, with the `nul` that `getline` put
behind the line. -/
def buffer (line : Bytes) : Bytes := line.dropLast ++ [0, 0]

/-- `strstr(line, name)` and the string at `pos+strlen(name)+1`. -/
def lineValue (name : Str) (line : Bytes) : Option Str :=
  (strstr name.1 (cstr 0 (buffer line)).1).map
    (fun pos => cstr 0 ((buffer line).drop (pos + strlen name + 1)))

structure Cache where
  lastProperty : Str
  lastValue : Str
deriving DecidableEq

def Cache.initial : Cache := ⟨empty, empty⟩

structure Result where
  cache : Cache
  value : Bytes
  ret : Nat
deriving DecidableEq

/-- The part behind the cache test. A name that no line contains leaves the
caller's buffer alone. -/
def readFile (content : Bytes) (name : Str) (value : Bytes) : Result :=
  match (getlines content).findSome? (lineValue name) with
  | some v => ⟨⟨name, v⟩, strcpy value v, strlen v⟩
  | none => ⟨⟨name, empty⟩, value, 0⟩

def systemPropertyGet (content : Bytes) (cache : Cache) (name : Str) (value : Bytes) : Result :=
  if name = cache.lastProperty then
    ⟨cache, strcpy value cache.lastValue, strlen (cstr 0 (strcpy value cache.lastValue))⟩
  else readFile content name value

def chomp (line : Bytes) : Bytes :=
  if line.getLast? = some newline then line.dropLast else line

/-- The text before the first `=` of the line is the name. -/
def IsKeyLine (name : Str) (line : Bytes) : Prop :=
  equals ∈ chomp line ∧ (chomp line).takeWhile (· ≠ equals) = name.1

instance (name : Str) (line : Bytes) : Decidable (IsKeyLine name line) :=
  inferInstanceAs (Decidable (_ ∧ _))

def textOf (line : Bytes) : Bytes := ((chomp line).dropWhile (· ≠ equals)).tail

def property (content : Bytes) (name : Str) : Option Bytes :=
  ((getlines content).find? (fun line => IsKeyLine name line)).map textOf

/-- The buffer holds the property's text, or the empty string for an absent
property, and the result is its length. -/
def Exact (content : Bytes) (name : Str) (r : Result) : Prop :=
  ((property content name).getD [] ++ [0] <+: r.value) ∧
    r.ret = ((property content name).getD []).length

/-- The name stands in the line, before any zero byte and before the last byte. -/
def Contains (name : Str) (line : Bytes) : Prop := name.1 <:+: line.dropLast.takeWhile (· ≠ 0)

instance (name : Str) (line : Bytes) : Decidable (Contains name line) :=
  inferInstanceAs (Decidable (_ <:+: _))

/-- One byte behind the first occurrence of the name in the line, `text`
stands up to a zero byte or the last byte of the line. -/
def Follows (name : Str) (line text : Bytes) : Prop :=
  ∃ pre post, FirstAt name.1 line.dropLast pre post ∧ 0 ∉ pre ∧
    post.tail.takeWhile (· ≠ 0) = text

/-- The first line that contains the name is its key line, with a newline
unless the text is empty and with no zero byte in the text, or what stands
behind the name there is the property's text all the same. If no line
contains the name, the buffer holds the empty string already. -/
def Readable (content : Bytes) (name : Str) (value : Bytes) : Prop :=
  match (getlines content).find? (fun line => Contains name line) with
  | none => value.head? = some 0
  | some line =>
    if IsKeyLine name line then
      0 ∉ textOf line ∧ (line.getLast? = some newline ∨ textOf line = [])
    else Follows name line ((property content name).getD [])

theorem getlines_ne_nil {content line : Bytes} (h : line ∈ getlines content) : line ≠ [] := by
  induction content generalizing line with
  | nil => simp [getlines] at h
  | cons b bs ih =>
    rw [getlines] at h
    by_cases hb : b = newline
    · rw [if_pos hb] at h
      obtain rfl | h := List.mem_cons.mp h
      · exact List.cons_ne_nil _ _
      · exact ih h
    · rw [if_neg hb] at h
      cases hl : getlines bs with
      | nil => simp_all
      | cons l ls =>
        rw [hl] at h
        obtain rfl | h := List.mem_cons.mp h
        · exact List.cons_ne_nil _ _
        · exact ih (by rw [hl]; exact List.mem_cons_of_mem l h)

theorem cstr_drop_buffer (line pre post : Bytes) (name : Str)
    (h : line.dropLast = pre ++ (name.1 ++ post)) :
    (cstr 0 ((buffer line).drop (pre.length + strlen name + 1))).1 =
      post.tail.takeWhile (· ≠ 0) := by
  have hdrop : (buffer line).drop (pre.length + strlen name + 1) = (post ++ [0, 0]).drop 1 := by
    rw [buffer, h, List.append_assoc, List.append_assoc, strlen, Nat.add_assoc, ← List.drop_drop,
      List.drop_left, ← List.drop_drop, List.drop_left]
  rw [hdrop]
  cases post with
  | nil => rfl
  | cons b post => exact cstr_append_nul_eq post [0]

theorem follows_unique {name : Str} {line text text' : Bytes} (h : Follows name line text)
    (h' : Follows name line text') : text = text' := by
  obtain ⟨pre, post, hat, _, rfl⟩ := h
  obtain ⟨pre', post', hat', _, rfl⟩ := h'
  rw [(hat.unique hat').2]

theorem lineValue_eq_some_iff {name v : Str} {line : Bytes} :
    lineValue name line = some v ↔ Follows name line v.1 := by
  have hfind := strstr_cstr_eq_some_iff name.2 line.dropLast [0]
  rw [lineValue, Option.map_eq_some_iff]
  constructor
  · rintro ⟨pos, hpos, rfl⟩
    obtain ⟨pre, post, hat, hnul, rfl⟩ := (hfind pos).mp hpos
    exact ⟨pre, post, hat, hnul, (cstr_drop_buffer line pre post name hat.split).symm⟩
  · rintro ⟨pre, post, hat, hnul, hv⟩
    refine ⟨pre.length, (hfind pre.length).mpr ⟨pre, post, hat, hnul, rfl⟩, ?_⟩
    exact Subtype.ext ((cstr_drop_buffer line pre post name hat.split).trans hv)

theorem lineValue_isSome_iff (name : Str) (line : Bytes) :
    (lineValue name line).isSome ↔ Contains name line := by
  have hstr : (cstr 0 (buffer line)).1 = line.dropLast.takeWhile (· ≠ 0) :=
    cstr_append_nul_eq line.dropLast [0]
  rw [lineValue, Option.isSome_map, strstr_isSome_iff, hstr, Contains]

theorem lineValue_of_buffer {name : Str} {line rest : Bytes}
    (h : buffer line = name.1 ++ rest) : lineValue name line = some (cstr 0 (rest.drop 1)) := by
  have hpos : strstr name.1 (cstr 0 (buffer line)).1 = some 0 := by
    rw [h, cstr_append name.2]
    exact strstr_isPrefix (List.prefix_append _ _)
  have hdrop : (name.1 ++ rest).drop (0 + strlen name + 1) = rest.drop 1 := by
    rw [Nat.zero_add, strlen, ← List.drop_drop, List.drop_left]
  rw [lineValue, hpos, Option.map_some, h, hdrop]

theorem chomp_keyLine {name : Str} {line : Bytes} (h : IsKeyLine name line) :
    chomp line = name.1 ++ equals :: textOf line := by
  have hsplit := takeWhile_append_cons h.1
  rw [h.2] at hsplit
  exact hsplit.symm

theorem buffer_of_newline {name : Str} {line : Bytes} (h : IsKeyLine name line)
    (hn : line.getLast? = some newline) :
    buffer line = name.1 ++ equals :: (textOf line ++ [0, 0]) := by
  have hc := chomp_keyLine h
  rw [chomp, if_pos hn] at hc
  rw [buffer, hc, List.append_assoc, List.cons_append]

theorem buffer_of_not_newline {name : Str} {line : Bytes} (h : IsKeyLine name line)
    (hn : line.getLast? ≠ some newline) :
    buffer line = name.1 ++ ((equals :: textOf line).dropLast ++ [0, 0]) := by
  have hc := chomp_keyLine h
  rw [chomp, if_neg hn] at hc
  rw [buffer, ← List.append_assoc, ← List.dropLast_append_cons, ← hc]

theorem lineValue_keyLine {name : Str} {line : Bytes} (h : IsKeyLine name line) :
    ∃ v, lineValue name line = some v ∧
      (v.1 = textOf line ↔
        0 ∉ textOf line ∧ (line.getLast? = some newline ∨ textOf line = [])) := by
  by_cases hn : line.getLast? = some newline
  · refine ⟨_, lineValue_of_buffer (buffer_of_newline h hn), ?_⟩
    rw [List.drop_succ_cons, List.drop_zero, cstr_append_nul_eq_iff]
    simp only [hn, true_or, and_true]
  · refine ⟨_, lineValue_of_buffer (buffer_of_not_newline h hn), ?_⟩
    simp only [hn, false_or]
    obtain ht | ⟨t, b, ht⟩ := List.eq_nil_or_concat' (textOf line)
    · rw [ht]
      simp [cstr]
    · have hlen : strlen (cstr (0 : UInt8) (t ++ 0 :: [0])) ≤ t.length :=
        strlen_cstr_append_nul_le t [0]
      have hne : textOf line ≠ [] := by rw [ht]; simp
      have hdrop : ((equals :: textOf line).dropLast ++ [0, 0]).drop 1 = t ++ 0 :: [0] := by
        rw [ht, ← List.cons_append, List.dropLast_concat]
        rfl
      simp only [hne, and_false, iff_false, hdrop]
      intro he
      rw [strlen, he, ht, List.length_append, List.length_singleton] at hlen
      omega

theorem findSome_eq_bind (name : Str) (lines : List Bytes) :
    lines.findSome? (lineValue name) =
      (lines.find? (fun line => Contains name line)).bind (lineValue name) := by
  induction lines with
  | nil => rfl
  | cons line lines ih =>
    have hsome := lineValue_isSome_iff name line
    cases h : lineValue name line with
    | none =>
      have hno : ¬ Contains name line := by simpa [h] using hsome
      simp [h, hno, ih]
    | some v =>
      have hyes : Contains name line := by simpa [h] using hsome
      simp [h, hyes]

theorem contains_keyLine {name : Str} {line : Bytes} (h : IsKeyLine name line) :
    Contains name line := by
  obtain ⟨v, hv, _⟩ := lineValue_keyLine h
  rw [← lineValue_isSome_iff, hv]
  rfl

/-- A key line contains the name, so without a line that does there is none. -/
theorem property_eq_none {content : Bytes} {name : Str}
    (h : (getlines content).find? (fun line => Contains name line) = none) :
    property content name = none := by
  rw [property, Option.map_eq_none_iff, List.find?_eq_none]
  intro line hline hkey
  have hyes := contains_keyLine (of_decide_eq_true hkey)
  exact List.find?_eq_none.mp h line hline (decide_eq_true hyes)

theorem property_keyLine {content : Bytes} {name : Str} {line : Bytes}
    (h : (getlines content).find? (fun line => Contains name line) = some line)
    (hkey : IsKeyLine name line) : property content name = some (textOf line) := by
  obtain ⟨_, as, bs, hsplit, has⟩ := List.find?_eq_some_iff_append.mp h
  have hfirst :
      (getlines content).find? (fun line => decide (IsKeyLine name line)) = some line := by
    refine List.find?_eq_some_iff_append.mpr
      ⟨decide_eq_true hkey, as, bs, hsplit, fun l hl => ?_⟩
    have hno : ¬ Contains name l := by simpa using has l hl
    simpa using mt contains_keyLine hno
  rw [property, hfirst, Option.map_some]

/-- The file says of a name what follows it in the first line that contains it. -/
theorem findSome_cases (content : Bytes) (name : Str) :
    ((getlines content).find? (fun line => Contains name line) = none ∧
        (getlines content).findSome? (lineValue name) = none) ∨
      ∃ line v, (getlines content).find? (fun line => Contains name line) = some line ∧
        lineValue name line = some v ∧ (getlines content).findSome? (lineValue name) = some v := by
  rw [findSome_eq_bind]
  cases h : (getlines content).find? (fun line => Contains name line) with
  | none => exact .inl ⟨rfl, rfl⟩
  | some line =>
    have hyes : Contains name line := by simpa using List.find?_some h
    obtain ⟨v, hv⟩ := Option.isSome_iff_exists.mp ((lineValue_isSome_iff name line).mpr hyes)
    exact .inr ⟨line, v, rfl, hv, hv⟩

theorem exact_strcpy_iff (content : Bytes) (name v : Str) (cache : Cache) (value : Bytes) :
    Exact content name ⟨cache, strcpy value v, strlen v⟩ ↔
      v.1 = (property content name).getD [] :=
  prefix_strcpy_iff _ value v

theorem exact_readFile_iff (content : Bytes) (name : Str) (value : Bytes) :
    Exact content name (readFile content name value) ↔ Readable content name value := by
  rw [Readable, readFile]
  obtain ⟨hl, hf⟩ | ⟨line, v, hl, hv, hf⟩ := findSome_cases content name
  · simp only [hl, hf, Exact, property_eq_none hl]
    cases value with
    | nil => simp
    | cons b bs => simp [eq_comm]
  · simp only [hl, hf, exact_strcpy_iff]
    by_cases hkey : IsKeyLine name line
    · obtain ⟨v', hv', hiff⟩ := lineValue_keyLine hkey
      obtain rfl : v = v' := Option.some.inj (hv.symm.trans hv')
      simp only [if_pos hkey, property_keyLine hl hkey, Option.getD_some, hiff]
    · simp only [if_neg hkey]
      constructor
      · intro he
        exact he ▸ lineValue_eq_some_iff.mp hv
      · intro hf
        exact follows_unique (lineValue_eq_some_iff.mp hv) hf

/-- With the cache as it is before the first call, a lookup of a nonempty name
is exact precisely on these inputs. -/
theorem systemPropertyGet_exact_iff (content : Bytes) (name : Str) (value : Bytes)
    (hname : name.1 ≠ []) :
    Exact content name (systemPropertyGet content Cache.initial name value) ↔
      Readable content name value := by
  have hmiss : name ≠ Cache.initial.lastProperty := fun h => hname (congrArg Subtype.val h)
  rw [systemPropertyGet, if_neg hmiss, exact_readFile_iff]

/-- `b` is set to 1 in a file with the one line `b=1`. -/
theorem systemPropertyGet_exact_iff_b :
    Exact [98, 61, 49, 10] ⟨[98], by decide⟩
        (systemPropertyGet [98, 61, 49, 10] Cache.initial ⟨[98], by decide⟩ [7, 7]) ↔
      Readable [98, 61, 49, 10] ⟨[98], by decide⟩ [7, 7] :=
  systemPropertyGet_exact_iff _ _ _ (by decide)

/-- In a file with the lines `ab=1` and `b=2`, the value of `b` is read from
the first line. -/
theorem systemPropertyGet_reads_ab :
    ¬ Exact [97, 98, 61, 49, 10, 98, 61, 50, 10] ⟨[98], by decide⟩
      (systemPropertyGet [97, 98, 61, 49, 10, 98, 61, 50, 10] Cache.initial ⟨[98], by decide⟩
        [7, 7]) := by
  intro h
  exact absurd h.1 (by decide)

end FakeLibc.PropertyGet

import FakeLibc.Lib.Loop
import FakeLibc.PropertyGet

namespace FakeLibc.PropertyStreams

open FakeLibc.Lib.CString FakeLibc.Lib.Loop
open FakeLibc.PropertyGet (Bytes Str Contains Cache lineValue getlines)

/-- What comes after the last line. An error stays, and is no end of the file. -/
inductive Ending
  | eof
  | error
deriving DecidableEq

structure Stream where
  lines : List Bytes
  ending : Ending
  ne_nil : ∀ line ∈ lines, line ≠ []

inductive Line
  | null
  | live
  | dangling
deriving DecidableEq

/-- `stale` is a use or a second `free` of a buffer that was freed. -/
inductive Event
  | fopen (opened : Bool)
  | malloc
  | free
  | stale
  | fclose
deriving DecidableEq

structure Memory where
  lastProperty : Bytes
  lastValue : Bytes
  value : Bytes
deriving DecidableEq

/-- Within the two loops: the pointer, the lines that are still to come, the flag
that `feof` reads, and what was done. -/
structure Reader where
  line : Line
  rest : List Bytes
  feof : Bool
  log : List Event

def Reader.record (s : Reader) (e : Event) : Reader := { s with log := s.log ++ [e] }

def Reader.useLine (s : Reader) : Reader :=
  match s.line with
  | .null => { s.record .malloc with line := .live }
  | .live => s
  | .dangling => s.record .stale

def Reader.freeLine (s : Reader) : Reader :=
  match s.line with
  | .null => s
  | .live => { s.record .free with line := .dangling }
  | .dangling => s.record .stale

def Reader.getline (s : Reader) (rest : List Bytes) : Reader := { s.useLine with rest := rest }

def Reader.endOfLines (s : Reader) (ending : Ending) : Reader :=
  { s.useLine with rest := [], feof := ending = .eof }

/-- The inner loop over the lines that are to come. It leaves with the text
behind the name in the first line that contains it. -/
def readLines (ending : Ending) (name : Str) : List Bytes → Reader → Reader × Option Str
  | [], s => (s.endOfLines ending, none)
  | line :: lines, s =>
    match lineValue name line with
    | some v => (s.getline lines, some v)
    | none => readLines ending name lines (s.getline lines)

def pass (ending : Ending) (name : Str) (s : Reader) : Reader ⊕ (Reader × Option Str) :=
  if s.feof then .inr (s, none)
  else
    match readLines ending name s.rest s with
    | (s, some v) => .inr (s, some v)
    | (s, none) => .inl s.freeLine

structure Result where
  memory : Memory
  ret : Nat
  log : List Event
deriving DecidableEq

def found (m : Memory) (name v : Str) : Memory :=
  let value := strcpy m.value v
  ⟨strcpy m.lastProperty name, strcpy m.lastValue (cstr 0 value), value⟩

def notFound (m : Memory) (name : Str) : Memory :=
  ⟨strcpy m.lastProperty name, strcpy m.lastValue (empty : Str), m.value⟩

/-- What follows the search. The file is closed before the line is freed. -/
def leave (m : Memory) (name : Str) : Reader × Option Str → Result
  | (s, some v) =>
    let m := found m name v
    ⟨m, strlen (cstr 0 m.value), (s.record .fclose).freeLine.log⟩
  | (s, none) => ⟨notFound m name, 0, (s.record .fclose).log⟩

/-- `file` is what `fopen` answers. Without a stream there is no loop. -/
def systemPropertyGet (fuel : Nat) (file : Option Stream) (m : Memory) (name : Str) :
    Option Result :=
  if name.1 = (cstr 0 m.lastProperty).1 then
    let value := strcpy m.value (cstr 0 m.lastValue)
    some ⟨{ m with value := value }, strlen (cstr 0 value), []⟩
  else
    match file with
    | none => some (leave m name (⟨.null, [], false, [.fopen false]⟩, none))
    | some stream =>
      (loop (pass stream.ending name) fuel
        ⟨.null, stream.lines, false, [.fopen true]⟩).map (leave m name)

/-- How a call should end: the one buffer that was allocated is freed and not
used afterwards, a file that was opened is closed, and a name that no line
contains is not found. -/
structure Clean (file : Option Stream) (name : Str) (r : Result) : Prop where
  freed : r.log.count .free = r.log.count .malloc
  once : r.log.count .malloc ≤ 1
  fresh : .stale ∉ r.log
  closed : r.log.count .fclose = r.log.count (.fopen true)
  ret : (∃ opened, .fopen opened ∈ r.log) →
    (∀ stream ∈ file, ∀ line ∈ stream.lines, ¬ Contains name line) → r.ret = 0

def EndsCleanly (file : Option Stream) (m : Memory) (name : Str) : Prop :=
  ∃ fuel r, systemPropertyGet fuel file m name = some r ∧ Clean file name r

/-- The file can be opened, and it is read to its end or a line matches. -/
def Readable (file : Option Stream) (name : Str) : Prop :=
  ∃ stream ∈ file, stream.ending = .eof ∨ ∃ line ∈ stream.lines, Contains name line

section Reading

variable {ending : Ending} {name v : Str} {lines : List Bytes} {s : Reader}

theorem useLine_getline (h : s.line ≠ .dangling) (rest : List Bytes) :
    (s.getline rest).useLine = s.getline rest := by
  cases hl : s.line with
  | null => simp [Reader.getline, Reader.useLine, hl]
  | live => simp [Reader.getline, Reader.useLine, hl]
  | dangling => exact absurd hl h

theorem getline_not_dangling (h : s.line ≠ .dangling) (rest : List Bytes) :
    (s.getline rest).line ≠ .dangling := by
  cases hl : s.line with
  | null => simp [Reader.getline, Reader.useLine, hl]
  | live => simp [Reader.getline, Reader.useLine, hl]
  | dangling => exact absurd hl h

theorem readLines_none (hs : s.line ≠ .dangling) (h : lines.findSome? (lineValue name) = none) :
    readLines ending name lines s = (s.endOfLines ending, none) := by
  induction lines generalizing s with
  | nil => rfl
  | cons line lines ih =>
    rw [List.findSome?_cons] at h
    cases hv : lineValue name line with
    | some v => simp [hv] at h
    | none =>
      rw [hv] at h
      simp only [readLines, hv]
      rw [ih (getline_not_dangling hs lines) h, Reader.endOfLines, useLine_getline hs]
      rfl

theorem readLines_some (ending : Ending) (hs : s.line ≠ .dangling)
    (h : lines.findSome? (lineValue name) = some v) :
    ∃ rest, readLines ending name lines s = (s.getline rest, some v) := by
  induction lines generalizing s with
  | nil => cases h
  | cons line lines ih =>
    rw [List.findSome?_cons] at h
    cases hv : lineValue name line with
    | some w =>
      obtain rfl : w = v := by simpa [hv] using h
      exact ⟨lines, by rw [readLines, hv]⟩
    | none =>
      rw [hv] at h
      obtain ⟨rest, hrest⟩ := ih (getline_not_dangling hs lines) h
      refine ⟨rest, ?_⟩
      simp only [readLines, hv]
      rw [hrest, Reader.getline, useLine_getline hs]
      rfl

theorem pass_feof (h : s.feof = true) : pass ending name s = .inr (s, none) := if_pos h

theorem pass_none (hs : s.line ≠ .dangling) (hf : s.feof = false)
    (h : s.rest.findSome? (lineValue name) = none) :
    pass ending name s = .inl (s.endOfLines ending).freeLine := by
  rw [pass, if_neg (by simp [hf]), readLines_none hs h]

theorem pass_some (ending : Ending) (hs : s.line ≠ .dangling) (hf : s.feof = false)
    (h : s.rest.findSome? (lineValue name) = some v) :
    ∃ rest, pass ending name s = .inr (s.getline rest, some v) := by
  obtain ⟨rest, hrest⟩ := readLines_some ending hs h
  exact ⟨rest, by rw [pass, if_neg (by simp [hf]), hrest]⟩

/-- After an error that stays, no pass of the outer loop is the last one. -/
theorem pass_error (h : s.feof = false ∧ s.rest = []) :
    ∃ t, pass .error name s = .inl t ∧ t.feof = false ∧ t.rest = [] := by
  refine ⟨_, by rw [pass, if_neg (by simp [h.1]), h.2, readLines], ?_⟩
  unfold Reader.freeLine
  split <;> exact ⟨rfl, rfl⟩

end Reading

theorem findSome_eq_none_iff (lines : List Bytes) (name : Str) :
    lines.findSome? (lineValue name) = none ↔ ∀ line ∈ lines, ¬ Contains name line := by
  rw [List.findSome?_eq_none_iff]
  refine forall₂_congr fun line _ => ?_
  rw [← PropertyGet.lineValue_isSome_iff, Option.not_isSome_iff_eq_none]

section Call

variable {stream : Stream} {m : Memory} {name v : Str}

def opened (stream : Stream) : Reader := ⟨.null, stream.lines, false, [.fopen true]⟩

theorem get_cached (fuel : Nat) (file : Option Stream)
    (hhit : name.1 = (cstr 0 m.lastProperty).1) :
    systemPropertyGet fuel file m name =
      some ⟨{ m with value := strcpy m.value (cstr 0 m.lastValue) },
        strlen (cstr 0 (strcpy m.value (cstr 0 m.lastValue))), []⟩ := if_pos hhit

theorem get_unopened (fuel : Nat) (hmiss : name.1 ≠ (cstr 0 m.lastProperty).1) :
    systemPropertyGet fuel none m name = some ⟨notFound m name, 0, [.fopen false, .fclose]⟩ :=
  if_neg hmiss

theorem get_opened (fuel : Nat) (hmiss : name.1 ≠ (cstr 0 m.lastProperty).1) :
    systemPropertyGet fuel (some stream) m name =
      (loop (pass stream.ending name) fuel (opened stream)).map (leave m name) := if_neg hmiss

theorem get_match (fuel : Nat) (hmiss : name.1 ≠ (cstr 0 m.lastProperty).1)
    (h : stream.lines.findSome? (lineValue name) = some v) :
    systemPropertyGet (fuel + 1) (some stream) m name =
      some ⟨found m name v, strlen v, [.fopen true, .malloc, .fclose, .free]⟩ := by
  have hnull : (opened stream).line ≠ .dangling := nofun
  obtain ⟨rest, hrest⟩ := pass_some stream.ending hnull rfl h
  have hret : cstr 0 (found m name v).value = v := cstr_strcpy m.value v
  rw [get_opened _ hmiss, loop_inr hrest, Option.map_some, leave, hret]
  rfl

theorem get_eof (fuel : Nat) (hmiss : name.1 ≠ (cstr 0 m.lastProperty).1)
    (h : stream.lines.findSome? (lineValue name) = none) (hend : stream.ending = .eof) :
    systemPropertyGet (fuel + 2) (some stream) m name =
      some ⟨notFound m name, 0, [.fopen true, .malloc, .free, .fclose]⟩ := by
  have hnull : (opened stream).line ≠ .dangling := nofun
  have hpass : ((opened stream).endOfLines .eof).freeLine.feof = true := rfl
  rw [get_opened _ hmiss, hend, loop_inl (pass_none hnull rfl h), loop_inr (pass_feof hpass)]
  rfl

theorem get_error (fuel : Nat) (hmiss : name.1 ≠ (cstr 0 m.lastProperty).1)
    (h : stream.lines.findSome? (lineValue name) = none) (hend : stream.ending = .error) :
    systemPropertyGet fuel (some stream) m name = none := by
  have hnull : (opened stream).line ≠ .dangling := nofun
  have hloop : loop (pass .error name) fuel (opened stream) = none := by
    cases fuel with
    | zero => rfl
    | succ fuel =>
      rw [loop_inl (pass_none hnull rfl h)]
      exact loop_eq_none _ (fun _ => pass_error) ⟨rfl, rfl⟩ fuel
  rw [get_opened _ hmiss, hend, hloop, Option.map_none]

end Call

section Clean

variable {file : Option Stream} {m : Memory} {name : Str}

theorem endsCleanly_of_cached (hhit : name.1 = (cstr 0 m.lastProperty).1) :
    EndsCleanly file m name := by
  refine ⟨0, _, get_cached 0 file hhit, rfl, Nat.zero_le 1, List.not_mem_nil, rfl, ?_⟩
  rintro ⟨_, h⟩
  exact absurd h List.not_mem_nil

theorem endsCleanly_of_readable (hmiss : name.1 ≠ (cstr 0 m.lastProperty).1)
    (h : Readable file name) : EndsCleanly file m name := by
  obtain ⟨stream, rfl, hread⟩ := h
  cases hfound : stream.lines.findSome? (lineValue name) with
  | some v =>
    refine ⟨1, _, get_match 0 hmiss hfound, rfl, Nat.le_refl 1, by simp, rfl, fun _ hno => ?_⟩
    have hnone := (findSome_eq_none_iff stream.lines name).mpr (hno stream rfl)
    rw [hfound] at hnone
    cases hnone
  | none =>
    have hno := (findSome_eq_none_iff stream.lines name).mp hfound
    obtain hend | ⟨line, hline, hyes⟩ := hread
    · exact ⟨2, _, get_eof 0 hmiss hfound hend, rfl, Nat.le_refl 1, by simp, rfl, fun _ _ => rfl⟩
    · exact absurd hyes (hno line hline)

theorem not_endsCleanly_of_not_readable (hmiss : name.1 ≠ (cstr 0 m.lastProperty).1)
    (h : ¬ Readable file name) : ¬ EndsCleanly file m name := by
  rintro ⟨fuel, r, hr, hclean⟩
  cases file with
  | none =>
    rw [get_unopened fuel hmiss] at hr
    obtain rfl := Option.some.inj hr
    have hclosed : 1 = 0 := hclean.closed
    cases hclosed
  | some stream =>
    have hno : ∀ line ∈ stream.lines, ¬ Contains name line :=
      fun line hline hyes => h ⟨stream, rfl, .inr ⟨line, hline, hyes⟩⟩
    have hend : stream.ending = .error := by
      cases he : stream.ending with
      | eof => exact absurd ⟨stream, rfl, .inl he⟩ h
      | error => rfl
    rw [get_error fuel hmiss ((findSome_eq_none_iff _ _).mpr hno) hend] at hr
    cases hr

end Clean

/-- A call ends cleanly precisely when the name is the cached one, or the file
can be opened and either is read to its end or has a match. -/
theorem endsCleanly_iff_readable (file : Option Stream) (m : Memory) (name : Str) :
    EndsCleanly file m name ↔ name.1 = (cstr 0 m.lastProperty).1 ∨ Readable file name := by
  by_cases hhit : name.1 = (cstr 0 m.lastProperty).1
  · exact iff_of_true (endsCleanly_of_cached hhit) (.inl hhit)
  · rw [or_iff_right hhit]
    constructor
    · intro h
      by_contra hno
      exact not_endsCleanly_of_not_readable hhit hno h
    · intro h
      exact endsCleanly_of_readable hhit h

def Stream.ofContent (content : Bytes) : Stream where
  lines := getlines content
  ending := .eof
  ne_nil := fun _ h => PropertyGet.getlines_ne_nil h

def Memory.cache (m : Memory) : Cache := ⟨cstr 0 m.lastProperty, cstr 0 m.lastValue⟩

/-- With such a file the call does what it does with the content. -/
theorem systemPropertyGet_ofContent (content : Bytes) (m : Memory) (name : Str) :
    ∃ r, systemPropertyGet 2 (some (.ofContent content)) m name = some r ∧
      PropertyGet.systemPropertyGet content m.cache name m.value =
        ⟨r.memory.cache, r.memory.value, r.ret⟩ := by
  by_cases hhit : name.1 = (cstr 0 m.lastProperty).1
  · refine ⟨_, get_cached 2 _ hhit, ?_⟩
    exact if_pos (Subtype.ext hhit)
  · have hmiss : name ≠ m.cache.lastProperty := fun h => hhit (congrArg Subtype.val h)
    rw [PropertyGet.systemPropertyGet, if_neg hmiss, PropertyGet.readFile]
    cases hfound : (getlines content).findSome? (lineValue name) with
    | some v =>
      refine ⟨_, get_match 1 hhit hfound, ?_⟩
      simp [found, Memory.cache, cstr_strcpy]
    | none =>
      refine ⟨_, get_eof 0 hhit hfound rfl, ?_⟩
      simp [notFound, Memory.cache, cstr_strcpy]

/-- A file that is not there is closed, and one that cannot be read is read for
ever. -/
theorem not_endsCleanly_missing_unreadable :
    ¬ EndsCleanly none ⟨[0], [0], [7]⟩ ⟨[98], by decide⟩ ∧
      ¬ EndsCleanly (some ⟨[], .error, by decide⟩) ⟨[0], [0], [7]⟩ ⟨[98], by decide⟩ := by
  constructor
  · exact not_endsCleanly_of_not_readable (by decide) (fun ⟨_, h, _⟩ => by cases h)
  · refine not_endsCleanly_of_not_readable (by decide) ?_
    rintro ⟨stream, h, hread⟩
    obtain rfl := Option.some.inj h
    obtain hend | ⟨line, hline, _⟩ := hread
    · cases hend
    · cases hline

end FakeLibc.PropertyStreams

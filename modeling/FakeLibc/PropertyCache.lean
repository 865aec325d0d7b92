import FakeLibc.Lib.Run
import FakeLibc.PropertyGet

namespace FakeLibc.PropertyCache

open FakeLibc.Lib.CString FakeLibc.Lib.Run FakeLibc.PropertyGet

structure Call where
  name : Str
  value : Bytes
deriving DecidableEq

def step (content : Bytes) (cache : Cache) (call : Call) : Option Cache :=
  some (systemPropertyGet content cache call.name call.value).cache

def found (content : Bytes) (name : Str) : Option Str :=
  (getlines content).findSome? (lineValue name)

/-- The call returns and writes what it would without the cache. -/
def Transparent (content : Bytes) (cache : Cache) (call : Call) : Prop :=
  (systemPropertyGet content cache call.name call.value).ret =
      (readFile content call.name call.value).ret ∧
    (systemPropertyGet content cache call.name call.value).value =
      (readFile content call.name call.value).value

/-- A call that repeats the cached name finds an empty string in the buffer if
no line contains the name, and an empty name before any other call finds no
text in the first line. -/
def Unnoticed (content : Bytes) (cache : Cache) (call : Call) : Prop :=
  call.name = cache.lastProperty →
    match (getlines content).find? (fun line => Contains call.name line) with
    | none => call.value.head? = some 0
    | some line => cache = Cache.initial → Follows call.name line []

def Inv (content : Bytes) (cache : Cache) : Prop :=
  cache = Cache.initial ∨ cache.lastValue = (found content cache.lastProperty).getD empty

theorem readFile_eq (content : Bytes) (name : Str) (value : Bytes) :
    readFile content name value =
      match found content name with
      | some v => ⟨⟨name, v⟩, strcpy value v, strlen v⟩
      | none => ⟨⟨name, empty⟩, value, 0⟩ := rfl

theorem systemPropertyGet_hit {content : Bytes} {cache : Cache} {call : Call}
    (h : call.name = cache.lastProperty) :
    systemPropertyGet content cache call.name call.value =
      ⟨cache, strcpy call.value cache.lastValue, strlen cache.lastValue⟩ := by
  rw [systemPropertyGet, if_pos h, cstr_strcpy]

theorem inv_readFile (content : Bytes) (name : Str) (value : Bytes) :
    Inv content (readFile content name value).cache := by
  rw [Inv, readFile_eq]
  cases h : found content name <;> exact .inr (by simp [h])

theorem inv_step {content : Bytes} {cache cache' : Cache} {call : Call}
    (hc : Inv content cache) (h : step content cache call = some cache') : Inv content cache' := by
  obtain rfl := Option.some.inj h
  by_cases hn : call.name = cache.lastProperty
  · rwa [systemPropertyGet_hit hn]
  · rw [systemPropertyGet, if_neg hn]
    exact inv_readFile content call.name call.value

theorem strcpy_empty_eq_iff (value : Bytes) :
    strcpy value (empty : Str) = value ↔ value.head? = some 0 := by
  cases value with
  | nil => simp [strcpy, empty]
  | cons b bs => simp [strcpy, empty, strlen, eq_comm]

theorem strcpy_injective {value : Bytes} {v w : Str} (h : strcpy value v = strcpy value w)
    (hlen : strlen v = strlen w) : v = w := Subtype.ext (List.append_inj_left h hlen)

theorem transparent_hit_iff {content : Bytes} {cache : Cache} {call : Call}
    (hc : Inv content cache) (hn : call.name = cache.lastProperty) :
    Transparent content cache call ↔ Unnoticed content cache call := by
  rw [Transparent, Unnoticed, systemPropertyGet_hit hn, readFile_eq]
  simp only [hn, forall_const]
  obtain ⟨hl, hf⟩ | ⟨line, v, hl, hv, hf⟩ := findSome_cases content cache.lastProperty
  · have he : cache.lastValue = empty := by
      obtain rfl | h := hc
      · rfl
      · rw [h, found, hf, Option.getD_none]
    simp only [found, hl, hf, he, strcpy_empty_eq_iff]
    exact and_iff_right rfl
  · have hv := lineValue_eq_some_iff.mp hv
    simp only [found, hl, hf]
    obtain rfl | h := hc
    · simp only [forall_const]
      constructor
      · intro ht
        obtain rfl : v = empty := (strcpy_injective ht.2 ht.1).symm
        exact hv
      · intro hempty
        obtain rfl : v = empty := Subtype.ext (follows_unique hv hempty)
        exact ⟨rfl, rfl⟩
    · rw [found, hf, Option.getD_some] at h
      simp only [h, and_self, true_iff]
      rintro rfl
      obtain rfl : v = empty := h.symm
      exact hv

theorem transparent_iff {content : Bytes} {cache : Cache} {call : Call}
    (hc : Inv content cache) :
    Transparent content cache call ↔ Unnoticed content cache call := by
  by_cases hn : call.name = cache.lastProperty
  · exact transparent_hit_iff hc hn
  · refine iff_of_true ?_ (fun h => absurd h hn)
    rw [Transparent, systemPropertyGet, if_neg hn]
    exact ⟨rfl, rfl⟩

/-- The cache is transparent throughout a history of calls precisely when
every hit goes unnoticed. -/
theorem guarded_transparent_iff (content : Bytes) (calls : List Call) :
    Guarded (step content) (Transparent content) Cache.initial calls ↔
      Guarded (step content) (Unnoticed content) Cache.initial calls :=
  guarded_congr (always_of_step (fun _ _ _ => inv_step) (.inl rfl) calls)
    (fun _ _ => transparent_iff)

/-- The second lookup of an absent name clears a buffer that the first one
leaves alone. -/
theorem not_transparent_absent_twice :
    ¬ Guarded (step []) (Transparent []) Cache.initial
      [⟨⟨[98], by decide⟩, [7]⟩, ⟨⟨[98], by decide⟩, [7]⟩] := by
  intro h
  have hsecond := h [⟨⟨[98], by decide⟩, [7]⟩] ⟨⟨[98], by decide⟩, [7]⟩
    ⟨⟨[98], by decide⟩, empty⟩ List.prefix_rfl rfl
  exact absurd hsecond.2 (by decide)

end FakeLibc.PropertyCache

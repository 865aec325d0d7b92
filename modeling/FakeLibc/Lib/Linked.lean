import Mathlib.Data.List.Nodup
import Mathlib.Logic.Function.Basic

namespace FakeLibc.Lib.Linked

variable {A N : Type*} [DecidableEq A] {link : N → A} {null : A} {f : N → N}

inductive Fault
  | wildPointer
  | outOfFuel
deriving DecidableEq

abbrev Heap (A N : Type*) := A → Option N

/-- The nodes `l` are linked from `p` on, and the last link is null. -/
inductive Chain (link : N → A) (null : A) (h : Heap A N) : A → List A → Prop
  | nil : Chain link null h null []
  | cons {p : A} {n : N} {l : List A} (hp : p ≠ null) (hn : h p = some n)
      (hl : Chain link null h (link n) l) : Chain link null h p (p :: l)

def load (h : Heap A N) (p : A) : Except Fault N :=
  match h p with
  | some n => .ok n
  | none => .error .wildPointer

/-- `while (p != NULL) { *p = f(*p); p = p->link; }` -/
def forEach (link : N → A) (null : A) (f : N → N) : Nat → Heap A N → A → Except Fault (Heap A N)
  | 0, h, p => if p = null then .ok h else .error .outOfFuel
  | fuel + 1, h, p =>
    if p = null then .ok h
    else match h p with
      | none => .error .wildPointer
      | some n => forEach link null f fuel (Function.update h p (some (f n))) (link (f n))

def visits (link : N → A) (null : A) (f : N → N) : Nat → Heap A N → A → List A
  | 0, _, _ => []
  | fuel + 1, h, p =>
    if p = null then []
    else p :: match h p with
      | none => []
      | some n => visits link null f fuel (Function.update h p (some (f n))) (link (f n))

inductive Reaches (link : N → A) (null : A) (h : Heap A N) : A → A → Prop
  | self {p : A} (hp : p ≠ null) : Reaches link null h p p
  | next {p a : A} {n : N} (hp : p ≠ null) (hn : h p = some n)
      (ha : Reaches link null h (link n) a) : Reaches link null h p a

def mapOn (f : N → N) (l : List A) (h : Heap A N) : Heap A N :=
  fun a => if a ∈ l then (h a).map f else h a

omit [DecidableEq A] in
theorem Chain.unique {h : Heap A N} {p : A} {l l' : List A}
    (hl : Chain link null h p l) (hl' : Chain link null h p l') : l = l' := by
  induction hl generalizing l' with
  | nil =>
    cases hl' with
    | nil => rfl
    | cons hp _ _ => exact absurd rfl hp
  | cons hp hn _ ih =>
    cases hl' with
    | nil => exact absurd rfl hp
    | cons _ hn' hl' =>
      obtain rfl := Option.some.inj (hn.symm.trans hn')
      rw [ih hl']

omit [DecidableEq A] in
theorem Chain.suffix {h : Heap A N} {p a : A} {l : List A}
    (hl : Chain link null h p l) (ha : a ∈ l) :
    ∃ l', Chain link null h a l' ∧ l'.length ≤ l.length := by
  induction hl with
  | nil => simp at ha
  | @cons p n l hp hn hl ih =>
    obtain rfl | ha := List.mem_cons.mp ha
    · exact ⟨a :: l, .cons hp hn hl, Nat.le_refl _⟩
    · obtain ⟨l', hl', hlen⟩ := ih ha
      exact ⟨l', hl', by simp only [List.length_cons]; omega⟩

omit [DecidableEq A] in
/-- A chain that ends cannot come back to a node, so it is acyclic. -/
theorem Chain.nodup {h : Heap A N} {p : A} {l : List A} (hl : Chain link null h p l) :
    l.Nodup := by
  induction hl with
  | nil => exact List.nodup_nil
  | @cons p n l hp hn hl ih =>
    refine List.nodup_cons.mpr ⟨fun hm => ?_, ih⟩
    obtain ⟨l', hl', hlen⟩ := hl.suffix hm
    have he := (Chain.cons hp hn hl).unique hl'
    rw [← he, List.length_cons] at hlen
    omega

omit [DecidableEq A] in
theorem Chain.null_notMem {h : Heap A N} {p : A} {l : List A}
    (hl : Chain link null h p l) : null ∉ l := by
  induction hl with
  | nil => exact List.not_mem_nil
  | cons hp _ _ ih => exact fun hm => (List.mem_cons.mp hm).elim (fun he => hp he.symm) ih

omit [DecidableEq A] in
theorem Chain.eq_some {h : Heap A N} {p a : A} {l : List A}
    (hl : Chain link null h p l) (ha : a ∈ l) : ∃ n, h a = some n := by
  obtain ⟨l', hl', _⟩ := hl.suffix ha
  cases hl' with
  | nil => exact absurd ha (hl.null_notMem)
  | cons _ hn _ => exact ⟨_, hn⟩

theorem Chain.update {h : Heap A N} {p a : A} {l : List A} (hl : Chain link null h p l)
    (ha : a ∉ l) (n : Option N) : Chain link null (Function.update h a n) p l := by
  induction hl with
  | nil => exact .nil
  | @cons p m l hp hm hl ih =>
    obtain ⟨hne, ha⟩ := not_or.mp (mt List.mem_cons.mpr ha)
    refine .cons hp ?_ (ih ha)
    rw [Function.update_of_ne (Ne.symm hne), hm]

theorem mapOn_update {h : Heap A N} {p : A} {n : N} {l : List A} (hn : h p = some n)
    (hp : p ∉ l) : mapOn f l (Function.update h p (some (f n))) = mapOn f (p :: l) h := by
  funext a
  by_cases ha : a = p
  · subst a
    simp [mapOn, hp, hn]
  · simp [mapOn, ha]

theorem forEach_chain (hf : ∀ n, link (f n) = link n) {h : Heap A N} {p : A} {l : List A}
    (hl : Chain link null h p l) {fuel : Nat} (hfuel : l.length ≤ fuel) :
    forEach link null f fuel h p = .ok (mapOn f l h) := by
  induction l generalizing h p fuel with
  | nil =>
    cases hl with
    | nil =>
      have he : mapOn f [] h = h := funext fun a => by simp [mapOn]
      cases fuel <;> rw [forEach, if_pos rfl, he]
  | cons a l ih =>
    have hnd := (List.nodup_cons.mp hl.nodup).1
    cases hl with
    | @cons _ n _ hp hn hl =>
      cases fuel with
      | zero => simp at hfuel
      | succ fuel =>
        have hl' := hl.update hnd (some (f n))
        rw [← hf n] at hl'
        have h' := ih hl' (Nat.le_of_succ_le_succ hfuel)
        rw [mapOn_update hn hnd] at h'
        rw [forEach, if_neg hp]
        simpa only [hn] using h'

theorem Chain.mapOn (hf : ∀ n, link (f n) = link n) {h : Heap A N} {p : A} {l : List A}
    (hl : Chain link null h p l) (l' : List A) : Chain link null (mapOn f l' h) p l := by
  induction hl with
  | nil => exact .nil
  | @cons p n l hp hn _ ih =>
    by_cases hmem : p ∈ l'
    · have hfn : Linked.mapOn f l' h p = some (f n) := by simp [Linked.mapOn, hmem, hn]
      exact .cons hp hfn (by rw [hf]; exact ih)
    · have hsame : Linked.mapOn f l' h p = some n := by simp [Linked.mapOn, hmem, hn]
      exact .cons hp hsame ih

/-- A loop that stops has run over a chain. -/
theorem chain_of_forEach (hf : ∀ n, link (f n) = link n) {h h' : Heap A N} {p : A} {fuel : Nat}
    (hloop : forEach link null f fuel h p = .ok h') :
    ∃ l, Chain link null h p l ∧ h' = mapOn f l h := by
  have hnull : ∀ h : Heap A N, ∃ l, Chain link null h null l ∧ h = mapOn f l h :=
    fun h => ⟨[], .nil, funext fun a => by simp [mapOn]⟩
  induction fuel generalizing h p with
  | zero =>
    rw [forEach] at hloop
    split at hloop
    · next hp =>
      obtain rfl := Except.ok.inj hloop
      exact hp ▸ hnull h
    · cases hloop
  | succ fuel ih =>
    rw [forEach] at hloop
    split at hloop
    · next hp =>
      obtain rfl := Except.ok.inj hloop
      exact hp ▸ hnull h
    · next hp =>
      cases hn : h p with
      | none => simp [hn] at hloop
      | some n =>
        rw [hn] at hloop
        obtain ⟨l, hl, rfl⟩ := ih hloop
        have hmem : p ∉ l :=
          (List.nodup_cons.mp (Chain.cons hp (Function.update_self ..) hl).nodup).1
        have hback := hl.update hmem (h p)
        rw [Function.update_idem, Function.update_eq_self, hf] at hback
        exact ⟨p :: l, .cons hp hn hback, mapOn_update hn hmem⟩

theorem visits_eq_nil_iff (link : N → A) (null : A) (f : N → N) (h : Heap A N) (p : A) :
    (∀ fuel, visits link null f fuel h p = []) ↔ p = null := by
  constructor
  · intro hnil
    by_contra hp
    have hone := hnil 1
    rw [visits, if_neg hp] at hone
    cases hone
  · rintro rfl fuel
    cases fuel with
    | zero => rfl
    | succ fuel => rw [visits, if_pos rfl]

omit [DecidableEq A] in
theorem not_reaches_null (h : Heap A N) (a : A) : ¬ Reaches link null h null a := by
  rintro (⟨hp⟩ | ⟨hp, _, _⟩) <;> exact hp rfl

end FakeLibc.Lib.Linked

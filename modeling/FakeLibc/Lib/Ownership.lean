import Mathlib.Logic.Function.Basic

namespace FakeLibc.Lib.Ownership

variable {T W A : Type*}

structure Holder (T : Type*) where
  thread : T
  count : Nat
deriving DecidableEq

/-- Locks live at addresses `A` and are known to threads under names `W`.
`inside` counts how often a thread is in the section of a name. -/
structure Locks (T W A : Type*) where
  holder : A → Option (Holder T)
  inside : T → W → Nat

def Locks.free (T W A : Type*) : Locks T W A := ⟨fun _ => none, fun _ _ => 0⟩

/-- Threads are inside precisely what they hold, where `Names w a` says that
`w` has been used for the lock at `a`. -/
structure Held (Names : W → A → Prop) (l : Locks T W A) : Prop where
  inside : ∀ t w, 0 < l.inside t w → ∃ a, Names w a ∧ l.holder a = some ⟨t, l.inside t w⟩
  holder : ∀ a h, l.holder a = some h →
    ∃ w, Names w a ∧ l.inside h.thread w = h.count ∧ 0 < h.count

variable {Names : W → A → Prop} {l l' : Locks T W A} {t u : T} {w : W} {a : A}

theorem held_free : Held Names (Locks.free T W A) :=
  ⟨fun _ _ h => absurd h (Nat.lt_irrefl 0), fun _ h hh => absurd hh.symm (Option.some_ne_none h)⟩

theorem Held.mono {Names' : W → A → Prop} (hl : Held Names l)
    (h : ∀ w a, Names w a → Names' w a) : Held Names' l := by
  refine ⟨fun t w hi => ?_, fun a k hk => ?_⟩
  · obtain ⟨a, ha, hold⟩ := hl.inside t w hi
    exact ⟨a, h w a ha, hold⟩
  · obtain ⟨w, hw, hin⟩ := hl.holder a k hk
    exact ⟨w, h w a hw, hin⟩

theorem Held.exclusive (hl : Held Names l) (hfun : ∀ w a a', Names w a → Names w a' → a = a')
    (ht : 0 < l.inside t w) (hu : 0 < l.inside u w) : t = u := by
  obtain ⟨a, ha, hta⟩ := hl.inside t w ht
  obtain ⟨b, hb, hub⟩ := hl.inside u w hu
  rw [hfun w a b ha hb, hub, Option.some.injEq] at hta
  exact (Holder.mk.inj hta).1.symm

variable [DecidableEq T] [DecidableEq W] [DecidableEq A]

def Locks.set (l : Locks T W A) (t : T) (w : W) (a : A) (n : Nat) : Locks T W A :=
  ⟨Function.update l.holder a (if n = 0 then none else some ⟨t, n⟩),
    Function.update l.inside t (Function.update (l.inside t) w n)⟩

def Locks.grant (l : Locks T W A) (t : T) (w : W) (a : A) : Option (Locks T W A) :=
  match l.holder a with
  | none => some (l.set t w a 1)
  | some h => if h.thread = t then some (l.set t w a (h.count + 1)) else none

def Locks.giveBack (l : Locks T W A) (t : T) (w : W) (a : A) : Option (Locks T W A) :=
  match l.holder a with
  | none => none
  | some h => if h.thread = t then some (l.set t w a (h.count - 1)) else none

theorem held_set (hl : Held Names l) (hfun : ∀ w a a', Names w a → Names w a' → a = a')
    (hinj : ∀ w w' a, Names w a → Names w' a → w = w') (hw : Names w a)
    (hmine : ∀ h, l.holder a = some h → h.thread = t) (n : Nat) : Held Names (l.set t w a n) := by
  refine ⟨fun u x hi => ?_, fun b h hb => ?_⟩
  · by_cases hux : u = t ∧ x = w
    · obtain ⟨rfl, rfl⟩ := hux
      simp only [Locks.set, Function.update_self] at hi ⊢
      exact ⟨a, hw, by rw [Function.update_self, if_neg (Nat.ne_of_gt hi)]⟩
    · have hsame : (l.set t w a n).inside u x = l.inside u x := by
        by_cases hu : u = t
        · subst u
          have hx : x ≠ w := fun hx => hux ⟨rfl, hx⟩
          simp [Locks.set, hx]
        · simp [Locks.set, hu]
      rw [hsame] at hi ⊢
      obtain ⟨b, hb, hold⟩ := hl.inside u x hi
      have hba : b ≠ a := by
        rintro rfl
        exact hux ⟨hmine _ hold, hinj x w b hb hw⟩
      exact ⟨b, hb, (Function.update_of_ne hba _ l.holder).trans hold⟩
  · by_cases hba : b = a
    · subst b
      simp only [Locks.set, Function.update_self] at hb
      by_cases hn : n = 0
      · simp [hn] at hb
      · rw [if_neg hn, Option.some.injEq] at hb
        subst h
        refine ⟨w, hw, ?_, Nat.pos_of_ne_zero hn⟩
        simp [Locks.set]
    · simp only [Locks.set, Function.update_of_ne hba] at hb ⊢
      obtain ⟨x, hx, hin, hpos⟩ := hl.holder b h hb
      refine ⟨x, hx, ?_, hpos⟩
      have hne : ¬ (h.thread = t ∧ x = w) := fun he => hba (hfun w b a (he.2 ▸ hx) hw)
      by_cases ht : h.thread = t
      · have hxw : x ≠ w := fun he => hne ⟨ht, he⟩
        rw [ht, Function.update_self, Function.update_of_ne hxw, ← ht, hin]
      · rw [Function.update_of_ne ht, hin]

theorem held_grant (hl : Held Names l) (hfun : ∀ w a a', Names w a → Names w a' → a = a')
    (hinj : ∀ w w' a, Names w a → Names w' a → w = w') (hw : Names w a)
    (h : l.grant t w a = some l') : Held Names l' := by
  unfold Locks.grant at h
  cases hh : l.holder a with
  | none =>
    simp only [hh, Option.some.injEq] at h
    exact h ▸ held_set hl hfun hinj hw (by simp [hh]) 1
  | some k =>
    simp only [hh, Option.ite_none_right_eq_some, Option.some.injEq] at h
    exact h.2 ▸ held_set hl hfun hinj hw (by simp [hh, h.1]) (k.count + 1)

theorem held_giveBack (hl : Held Names l) (hfun : ∀ w a a', Names w a → Names w a' → a = a')
    (hinj : ∀ w w' a, Names w a → Names w' a → w = w') (hw : Names w a)
    (h : l.giveBack t w a = some l') : Held Names l' := by
  unfold Locks.giveBack at h
  cases hh : l.holder a with
  | none => simp [hh] at h
  | some k =>
    simp only [hh, Option.ite_none_right_eq_some, Option.some.injEq] at h
    exact h.2 ▸ held_set hl hfun hinj hw (by simp [hh, h.1]) (k.count - 1)

end FakeLibc.Lib.Ownership

import Mathlib.Data.List.Count

namespace FakeLibc.Lib.Ledger

variable {R : Type*}

/-- What happens to a resource: it is acquired, copied, released, or passed on
for good. -/
inductive Event (R : Type*)
  | own (r : R)
  | copy (r : R)
  | close (r : R)
  | pass (r : R)
  deriving DecidableEq

def Spent (log : List (Event R)) (r : R) : Prop := .close r ∈ log ∨ .pass r ∈ log

def Live (log : List (Event R)) (r : R) : Prop := .own r ∈ log ∧ ¬ Spent log r

/-- Every resource is spent at most once and after it was acquired, and copied
before it is released. Those that are not spent are in some place. -/
structure Linear [DecidableEq R] (Place : R → Prop) (log : List (Event R)) : Prop where
  once : ∀ r, log.count (.close r) + log.count (.pass r) ≤ 1
  owned : ∀ r, Spent log r → .own r ∈ log
  copied : ∀ r, .close r ∈ log → .copy r ∈ log
  placed : ∀ r, Live log r → Place r

def entry (none : R) [DecidableEq R] (event : R → Event R) (r : R) : List (Event R) :=
  if r = none then [] else [event r]

theorem Live.append {log evs : List (Event R)} {r : R} (h : Live log r) (hs : ¬ Spent evs r) :
    Live (log ++ evs) r := by
  refine ⟨List.mem_append_left evs h.1, ?_⟩
  rintro (hc | hp)
  · exact (List.mem_append.mp hc).elim (fun hc => h.2 (.inl hc)) (fun hc => hs (.inl hc))
  · exact (List.mem_append.mp hp).elim (fun hp => h.2 (.inr hp)) (fun hp => hs (.inr hp))

theorem Live.of_append {log evs : List (Event R)} {r : R} (h : Live (log ++ evs) r)
    (ho : .own r ∉ evs) : Live log r := by
  refine ⟨(List.mem_append.mp h.1).resolve_right ho, ?_⟩
  rintro (hc | hp)
  · exact h.2 (.inl (List.mem_append_left evs hc))
  · exact h.2 (.inr (List.mem_append_left evs hp))

variable [DecidableEq R] {Place Place' : R → Prop} {log : List (Event R)} {none r : R}

theorem Linear.mono (h : Linear Place log) (hp : ∀ x, Live log x → Place x → Place' x) :
    Linear Place' log :=
  ⟨h.once, h.owned, h.copied, fun x hx => hp x hx (h.placed x hx)⟩

theorem not_linear_of_live (hr : Live log r) (hp : ¬ Place r) : ¬ Linear Place log :=
  fun h => hp (h.placed r hr)

theorem Linear.not_spent (h : Linear Place log) (hr : .own r ∉ log) : ¬ Spent log r :=
  fun hs => hr (h.owned r hs)

theorem count_eq_zero_of_not_spent (h : ¬ Spent log r) :
    log.count (.close r) = 0 ∧ log.count (.pass r) = 0 :=
  ⟨List.count_eq_zero.mpr (fun hc => h (.inl hc)), List.count_eq_zero.mpr (fun hp => h (.inr hp))⟩

theorem Linear.own (h : Linear Place log) (r : R) :
    Linear (fun x => Place x ∨ x = r) (log ++ [.own r]) := by
  refine ⟨fun x => ?_, fun x hx => ?_, fun x hx => ?_, fun x hx => ?_⟩
  · simpa using h.once x
  · exact List.mem_append_left _ (h.owned x (by simpa [Spent] using hx))
  · exact List.mem_append_left _ (h.copied x (by simpa using hx))
  · by_cases hxr : x = r
    · exact .inr hxr
    · exact .inl (h.placed x (hx.of_append (by simpa using hxr)))

theorem Linear.copy_close (h : Linear Place log) (hr : Live log r) :
    Linear (fun x => Place x ∧ x ≠ r) (log ++ [.copy r, .close r]) := by
  obtain ⟨hclose, hpass⟩ := count_eq_zero_of_not_spent hr.2
  refine ⟨fun x => ?_, fun x hx => ?_, fun x hx => ?_, fun x hx => ⟨?_, ?_⟩⟩
  · by_cases hxr : x = r
    · subst x
      simp [List.count_append, hclose, hpass]
    · simpa [List.count_append, List.count_cons, Ne.symm hxr] using h.once x
  · by_cases hxr : x = r
    · rw [hxr]
      exact List.mem_append_left _ hr.1
    · exact List.mem_append_left _ (h.owned x (by simpa [Spent, hxr] using hx))
  · by_cases hxr : x = r
    · simp [hxr]
    · exact List.mem_append_left _ (h.copied x (by simpa [hxr] using hx))
  · exact h.placed x (hx.of_append (by simp))
  · rintro rfl
    exact hx.2 (.inl (by simp))

theorem Linear.own_pass (h : Linear Place log) (hr : .own r ∉ log) :
    Linear Place (log ++ [.own r, .pass r]) := by
  obtain ⟨hclose, hpass⟩ := count_eq_zero_of_not_spent (h.not_spent hr)
  refine ⟨fun x => ?_, fun x hx => ?_, fun x hx => ?_, fun x hx => ?_⟩
  · by_cases hxr : x = r
    · subst x
      simp [List.count_append, hclose, hpass]
    · simpa [List.count_append, List.count_cons, Ne.symm hxr] using h.once x
  · by_cases hxr : x = r
    · simp [hxr]
    · exact List.mem_append_left _ (h.owned x (by simpa [Spent, hxr] using hx))
  · exact List.mem_append_left _ (h.copied x (by simpa using hx))
  · have hxr : x ≠ r := by
      rintro rfl
      exact hx.2 (.inr (by simp))
    exact h.placed x (hx.of_append (by simpa using hxr))

end FakeLibc.Lib.Ledger

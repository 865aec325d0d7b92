import Mathlib.Data.List.Infix
import Mathlib.Data.Option.Basic

namespace FakeLibc.Lib.Run

variable {σ α : Type*} {step : σ → α → Option σ}

/-- Perform a list of actions. A step that is not enabled, and so the whole
run, is `none`. -/
def exec (step : σ → α → Option σ) : σ → List α → Option σ
  | s, [] => some s
  | s, a :: as => (step s a).bind (fun t => exec step t as)

/-- `P` holds in every state that the run `as` from `s` passes through. -/
def Always (step : σ → α → Option σ) (P : σ → Prop) (s : σ) (as : List α) : Prop :=
  ∀ pre t, pre <+: as → exec step s pre = some t → P t

/-- Every step of the run `as` from `s` meets `C`, a condition on the state
before the step and on its action. -/
def Guarded (step : σ → α → Option σ) (C : σ → α → Prop) (s : σ) (as : List α) : Prop :=
  ∀ pre a t, pre ++ [a] <+: as → exec step s pre = some t → C t a

@[simp] theorem exec_nil (s : σ) : exec step s [] = some s := rfl

@[simp] theorem exec_cons (s : σ) (a : α) (as : List α) :
    exec step s (a :: as) = (step s a).bind (fun t => exec step t as) := rfl

theorem exec_append (s : σ) (as bs : List α) :
    exec step s (as ++ bs) = (exec step s as).bind (fun t => exec step t bs) := by
  induction as generalizing s with
  | nil => rfl
  | cons a as ih => cases h : step s a <;> simp [h, ih]

theorem always_nil (P : σ → Prop) (s : σ) : Always step P s [] ↔ P s := by
  constructor
  · intro h
    exact h [] s List.prefix_rfl rfl
  · intro hs pre t hpre ht
    rw [List.prefix_nil.mp hpre, exec_nil, Option.some.injEq] at ht
    exact ht ▸ hs

theorem always_cons (P : σ → Prop) (s : σ) (a : α) (as : List α) :
    Always step P s (a :: as) ↔ P s ∧ ∀ t, step s a = some t → Always step P t as := by
  constructor
  · intro h
    refine ⟨h [] s List.nil_prefix rfl, fun t ht pre u hpre hu => ?_⟩
    refine h (a :: pre) u (List.cons_prefix_cons.mpr ⟨rfl, hpre⟩) ?_
    rw [exec_cons, ht, Option.bind_some, hu]
  · rintro ⟨hs, ht⟩ pre u hpre hu
    cases pre with
    | nil => exact Option.some.inj hu ▸ hs
    | cons b pre =>
      obtain ⟨rfl, hp⟩ := List.cons_prefix_cons.mp hpre
      obtain ⟨t, hst, hu⟩ := Option.bind_eq_some_iff.mp hu
      exact ht t hst pre u hp hu

theorem guarded_nil (C : σ → α → Prop) (s : σ) : Guarded step C s [] := by
  intro pre a t hpre _
  simp at hpre

theorem guarded_cons (C : σ → α → Prop) (s : σ) (a : α) (as : List α) :
    Guarded step C s (a :: as) ↔ C s a ∧ ∀ t, step s a = some t → Guarded step C t as := by
  constructor
  · intro h
    refine ⟨h [] a s (by simp) rfl, fun t ht pre b u hpre hu => ?_⟩
    refine h (a :: pre) b u (List.cons_prefix_cons.mpr ⟨rfl, hpre⟩) ?_
    rw [exec_cons, ht, Option.bind_some, hu]
  · rintro ⟨hs, ht⟩ pre b u hpre hu
    cases pre with
    | nil =>
      obtain ⟨rfl, _⟩ := List.cons_prefix_cons.mp hpre
      exact Option.some.inj hu ▸ hs
    | cons c pre =>
      obtain ⟨rfl, hp⟩ := List.cons_prefix_cons.mp hpre
      obtain ⟨t, hst, hu⟩ := Option.bind_eq_some_iff.mp hu
      exact ht t hst pre b u hp hu

theorem guarded_step {C : σ → α → Prop} {s t : σ} {a : α} {as : List α} (hc : C s a)
    (ht : step s a = some t) (hg : Guarded step C t as) : Guarded step C s (a :: as) := by
  refine (guarded_cons C s a as).mpr ⟨hc, fun u hu => ?_⟩
  obtain rfl : t = u := Option.some.inj (ht.symm.trans hu)
  exact hg

instance decidableGuarded {C : σ → α → Prop} [∀ s a, Decidable (C s a)] :
    (s : σ) → (as : List α) → Decidable (Guarded step C s as)
  | s, [] => .isTrue (guarded_nil C s)
  | s, a :: as =>
    match h : step s a with
    | none => decidable_of_iff (C s a) (by rw [guarded_cons]; simp [h])
    | some t =>
      have : Decidable (Guarded step C t as) := decidableGuarded t as
      decidable_of_iff (C s a ∧ Guarded step C t as) (by rw [guarded_cons]; simp [h])

/-- The invariant rule for runs whose steps meet a condition. -/
theorem always_of_guarded {Inv : σ → Prop} {C : σ → α → Prop}
    (hstep : ∀ s a t, Inv s → C s a → step s a = some t → Inv t)
    {s : σ} {as : List α} (hs : Inv s) (hg : Guarded step C s as) : Always step Inv s as := by
  induction as generalizing s with
  | nil => exact (always_nil Inv s).mpr hs
  | cons a as ih =>
    obtain ⟨hc, hg⟩ := (guarded_cons C s a as).mp hg
    exact (always_cons Inv s a as).mpr ⟨hs, fun t ht => ih (hstep s a t hs hc ht) (hg t ht)⟩

theorem guarded_of_forall {C : σ → α → Prop} (h : ∀ s a, C s a) (s : σ) (as : List α) :
    Guarded step C s as := fun _ a t _ _ => h t a

/-- The invariant rule: what every step preserves holds throughout a run. -/
theorem always_of_step {Inv : σ → Prop}
    (hstep : ∀ s a t, Inv s → step s a = some t → Inv t)
    {s : σ} (hs : Inv s) (as : List α) : Always step Inv s as :=
  always_of_guarded (C := fun _ _ => True) (fun s a t hi _ h => hstep s a t hi h) hs
    (guarded_of_forall (fun _ _ => trivial) s as)

theorem Always.mono {P Q : σ → Prop} (h : ∀ s, P s → Q s) {s : σ} {as : List α}
    (hp : Always step P s as) : Always step Q s as :=
  fun pre t hpre ht => h t (hp pre t hpre ht)

theorem isSome_exec (h : ∀ s a, (step s a).isSome) (s : σ) (as : List α) :
    (exec step s as).isSome := by
  induction as generalizing s with
  | nil => rfl
  | cons a as ih =>
    obtain ⟨t, ht⟩ := Option.isSome_iff_exists.mp (h s a)
    rw [exec_cons, ht, Option.bind_some]
    exact ih t

theorem isSome_of_isPrefix {s : σ} {as pre : List α} (hpre : pre <+: as)
    (hrun : (exec step s as).isSome) : (exec step s pre).isSome := by
  obtain ⟨bs, rfl⟩ := hpre
  rw [exec_append] at hrun
  cases h : exec step s pre with
  | none => simp [h] at hrun
  | some t => rfl

theorem guarded_of_inv {Inv : σ → Prop} {C : σ → α → Prop} {s : σ} {as : List α}
    (hinv : Always step Inv s as) (h : ∀ s a, Inv s → C s a) : Guarded step C s as :=
  fun pre a t hpre ht => h t a (hinv pre t ((List.prefix_append pre [a]).trans hpre) ht)

theorem guarded_of_always {P : σ → Prop} {C : σ → α → Prop}
    (h : ∀ s a t, P s → P t → step s a = some t → C s a)
    {s : σ} {as : List α} (hrun : (exec step s as).isSome) (hp : Always step P s as) :
    Guarded step C s as := by
  intro pre a t hpre ht
  obtain ⟨u, hu⟩ := Option.isSome_iff_exists.mp (isSome_of_isPrefix hpre hrun)
  have hstep : step t a = some u := by simpa [exec_append, ht] using hu
  exact h t a u (hp pre t ((List.prefix_append pre [a]).trans hpre) ht) (hp _ u hpre hu) hstep

/-- Two step conditions that agree under an invariant hold of the same runs. -/
theorem guarded_congr {Inv : σ → Prop} {C D : σ → α → Prop} {s : σ} {as : List α}
    (hinv : Always step Inv s as) (h : ∀ s a, Inv s → (C s a ↔ D s a)) :
    Guarded step C s as ↔ Guarded step D s as := by
  have hpre : ∀ pre a t, pre ++ [a] <+: as → exec step s pre = some t → Inv t :=
    fun pre a t hp ht => hinv pre t ((List.prefix_append pre [a]).trans hp) ht
  constructor <;> intro hg pre a t hp ht
  · exact (h t a (hpre pre a t hp ht)).mp (hg pre a t hp ht)
  · exact (h t a (hpre pre a t hp ht)).mpr (hg pre a t hp ht)

/-- The exact condition of a safety property. When the condition keeps the
invariant and the first step that misses it breaks the property, the property
holds throughout a run precisely when every step meets the condition. -/
theorem always_iff_guarded {Inv P : σ → Prop} {C : σ → α → Prop}
    (hsafe : ∀ s, Inv s → P s)
    (hstep : ∀ s a t, Inv s → C s a → step s a = some t → Inv t)
    (hbreak : ∀ s a t, Inv s → ¬ C s a → step s a = some t → ¬ P t)
    {s : σ} {as : List α} (hs : Inv s) (hrun : (exec step s as).isSome) :
    Always step P s as ↔ Guarded step C s as := by
  refine ⟨fun hp => ?_, fun hg => (always_of_guarded hstep hs hg).mono hsafe⟩
  induction as generalizing s with
  | nil => exact guarded_nil C s
  | cons a as ih =>
    obtain ⟨t, ht⟩ : ∃ t, step s a = some t := by
      cases h : step s a with
      | none => simp [h] at hrun
      | some t => exact ⟨t, rfl⟩
    have hrun : (exec step t as).isSome := by simpa [ht] using hrun
    have hp := ((always_cons P s a as).mp hp).2 t ht
    have hc : C s a := by
      by_contra hc
      exact hbreak s a t hs hc ht (hp [] t List.nil_prefix rfl)
    refine (guarded_cons C s a as).mpr ⟨hc, fun u hu => ?_⟩
    obtain rfl : t = u := Option.some.inj (ht.symm.trans hu)
    exact ih (hstep s a t hs hc ht) hrun hp

/-- The case of a property that is kept by just the steps that meet the condition. -/
theorem always_iff_guarded_of_iff {P : σ → Prop} {C : σ → α → Prop}
    (hstep : ∀ s a t, P s → step s a = some t → (P t ↔ C s a))
    {s : σ} {as : List α} (hs : P s) (hrun : (exec step s as).isSome) :
    Always step P s as ↔ Guarded step C s as :=
  always_iff_guarded (fun _ h => h) (fun s a t hs hc h => (hstep s a t hs h).mpr hc)
    (fun s a t hs hc h hp => hc ((hstep s a t hs h).mp hp)) hs hrun

/-- A broken run does not settle while the property holds wherever it settles. -/
theorem not_settled_of_broken {Q P Bad : σ → Prop}
    (hstay : ∀ s a t, Bad s → ¬ Q s → step s a = some t → Bad t)
    (hviol : ∀ s, Bad s → Q s → ¬ P s)
    {s t : σ} {as : List α} (hs : Bad s) (ht : exec step s as = some t)
    (hp : Always step (fun u => Q u → P u) s as) : ¬ Q t := by
  induction as generalizing s with
  | nil =>
    obtain rfl := Option.some.inj ht
    exact fun hq => hviol s hs hq (hp [] s List.prefix_rfl rfl hq)
  | cons a as ih =>
    obtain ⟨hp, hps⟩ := (always_cons _ s a as).mp hp
    obtain ⟨u, hu, ht⟩ := Option.bind_eq_some_iff.mp ht
    exact ih (hstay s a u hs (fun hq => hviol s hs hq (hp hq)) hu) ht (hps u hu)

theorem guarded_of_settled {Inv Q P Bad : σ → Prop} {C : σ → α → Prop}
    (hstep : ∀ s a t, Inv s → C s a → step s a = some t → Inv t)
    (hbreak : ∀ s a t, Inv s → ¬ C s a → step s a = some t → Bad t)
    (hstay : ∀ s a t, Bad s → ¬ Q s → step s a = some t → Bad t)
    (hviol : ∀ s, Bad s → Q s → ¬ P s)
    {s t : σ} {as : List α} (hs : Inv s) (ht : exec step s as = some t) (hq : Q t)
    (hp : Always step (fun u => Q u → P u) s as) : Guarded step C s as := by
  induction as generalizing s with
  | nil => exact guarded_nil C s
  | cons a as ih =>
    obtain ⟨u, hu, ht⟩ := Option.bind_eq_some_iff.mp ht
    have hp := ((always_cons _ s a as).mp hp).2 u hu
    have hc : C s a := by
      by_contra hc
      exact not_settled_of_broken hstay hviol (hbreak s a u hs hc hu) ht hp hq
    exact guarded_step hc hu (ih (hstep s a u hs hc hu) ht hp)

/-- The exact condition of a property of the states in which the system has
settled. A step that misses the condition breaks the property from then on
until the system settles. -/
theorem always_settled_iff_guarded {Inv Q P Bad : σ → Prop} {C : σ → α → Prop}
    (hsafe : ∀ s, Inv s → P s)
    (hstep : ∀ s a t, Inv s → C s a → step s a = some t → Inv t)
    (hbreak : ∀ s a t, Inv s → ¬ C s a → step s a = some t → Bad t)
    (hstay : ∀ s a t, Bad s → ¬ Q s → step s a = some t → Bad t)
    (hviol : ∀ s, Bad s → Q s → ¬ P s)
    {s : σ} {as : List α} (hs : Inv s) :
    Always step (fun u => Q u → P u) s as ↔
      ∀ pre t, pre <+: as → exec step s pre = some t → Q t → Guarded step C s pre := by
  constructor
  · intro hp pre t hpre ht hq
    refine guarded_of_settled hstep hbreak hstay hviol hs ht hq ?_
    exact fun pre' u hpre' => hp pre' u (hpre'.trans hpre)
  · intro hg pre t hpre ht hq
    exact hsafe t (always_of_guarded hstep hs (hg pre t hpre ht hq) pre t List.prefix_rfl ht)

end FakeLibc.Lib.Run

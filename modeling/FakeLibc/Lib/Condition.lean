import FakeLibc.Lib.Counting

namespace FakeLibc.Lib.Condition

open FakeLibc.Lib.Counting

/-- A condition variable. `κ` says what a thread waits for. A thread that has
been signalled is `woken` until it has the mutex again and tests its condition. -/
structure CondVar (κ : Type*) where
  parked : List κ
  woken : List κ

variable {κ : Type*} {c : CondVar κ} {i j : Nat} {k : κ} {o : Option κ} {p : κ → Bool}

def CondVar.empty : CondVar κ := ⟨[], []⟩

def CondVar.wait (c : CondVar κ) (o : Option κ) : CondVar κ :=
  { c with parked := o.toList ++ c.parked }

/-- A signal wakes one of the parked threads, any one, or nobody if none is parked. -/
def CondVar.Signals (c : CondVar κ) (i : Nat) : Prop := i < c.parked.length ∨ c.parked.length = 0

instance (c : CondVar κ) (i : Nat) : Decidable (c.Signals i) :=
  inferInstanceAs (Decidable (i < c.parked.length ∨ c.parked.length = 0))

def CondVar.signal (c : CondVar κ) (i : Nat) : CondVar κ :=
  ⟨c.parked.eraseIdx i, c.parked[i]?.toList ++ c.woken⟩

def CondVar.resume (c : CondVar κ) (j : Nat) : CondVar κ := { c with woken := c.woken.eraseIdx j }

/-- When nobody is on the way to test a condition again, nobody is parked whose
condition holds. -/
def CondVar.NoneLost (c : CondVar κ) (ready : κ → Prop) : Prop :=
  c.woken = [] → ∀ k ∈ c.parked, ¬ ready k

def CondVar.waiting (c : CondVar κ) (p : κ → Bool) : Nat := c.parked.countP p + c.woken.countP p

theorem mem_parked_wait : k ∈ (c.wait o).parked ↔ o = some k ∨ k ∈ c.parked := by
  rw [CondVar.wait, List.mem_append, Option.mem_toList]

theorem mem_parked_of_signal (h : k ∈ (c.signal i).parked) : k ∈ c.parked :=
  List.mem_of_mem_eraseIdx h

theorem waiting_wait (c : CondVar κ) (o : Option κ) :
    (c.wait o).waiting p = c.waiting p + o.toList.countP p := by
  simp only [CondVar.waiting, CondVar.wait, List.countP_append]
  omega

theorem waiting_signal (c : CondVar κ) (i : Nat) : (c.signal i).waiting p = c.waiting p := by
  simp only [CondVar.waiting, CondVar.signal, List.countP_append]
  cases h : c.parked[i]? with
  | none =>
    rw [List.eraseIdx_of_length_le (List.getElem?_eq_none_iff.mp h)]
    simp
  | some k =>
    have hcount := countP_eraseIdx_add (p := p) h
    simp only [Option.toList_some, List.countP_singleton]
    omega

theorem waiting_resume (h : c.woken[j]? = some k) :
    (c.resume j).waiting p + (if p k then 1 else 0) = c.waiting p := by
  have hcount := countP_eraseIdx_add (p := p) h
  simp only [CondVar.waiting, CondVar.resume]
  omega

end FakeLibc.Lib.Condition

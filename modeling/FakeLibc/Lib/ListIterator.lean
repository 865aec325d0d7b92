import Mathlib.Data.List.Basic

namespace FakeLibc.Lib.ListIterator

/-- A list with an iterator into it. The iterator is at the end where nothing
is after it. -/
structure Cursor (α : Type*) where
  before : List α
  after : List α

variable {α : Type*}

def begin (l : List α) : Cursor α := ⟨[], l⟩

namespace Cursor

def list (c : Cursor α) : List α := c.before ++ c.after

def advance : Cursor α → Option (Cursor α)
  | ⟨_, []⟩ => none
  | ⟨l, a :: r⟩ => some ⟨l ++ [a], r⟩

/-- The element at the iterator is taken out, and the iterator is at the next one. -/
def erase : Cursor α → Option (Cursor α)
  | ⟨_, []⟩ => none
  | ⟨l, _ :: r⟩ => some ⟨l, r⟩

/-- The first element is taken out. An iterator at it would be lost. -/
def popFront : Cursor α → Option (Cursor α)
  | ⟨[], _⟩ => none
  | ⟨_ :: l, r⟩ => some ⟨l, r⟩

end Cursor

@[simp] theorem list_begin (l : List α) : (begin l).list = l := rfl

theorem popFront_advance (a : α) (l : List α) :
    (begin (a :: l)).advance.bind Cursor.popFront = some (begin l) := rfl

theorem advance_erase (pre l : List α) (a b : α) :
    (Cursor.erase ⟨pre, a :: b :: l⟩).bind Cursor.advance = some ⟨pre ++ [b], l⟩ := rfl

theorem advance_erase_last (pre : List α) (a : α) :
    (Cursor.erase ⟨pre, [a]⟩).bind Cursor.advance = none := rfl

end FakeLibc.Lib.ListIterator

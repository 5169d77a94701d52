import NativeUi.Instances

/-!
# Named values in order

A record of named values keeps the order in which the names were first set. Setting a name again
changes its value and not its place; `swapErase` closes the gap with the last entry.
-/
namespace NativeUi

abbrev Fields (α : Type) := List (String × α)

namespace Fields

variable {α β : Type}

def find? : Fields α → String → Option α
  | [], _ => none
  | (k, v) :: fs, name => if k = name then some v else find? fs name

def insert : Fields α → String → α → Fields α
  | [], name, value => [(name, value)]
  | (k, v) :: fs, name, value =>
    if k = name then (k, value) :: fs else (k, v) :: insert fs name value

def names (fs : Fields α) : List String := fs.map Prod.fst

/-- Removes a name; the last entry moves into the place that becomes free. -/
def swapErase : Fields α → String → Fields α
  | [], _ => []
  | (k, v) :: fs, name =>
    if k = name then
      match fs.getLast? with
      | none => []
      | some last => last :: fs.dropLast
    else (k, v) :: swapErase fs name

@[simp] theorem find?_nil (name : String) : find? ([] : Fields α) name = none := rfl

theorem find?_insert_self (fs : Fields α) (name : String) (value : α) :
    find? (insert fs name value) name = some value := by
  induction fs with
  | nil => simp [insert, find?]
  | cons f fs ih =>
    obtain ⟨k, v⟩ := f
    by_cases h : k = name <;> simp [insert, find?, h, ih]

theorem find?_insert_ne (fs : Fields α) {name other : String} (value : α) (h : name ≠ other) :
    find? (insert fs name value) other = find? fs other := by
  induction fs with
  | nil => simp [insert, find?, h]
  | cons f fs ih =>
    obtain ⟨k, v⟩ := f
    by_cases hk : k = name
    · subst hk; simp [insert, find?, h]
    · simp [insert, find?, hk, ih]

end Fields

end NativeUi

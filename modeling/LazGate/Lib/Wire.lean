import Mathlib

/-!
# Fields of a binary message

A message on the wire is a list of numbered fields. A field with the default value is not written;
a reader takes the last field that has the number and the kind it asks for, and the default if
there is none.
-/

/-- The value of a field: a text or a number. -/
inductive WireValue where
  | text (s : String)
  | number (n : ℤ)

abbrev Wire := List (ℕ × WireValue)

namespace Wire

def putText (field : ℕ) (s : String) : Wire := if s = "" then [] else [(field, .text s)]

def putNumber (field : ℕ) (n : ℤ) : Wire := if n = 0 then [] else [(field, .number n)]

/-- The texts under a number. -/
def texts (w : Wire) (field : ℕ) : List String :=
  w.filterMap fun
    | (k, .text s) => if k = field then some s else none
    | _ => none

/-- The numbers under a number. -/
def numbers (w : Wire) (field : ℕ) : List ℤ :=
  w.filterMap fun
    | (k, .number n) => if k = field then some n else none
    | _ => none

def text (w : Wire) (field : ℕ) : String := (texts w field).getLast?.getD ""

def number (w : Wire) (field : ℕ) : ℤ := (numbers w field).getLast?.getD 0

variable (w w' : Wire) (field field' : ℕ) (s : String) (n : ℤ)

@[simp] theorem texts_append : texts (w ++ w') field = texts w field ++ texts w' field :=
  List.filterMap_append

@[simp] theorem numbers_append : numbers (w ++ w') field = numbers w field ++ numbers w' field :=
  List.filterMap_append

@[simp] theorem texts_putText : texts (putText field' s) field =
    if field' = field then (if s = "" then [] else [s]) else [] := by
  by_cases hs : s = "" <;> by_cases hf : field' = field <;> simp [putText, texts, hs, hf]

@[simp] theorem texts_putNumber : texts (putNumber field' n) field = [] := by
  unfold putNumber
  split <;> rfl

@[simp] theorem numbers_putText : numbers (putText field' s) field = [] := by
  unfold putText
  split <;> rfl

@[simp] theorem numbers_putNumber : numbers (putNumber field' n) field =
    if field' = field then (if n = 0 then [] else [n]) else [] := by
  by_cases hn : n = 0 <;> by_cases hf : field' = field <;> simp [putNumber, numbers, hn, hf]

/-- A reader finds what was written, the default included. -/
@[simp] theorem getLast?_text : (if s = "" then [] else [s]).getLast?.getD "" = s := by
  by_cases hs : s = "" <;> simp [hs]

@[simp] theorem getLast?_number : (if n = 0 then [] else [n]).getLast?.getD 0 = n := by
  by_cases hn : n = 0 <;> simp [hn]

@[simp] theorem getLast?_natCast (k : ℕ) :
    (if k = 0 then [] else [(k : ℤ)]).getLast?.getD 0 = k := by
  by_cases hk : k = 0 <;> simp [hk]

end Wire

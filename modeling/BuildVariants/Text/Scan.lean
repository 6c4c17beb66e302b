/-!
# Reading from the front of a text

A reader takes something off the front of a list of characters and hands on what is left, or
declines.  Two pieces are shared by the formats that are read here: `many`, which repeats a
reader, and the fixed-width hexadecimal numbers of character escapes.

`many` stops at the first character where its item declines, and also when an item is read that
takes no character, so it always ends.  `many_of_some` and `many_of_none` are all that a proof
about it needs.
-/

namespace BuildVariants.Text

/-- A reader: what was read and what is left. -/
abbrev Scan (α : Type) := List Char → Option (α × List Char)

variable {α : Type}

/-- As many items as can be read one after the other. -/
def many (item : Scan α) (cs : List Char) : List α × List Char :=
  match item cs with
  | none => ([], cs)
  | some (x, rest) =>
    if rest.length < cs.length then
      match many item rest with
      | (xs, r) => (x :: xs, r)
    else ([], cs)
termination_by cs.length

/-- Where the item declines there are no items. -/
theorem many_of_none {item : Scan α} {cs : List Char} (h : item cs = none) :
    many item cs = ([], cs) := by
  rw [many, h]

/-- An item that is read in front of others is the first of them. -/
theorem many_of_some {item : Scan α} {cs rest : List Char} {x : α}
    (h : item cs = some (x, rest)) (shorter : rest.length < cs.length) :
    many item cs = (x :: (many item rest).1, (many item rest).2) := by
  rw [many, h]
  simp [shorter]

/-- Puts a character in front of the characters that were read. -/
def consRead (c : Char) (r : Option (List Char × List Char)) : Option (List Char × List Char) :=
  r.map fun x => (c :: x.1, x.2)

@[simp] theorem consRead_some (c : Char) (x rest : List Char) :
    consRead c (some (x, rest)) = some (c :: x, rest) := rfl

/-! ## Hexadecimal digits -/

/-- The value of a hexadecimal digit of either case. -/
def hexDigit? (c : Char) : Option Nat :=
  if '0' ≤ c ∧ c ≤ '9' then some (c.toNat - '0'.toNat)
  else if 'a' ≤ c ∧ c ≤ 'f' then some (c.toNat - 'a'.toNat + 10)
  else if 'A' ≤ c ∧ c ≤ 'F' then some (c.toNat - 'A'.toNat + 10)
  else none

/-- The number written by exactly `n` hexadecimal digits behind the digits of `value`. -/
def hexNumber : (n : Nat) → (value : Nat) → Scan Nat
  | 0, value, cs => some (value, cs)
  | _ + 1, _, [] => none
  | n + 1, value, c :: cs =>
    match hexDigit? c with
    | none => none
    | some d => hexNumber n (16 * value + d) cs

/-- Each digit that is read is one character. -/
theorem length_of_hexNumber {n value m : Nat} {cs rest : List Char}
    (h : hexNumber n value cs = some (m, rest)) : rest.length + n = cs.length := by
  induction n generalizing value cs with
  | zero =>
    simp only [hexNumber, Option.some.injEq, Prod.mk.injEq] at h
    simp [h.2]
  | succ n ih =>
    cases cs with
    | nil => simp [hexNumber] at h
    | cons c cs =>
      rw [hexNumber] at h
      split at h
      · cases h
      · have := ih h
        simp
        omega

/-- The digits of a number below sixteen, with the given letters above nine. -/
def hexDigits (lower : Bool) : List Char :=
  if lower then "0123456789abcdef".toList else "0123456789ABCDEF".toList

/-- A number written with exactly `n` hexadecimal digits, the highest ones dropped. -/
def hexText (lower : Bool) : (n : Nat) → (value : Nat) → List Char
  | 0, _ => []
  | n + 1, value => hexText lower n (value / 16) ++ [(hexDigits lower).getD (value % 16) '0']

end BuildVariants.Text

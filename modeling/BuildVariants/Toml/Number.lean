import BuildVariants.Toml.Lexeme

/-!
# Numbers, dates and times of a TOML document

Numbers are recognised first and valued afterwards: a recogniser (`Pass`) only says what is left of
the text, and the lexeme is what it passed over.  Whole numbers have to fit into 64 bits, days have
to exist in their month, and a number with a fraction or an exponent may not be too large for a
double; `exceedsDouble` decides that exactly, by comparing with the midpoint behind the largest
double.
-/

namespace BuildVariants.Toml

open BuildVariants.Text

/-- A recogniser: what is left behind a lexeme, if there is one. -/
abbrev Pass := List Char → Option (List Char)

/-- What a recogniser passed over. -/
def lexeme (cs rest : List Char) : List Char :=
  cs.take (cs.length - rest.length)

/-- Passes over one given character. -/
def passChar (x : Char) : Pass
  | c :: cs => if c = x then some cs else none
  | [] => none

/-- Passes over a lexeme if it is there. -/
def passOptional (p : Pass) (cs : List Char) : List Char :=
  (p cs).getD cs

/-- Passes over a plus or a minus if it is there. -/
def passSign : List Char → List Char
  | c :: cs => if c = '+' ∨ c = '-' then cs else c :: cs
  | [] => []

/-! ## Digits -/

/-- Passes over further digits, which may each have one underscore in front. -/
def passDigitTail (isDigit : Char → Bool) : List Char → List Char
  | [] => []
  | [c] => if isDigit c then [] else [c]
  | c :: d :: cs =>
    if c = '_' then if isDigit d then passDigitTail isDigit cs else c :: d :: cs
    else if isDigit c then passDigitTail isDigit (d :: cs)
    else c :: d :: cs

/-- Passes over one or more digits, with underscores between them. -/
def passDigits (isDigit : Char → Bool) : Pass
  | c :: cs => if isDigit c then some (passDigitTail isDigit cs) else none
  | [] => none

/-- The value of digits in a base; underscores and signs do not count. -/
def digitsValue (base : Nat) (cs : List Char) : Nat :=
  cs.foldl (fun v c => match hexDigit? c with
    | some d => base * v + d
    | none => v) 0

/-! ## Whole numbers -/

/-- Passes over a decimal number: a zero stands alone. -/
def passDecimal (cs : List Char) : Option (List Char) :=
  match passSign cs with
  | '0' :: rest => some rest
  | rest => passDigits Char.isDigit rest

/-- The digits of a base other than ten. -/
def isDigitOf (base : Nat) (c : Char) : Bool :=
  match hexDigit? c with
  | some d => d < base
  | none => false

/-- A whole number that fits into 64 bits. -/
def boundedInteger (n : Int) (rest : List Char) : Option (Value × List Char) :=
  if -9223372036854775808 ≤ n ∧ n ≤ 9223372036854775807 then some (.integer n, rest) else none

/-- A whole number in a base other than ten, behind its mark. -/
def readRadix (base : Nat) (cs : List Char) : Option (Value × List Char) :=
  match passDigits (isDigitOf base) cs with
  | none => none
  | some rest => boundedInteger (digitsValue base (lexeme cs rest)) rest

/-- A whole number. -/
def readInteger (cs : List Char) : Option (Value × List Char) :=
  match cs with
  | '0' :: 'x' :: r => readRadix 16 r
  | '0' :: 'o' :: r => readRadix 8 r
  | '0' :: 'b' :: r => readRadix 2 r
  | _ =>
    match passDecimal cs with
    | none => none
    | some rest =>
      let value : Int := digitsValue 10 (lexeme cs rest)
      boundedInteger (if cs.head? = some '-' then -value else value) rest

/-! ## Numbers with a fraction or an exponent -/

/-- The midpoint between the largest double and the next power of two, from where on numbers become
infinite. -/
def overflowPoint : Nat := Nat.pow 2 1024 - Nat.pow 2 970

/-- Whether `m · 10^x` is at least the midpoint behind the largest double.  Numbers that are far
from it are decided by their number of digits, so that no large power is computed for them. -/
def exceedsDouble (m : Nat) (x : Int) : Bool :=
  let size : Int := (Nat.toDigits 10 m).length + x
  if m = 0 ∨ size < 300 then false
  else if 320 < size then true
  else if 0 ≤ x then overflowPoint ≤ m * Nat.pow 10 x.toNat
  else overflowPoint * Nat.pow 10 (-x).toNat ≤ m

/-- Passes over an exponent. -/
def passExponent : Pass
  | c :: cs => if c = 'e' ∨ c = 'E' then passDigits Char.isDigit (passSign cs) else none
  | [] => none

/-- Passes over a fraction. -/
def passFraction (cs : List Char) : Option (List Char) :=
  match passChar '.' cs with
  | none => none
  | some r => passDigits Char.isDigit r

/-- The value of an exponent with its letter. -/
def exponentValue (cs : List Char) : Int :=
  let value : Int := digitsValue 10 (cs.drop 1)
  if (cs.drop 1).head? = some '-' then -value else value

/-- Passes over one of the words for what is no ordinary number. -/
def passSpecial (cs : List Char) : Option (List Char) :=
  match passSign cs with
  | 'i' :: 'n' :: 'f' :: rest => some rest
  | 'n' :: 'a' :: 'n' :: rest => some rest
  | _ => none

/-- A number with a fraction, an exponent, or both. -/
def readFraction (cs : List Char) : Option (Value × List Char) :=
  match passDecimal cs with
  | none => none
  | some behindWhole =>
    let behindFraction := passOptional passFraction behindWhole
    let rest := passOptional passExponent behindFraction
    if rest.length = behindWhole.length then none
    else
      let fraction := (lexeme behindWhole behindFraction).filter Char.isDigit
      let mantissa := digitsValue 10 (lexeme cs behindFraction)
      let exponent := exponentValue (lexeme behindFraction rest)
      if cs.head? ≠ some '-' ∧ exceedsDouble mantissa (exponent - fraction.length) = true then none
      else some (.float (String.ofList (lexeme cs rest)), rest)

/-- A number that is not written as a whole number. -/
def readFloat (cs : List Char) : Option (Value × List Char) :=
  match readFraction cs with
  | some r => some r
  | none => (passSpecial cs).map fun rest => (.float (String.ofList (lexeme cs rest)), rest)

/-! ## Dates and times -/

/-- A number of exactly `n` decimal digits within bounds. -/
def readFixed (n low high : Nat) (cs : List Char) : Option (Nat × List Char) :=
  let ds := cs.take n
  if ds.length = n ∧ ds.all Char.isDigit ∧ low ≤ digitsValue 10 ds ∧ digitsValue 10 ds ≤ high then
    some (digitsValue 10 ds, cs.drop n)
  else none

/-- The number of days in a month. -/
def daysIn (year month : Nat) : Nat :=
  if month = 2 then
    if year % 4 = 0 ∧ (year % 100 ≠ 0 ∨ year % 400 = 0) then 29 else 28
  else if month = 4 ∨ month = 6 ∨ month = 9 ∨ month = 11 then 30
  else 31

/-- Reads something if it is there. -/
def readOptional {α : Type} (read : Scan α) (cs : List Char) : Option α × List Char :=
  match read cs with
  | some (x, rest) => (some x, rest)
  | none => (none, cs)

/-- A date. -/
def readDate (cs : List Char) : Option (Date × List Char) := do
  let (year, cs) ← readFixed 4 0 9999 cs
  let cs ← passChar '-' cs
  let (month, cs) ← readFixed 2 1 12 cs
  let cs ← passChar '-' cs
  let (day, cs) ← readFixed 2 1 (daysIn year month) cs
  return (⟨year, month, day⟩, cs)

/-- The billionths that the digits of a fraction stand for; digits behind the ninth do not
count. -/
def billionths (ds : List Char) : Nat :=
  digitsValue 10 ((ds ++ List.replicate 9 '0').take 9)

/-- The fraction of a second, in billionths. -/
def readSecondFraction (cs : List Char) : Option (Nat × List Char) :=
  match cs with
  | '.' :: r =>
    if (r.takeWhile Char.isDigit).isEmpty then none
    else some (billionths (r.takeWhile Char.isDigit), r.dropWhile Char.isDigit)
  | _ => none

/-- A time of day. -/
def readTime (cs : List Char) : Option (TimeOfDay × List Char) := do
  let (hour, cs) ← readFixed 2 0 23 cs
  let cs ← passChar ':' cs
  let (minute, cs) ← readFixed 2 0 59 cs
  let cs ← passChar ':' cs
  let (second, cs) ← readFixed 2 0 60 cs
  let (fraction?, cs) := readOptional readSecondFraction cs
  return (⟨hour, minute, second, fraction?.getD 0⟩, cs)

/-- A number of minutes, by hours and minutes. -/
def readMinutes (cs : List Char) : Option (Nat × List Char) := do
  let (hours, cs) ← readFixed 2 0 23 cs
  let cs ← passChar ':' cs
  let (minutes, cs) ← readFixed 2 0 59 cs
  return (60 * hours + minutes, cs)

/-- A distance from universal time. -/
def readOffset (cs : List Char) : Option (Offset × List Char) :=
  match cs with
  | 'Z' :: r => some (.universal, r)
  | 'z' :: r => some (.universal, r)
  | '+' :: r => (readMinutes r).map fun x => (.minutes x.1, x.2)
  | '-' :: r => (readMinutes r).map fun x => (.minutes (-x.1), x.2)
  | _ => none

/-- A time of day behind a date, perhaps with its distance from universal time. -/
def readTimeOfDate (cs : List Char) : Option ((TimeOfDay × Option Offset) × List Char) :=
  match cs with
  | c :: r =>
    if c = 'T' ∨ c = 't' ∨ c = ' ' then
      (readTime r).map fun x =>
        match readOptional readOffset x.2 with
        | (offset?, rest) => ((x.1, offset?), rest)
    else none
  | [] => none

/-- A date, a time of day, or both. -/
def readMoment (cs : List Char) : Option (Moment × List Char) :=
  match readDate cs with
  | some (d, r) =>
    match readTimeOfDate r with
    | some ((t, offset?), rest) => some (.dateTime d t offset?, rest)
    | none => some (.date d, r)
  | none => (readTime cs).map fun x => (.time x.1, x.2)

/-- A number, a date or a time. -/
def readNumber (cs : List Char) : Option (Value × List Char) :=
  match readMoment cs with
  | some (m, rest) => some (.moment m, rest)
  | none =>
    match readFloat cs with
    | some r => some r
    | none => readInteger cs

end BuildVariants.Toml

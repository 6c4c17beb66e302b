import BuildVariants.Text.Spacing

/-!
# TOML values

The tree a TOML document stands for.  Tables keep the order of their keys.  Numbers that are not
whole are kept as they are written: nothing is computed with them here.

A value may be a moment: a date, a time of day, or a date with a time of day and perhaps its
distance from universal time.  It can be spelled in several ways; `Moment.text` is the one it is
written in, where the time follows the date behind a `T`, fractions of a second have no zeros at the
end, and no distance at all is written `+00:00` unless it was given as `Z`.
-/

namespace BuildVariants.Toml

/-! ## Dates and times -/

/-- A day of the calendar. -/
structure Date where
  year : Nat
  month : Nat
  day : Nat
  deriving DecidableEq, Repr

/-- A time of day. -/
structure TimeOfDay where
  hour : Nat
  minute : Nat
  second : Nat
  /-- The fraction of the second, in billionths. -/
  nanosecond : Nat
  deriving DecidableEq, Repr

/-- The distance of a local time from universal time. -/
inductive Offset
  /-- The time is universal time itself. -/
  | universal
  /-- A distance in minutes. -/
  | minutes (n : Int)
  deriving DecidableEq, Repr

/-- A date, a time, or both. -/
inductive Moment
  | date (d : Date)
  | time (t : TimeOfDay)
  | dateTime (d : Date) (t : TimeOfDay) (offset? : Option Offset)
  deriving DecidableEq, Repr

open Text (zeroPadded)

/-- The text of a date. -/
def Date.text (d : Date) : String :=
  zeroPadded 4 d.year ++ "-" ++ zeroPadded 2 d.month ++ "-" ++ zeroPadded 2 d.day

/-- The digits of a fraction of a second, without zeros at the end. -/
def fractionDigits (nanosecond : Nat) : List Char :=
  ((zeroPadded 9 nanosecond).toList.reverse.dropWhile (· = '0')).reverse

/-- The text of a time of day. -/
def TimeOfDay.text (t : TimeOfDay) : String :=
  zeroPadded 2 t.hour ++ ":" ++ zeroPadded 2 t.minute ++ ":" ++ zeroPadded 2 t.second
    ++ if t.nanosecond = 0 then "" else "." ++ String.ofList (fractionDigits t.nanosecond)

/-- The text of a distance from universal time. -/
def Offset.text : Offset → String
  | universal => "Z"
  | minutes n =>
    (if n < 0 then "-" else "+") ++ zeroPadded 2 (n.natAbs / 60) ++ ":"
      ++ zeroPadded 2 (n.natAbs % 60)

/-- The text of a moment. -/
def Moment.text : Moment → String
  | date d => d.text
  | time t => t.text
  | dateTime d t none => d.text ++ "T" ++ t.text
  | dateTime d t (some offset) => d.text ++ "T" ++ t.text ++ offset.text

/-! ## Values -/

/-- A TOML value. -/
inductive Value
  | string (s : String)
  | integer (n : Int)
  /-- A number with a fraction or an exponent, an infinity, or no number at all; as written. -/
  | float (digits : String)
  | boolean (b : Bool)
  /-- A date, a time, or both. -/
  | moment (m : Moment)
  | array (items : List Value)
  | table (entries : List (String × Value))

instance : Inhabited Value := ⟨.table []⟩

/-- The entries of a table. -/
abbrev Entries := List (String × Value)

end BuildVariants.Toml

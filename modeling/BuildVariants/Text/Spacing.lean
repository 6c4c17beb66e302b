/-!
# Blanks and columns

A text is blank when it holds nothing but white space in the Unicode sense.  The class is the
`White_Space` property of the Unicode character database: twenty-five code points, of which only
six are ASCII.

Text is brought to a column width counted in characters, and numbers to a width counted in digits.
What is already as wide as that is left alone.
-/

namespace BuildVariants.Text

/-! ## Blank characters -/

/-- The code points of the Unicode property `White_Space`, as closed ranges. -/
def blankRanges : List (Nat × Nat) :=
  [(0x09, 0x0d), (0x20, 0x20), (0x85, 0x85), (0xa0, 0xa0), (0x1680, 0x1680), (0x2000, 0x200a),
   (0x2028, 0x2029), (0x202f, 0x202f), (0x205f, 0x205f), (0x3000, 0x3000)]

/-- Whether a character has the Unicode property `White_Space`. -/
def isBlank (c : Char) : Bool :=
  blankRanges.any fun r => r.1 ≤ c.toNat && c.toNat ≤ r.2

/-- Whether a text holds nothing but blanks. -/
def isBlankText (s : String) : Bool :=
  s.toList.all isBlank

/-! ## Columns -/

/-- The blanks that a text lacks to fill a column. -/
def filler (width : Nat) (s : String) : String :=
  String.ofList (List.replicate (width - s.length) ' ')

/-- Fills a column on the right of the text. -/
def padRight (width : Nat) (s : String) : String :=
  s ++ filler width s

/-- Fills a column on the left of the text. -/
def padLeft (width : Nat) (s : String) : String :=
  filler width s ++ s

@[simp] theorem length_padLeft (width : Nat) (s : String) :
    (padLeft width s).length = max width s.length := by
  simp [padLeft, filler]
  omega

@[simp] theorem length_padRight (width : Nat) (s : String) :
    (padRight width s).length = max width s.length := by
  simp [padRight, filler]
  omega

/-- A number with zeros in front that bring it to a width. -/
def zeroPadded (width n : Nat) : String :=
  String.ofList (List.replicate (width - (toString n).length) '0') ++ toString n

@[simp] theorem length_zeroPadded (width n : Nat) :
    (zeroPadded width n).length = max width (toString n).length := by
  simp only [zeroPadded, String.length_append, String.length_ofList, List.length_replicate]
  omega

end BuildVariants.Text

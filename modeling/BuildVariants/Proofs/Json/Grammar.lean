import BuildVariants.Json
import BuildVariants.Proofs.Text.Hexadecimal

/-!
# The grammar of JSON

Which texts hold which value, as RFC 8259 has it: a document is a value with blanks around it; what
stands in brackets is separated by commas, with blanks around every token; a character of a string
stands for itself, or is written as a short escape, as the number of a code point, or as a pair of
surrogates.  A number is kept as it is written, and an object keeps its fields in order, so a text
holds one value at most; that is what reading it proves.

The grammar says nothing of how a text is read or printed.
-/

namespace BuildVariants.Json

/-! ## Blanks -/

/-- The characters that may stand between tokens. -/
def blanks : List Char := [' ', '\t', '\n', '\r']

/-- Some blanks. -/
def Gap (text : List Char) : Prop :=
  ∀ c ∈ text, c ∈ blanks

/-! ## Strings -/

/-- The escapes of one letter, and what they stand for. -/
def shortEscapes : List (Char × Char) :=
  [('"', '"'), ('\\', '\\'), ('/', '/'), ('b', '\x08'), ('f', '\x0c'), ('n', '\n'), ('r', '\r'),
    ('t', '\t')]

/-- The number that four hexadecimal digits of either case write. -/
def FourDigits (digits : List Char) (n : Nat) : Prop :=
  digits.length = 4 ∧ Text.Hexadecimal digits n

/-- One character of a string. -/
inductive CharText : List Char → Char → Prop
  | plain {c : Char} : 0x20 ≤ c.toNat → c ≠ '"' → c ≠ '\\' → CharText [c] c
  | short {letter c : Char} : (letter, c) ∈ shortEscapes → CharText ['\\', letter] c
  /-- A code point that is not half a pair of surrogates. -/
  | code {digits : List Char} {n : Nat} : FourDigits digits n → ¬ (0xd800 ≤ n ∧ n ≤ 0xdfff) →
      CharText ('\\' :: 'u' :: digits) (Char.ofNat n)
  /-- A code point outside the basic plane. -/
  | pair {high low : List Char} {h l : Nat} : FourDigits high h → 0xd800 ≤ h → h ≤ 0xdbff →
      FourDigits low l → 0xdc00 ≤ l → l ≤ 0xdfff →
      CharText ('\\' :: 'u' :: high ++ '\\' :: 'u' :: low)
        (Char.ofNat (0x10000 + (h - 0xd800) * 0x400 + (l - 0xdc00)))

/-- The characters of a string, one after the other. -/
inductive Characters : List Char → List Char → Prop
  | nil : Characters [] []
  | cons {text rest cs : List Char} {c : Char} : CharText text c → Characters rest cs →
      Characters (text ++ rest) (c :: cs)

/-- A string with its quotes. -/
inductive StringText : List Char → String → Prop
  | quoted {body cs : List Char} : Characters body cs →
      StringText ('"' :: body ++ ['"']) (String.ofList cs)

/-! ## Numbers -/

/-- One or more digits. -/
structure Digits (text : List Char) : Prop where
  nonempty : text ≠ []
  all : ∀ c ∈ text, c.isDigit = true

/-- The whole part of a number: a zero stands alone. -/
inductive WholePart : List Char → Prop
  | zero : WholePart ['0']
  | digits {text : List Char} : Digits text → text.head? ≠ some '0' → WholePart text

/-- The part behind the point, if there is one. -/
inductive FractionPart : List Char → Prop
  | none : FractionPart []
  | digits {text : List Char} : Digits text → FractionPart ('.' :: text)

/-- The exponent, if there is one. -/
inductive ExponentPart : List Char → Prop
  | none : ExponentPart []
  | digits {e : Char} {text : List Char} : e = 'e' ∨ e = 'E' → Digits text →
      ExponentPart (e :: text)
  | signed {e sign : Char} {text : List Char} : e = 'e' ∨ e = 'E' → sign = '+' ∨ sign = '-' →
      Digits text → ExponentPart (e :: sign :: text)

/-- A number without its sign. -/
inductive Magnitude : List Char → Prop
  | parts {whole fraction exponent : List Char} : WholePart whole → FractionPart fraction →
      ExponentPart exponent → Magnitude (whole ++ fraction ++ exponent)

/-- A number. -/
inductive Numeral : List Char → Prop
  | positive {text : List Char} : Magnitude text → Numeral text
  | negative {text : List Char} : Magnitude text → Numeral ('-' :: text)

/-! ## Values -/

/-- One or more items with commas between them. -/
inductive Items {α : Type} (Item : List Char → α → Prop) : List Char → List α → Prop
  | one {before text after : List Char} {x : α} : Gap before → Item text x → Gap after →
      Items Item (before ++ text ++ after) [x]
  | cons {before text after rest : List Char} {x : α} {xs : List α} : Gap before → Item text x →
      Gap after → Items Item rest xs → Items Item (before ++ text ++ after ++ ',' :: rest) (x :: xs)

/-- Items in brackets; perhaps none. -/
inductive Bracketed {α : Type} (Item : List Char → α → Prop) (opening closing : Char) :
    List Char → List α → Prop
  | empty {gap : List Char} :
      Gap gap → Bracketed Item opening closing (opening :: gap ++ [closing]) []
  | items {text : List Char} {xs : List α} : Items Item text xs →
      Bracketed Item opening closing (opening :: text ++ [closing]) xs

/-- A name and what it stands for. -/
inductive Field (Item : List Char → Json → Prop) : List Char → String × Json → Prop
  | named {name before after text : List Char} {k : String} {x : Json} : StringText name k →
      Gap before → Gap after → Item text x →
      Field Item (name ++ before ++ ':' :: after ++ text) (k, x)

/-- A value. -/
inductive Value : List Char → Json → Prop
  | null : Value "null".toList null
  | true : Value "true".toList (boolean Bool.true)
  | false : Value "false".toList (boolean Bool.false)
  | number {text : List Char} : Numeral text → Value text (number (String.ofList text))
  | string {text : List Char} {s : String} : StringText text s → Value text (string s)
  | array {text : List Char} {xs : List Json} : Bracketed Value '[' ']' text xs →
      Value text (array xs)
  | object {text : List Char} {fs : List (String × Json)} :
      Bracketed (Field Value) '{' '}' text fs → Value text (object fs)

/-- A whole text, and the value that it holds. -/
inductive Document : String → Json → Prop
  | surrounded {s : String} {before text after : List Char} {j : Json} :
      s.toList = before ++ text ++ after → Gap before → Value text j → Gap after → Document s j

end BuildVariants.Json

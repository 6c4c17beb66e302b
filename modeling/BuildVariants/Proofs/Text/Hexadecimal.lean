import BuildVariants.Text.Scan
import Mathlib.Data.Nat.Digits.Defs

/-!
# Hexadecimal numbers

A number that is written with hexadecimal digits is read back if it fits into them
(`hexNumber_hexText`).  What is read off the front of a text is a number in the positional notation
(`Hexadecimal`), and does not depend on what follows (`hexNumber_eq_some_iff`).
-/

namespace BuildVariants.Text

theorem hexDigit?_hexDigits (lower : Bool) :
    ∀ n < 16, hexDigit? ((hexDigits lower).getD n '0') = some n := by
  cases lower <;> decide

/-- How many numbers there are of so many hexadecimal digits. -/
def hexBase : Nat → Nat
  | 0 => 1
  | n + 1 => 16 * hexBase n

/-- The digits of a number are read back behind the value of those in front of them. -/
theorem hexNumber_hexText_add (lower : Bool) (n : Nat) :
    ∀ (k value number : Nat) (rest : List Char),
      hexNumber (n + k) value (hexText lower n number ++ rest)
        = hexNumber k (hexBase n * value + number % hexBase n) rest := by
  induction n with
  | zero =>
    intro k value number rest
    simp [hexText, hexBase, Nat.mod_one]
  | succ n ih =>
    intro k value number rest
    -- The last digit is read behind the others, which are those of `number / 16`.
    have digit := hexDigit?_hexDigits lower (number % 16) (Nat.mod_lt _ (by decide))
    have low : number % hexBase (n + 1) = 16 * (number / 16 % hexBase n) + number % 16 := by
      rw [hexBase, Nat.mod_mul]
      omega
    rw [hexText, List.append_assoc, List.singleton_append, show n + 1 + k = n + (k + 1) by omega,
      ih, hexNumber, digit]
    refine congrArg (fun v => hexNumber k v rest) ?_
    rw [low, hexBase, Nat.mul_assoc, Nat.mul_add]
    omega

/-- A number that fits into its digits is read back. -/
theorem hexNumber_hexText (lower : Bool) {n number : Nat} (fits : number < hexBase n)
    (rest : List Char) :
    hexNumber n 0 (hexText lower n number ++ rest) = some (number, rest) := by
  have h := hexNumber_hexText_add lower n 0 0 number rest
  rwa [Nat.mod_eq_of_lt fits, Nat.mul_zero, Nat.zero_add] at h

/-- Nothing but digits is written. -/
theorem isSome_hexDigit?_of_mem_hexText {lower : Bool} {n number : Nat} {c : Char}
    (mem : c ∈ hexText lower n number) : (hexDigit? c).isSome := by
  induction n generalizing number with
  | zero => cases mem
  | succ n ih =>
    rw [hexText, List.mem_append, List.mem_singleton] at mem
    obtain mem | rfl := mem
    · exact ih mem
    · rw [hexDigit?_hexDigits lower _ (Nat.mod_lt _ (by decide))]
      rfl

/-! ## What is taken off the front -/

/-- The number that hexadecimal digits of either case write, the highest one first. -/
def Hexadecimal (digits : List Char) (n : Nat) : Prop :=
  ∃ values, List.Forall₂ (fun c d => hexDigit? c = some d) digits values ∧
    n = Nat.ofDigits 16 values.reverse

theorem ofDigits_reverse (values : List Nat) :
    Nat.ofDigits 16 values.reverse = values.foldl (fun v d => 16 * v + d) 0 := by
  rw [Nat.ofDigits_eq_foldr, List.foldr_reverse]
  refine congrArg (fun f => values.foldl f 0) ?_
  funext v d
  exact Nat.add_comm _ _

/-- Digits are read one by one, behind the value of those in front of them. -/
theorem hexNumber_eq_some_iff_foldl {n value m : Nat} {cs rest : List Char} :
    hexNumber n value cs = some (m, rest) ↔ ∃ digits values, cs = digits ++ rest ∧
      digits.length = n ∧ List.Forall₂ (fun c d => hexDigit? c = some d) digits values ∧
      m = values.foldl (fun v d => 16 * v + d) value := by
  induction n generalizing value cs with
  | zero =>
    rw [hexNumber, Option.some.injEq, Prod.mk.injEq]
    constructor
    · rintro ⟨rfl, rfl⟩
      exact ⟨[], [], rfl, rfl, .nil, rfl⟩
    · rintro ⟨digits, values, rfl, none, each, rfl⟩
      cases List.length_eq_zero_iff.1 none
      cases each
      exact ⟨rfl, rfl⟩
  | succ n ih =>
    constructor
    · intro h
      cases cs with
      | nil => cases h
      | cons c cs =>
        rw [hexNumber] at h
        split at h
        · cases h
        · next d digit =>
          obtain ⟨digits, values, rfl, rfl, each, rfl⟩ := ih.1 h
          exact ⟨c :: digits, d :: values, rfl, rfl, .cons digit each, rfl⟩
    · rintro ⟨digits, values, rfl, length, each, rfl⟩
      cases each with
      | nil => cases length
      | cons digit each =>
        rw [List.cons_append, hexNumber, digit]
        exact ih.2 ⟨_, _, rfl, Nat.succ.inj length, each, rfl⟩

/-- **So many digits are read off the front**, and nothing of what follows. -/
theorem hexNumber_eq_some_iff {n m : Nat} {cs rest : List Char} :
    hexNumber n 0 cs = some (m, rest) ↔
      ∃ digits, cs = digits ++ rest ∧ digits.length = n ∧ Hexadecimal digits m := by
  rw [hexNumber_eq_some_iff_foldl]
  refine exists_congr fun digits => ?_
  unfold Hexadecimal
  simp only [ofDigits_reverse, exists_and_left]

end BuildVariants.Text

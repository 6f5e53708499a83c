import Mathlib.Data.List.Induction
import Mathlib.Data.List.TakeWhile

/-!
# Decimal numerals

Numbers as the bytes of their digits, and `from_chars` that reads them back.  It takes as many
digits as there are and says what is left.
-/

namespace Grab.Lib.Decimal

open List

abbrev Text := List UInt8

def isDigit (byte : UInt8) : Bool := 48 ≤ byte.toNat && byte.toNat ≤ 57

def digit (value : ℕ) : UInt8 := UInt8.ofNat (48 + value)

/-- The digits of a number, the highest first. -/
def numeral (number : ℕ) : Text :=
  if number < 10 then [digit number] else numeral (number / 10) ++ [digit (number % 10)]
termination_by number
decreasing_by omega

/-- What digits are worth. -/
def worth (digits : Text) : ℕ := digits.foldl (fun value byte => 10 * value + (byte.toNat - 48)) 0

/-- `from_chars` into an unsigned integer below a bound: the number and the rest of the text, or
nothing when there is no digit or the number is out of range. -/
def fromChars (bound : ℕ) (text : Text) : Option (ℕ × Text) :=
  let digits := text.takeWhile isDigit
  if digits = [] then none
  else if bound ≤ worth digits then none
  else some (worth digits, text.dropWhile isDigit)

/-- `from_chars` into a signed integer of which the magnitude stays below a bound; only the
smallest number reaches the bound. -/
def fromCharsSigned (bound : ℕ) : Text → Option (ℤ × Text)
  | 45 :: text => (fromChars (bound + 1) text).map fun parsed => (-parsed.1, parsed.2)
  | text => (fromChars bound text).map fun parsed => ((parsed.1 : ℤ), parsed.2)

theorem digit_toNat {value : ℕ} (small : value < 10) : (digit value).toNat = 48 + value := by
  simp only [digit, UInt8.toNat_ofNat']
  omega

theorem isDigit_digit {value : ℕ} (small : value < 10) : isDigit (digit value) := by
  rw [isDigit, digit_toNat small, Bool.and_eq_true, decide_eq_true_iff, decide_eq_true_iff]
  omega

theorem worth_concat (digits : Text) (byte : UInt8) :
    worth (digits ++ [byte]) = 10 * worth digits + (byte.toNat - 48) := by
  simp [worth, foldl_append]

theorem numeral_ne_nil (number : ℕ) : numeral number ≠ [] := by
  rw [numeral]
  split
  · exact cons_ne_nil _ _
  · exact append_ne_nil_of_right_ne_nil _ (cons_ne_nil _ _)

theorem isDigit_of_mem_numeral {number : ℕ} {byte : UInt8} (member : byte ∈ numeral number) :
    isDigit byte := by
  induction number using Nat.strongRecOn with
  | ind number ih =>
    rw [numeral] at member
    split at member
    · next small => exact mem_singleton.mp member ▸ isDigit_digit small
    · rcases mem_append.mp member with front | last
      · exact ih (number / 10) (by omega) front
      · exact mem_singleton.mp last ▸ isDigit_digit (Nat.mod_lt _ (by decide))

@[simp]
theorem worth_numeral (number : ℕ) : worth (numeral number) = number := by
  induction number using Nat.strongRecOn with
  | ind number ih =>
    rw [numeral]
    split
    · next small =>
        have single : worth [digit number] = (digit number).toNat - 48 := by simp [worth]
        rw [single, digit_toNat small]
        exact Nat.add_sub_cancel_left 48 number
    · rw [worth_concat, ih (number / 10) (by omega), digit_toNat (Nat.mod_lt _ (by decide)),
        Nat.add_sub_cancel_left]
      exact Nat.div_add_mod number 10

variable {bound number : ℕ}

/-- The numeral of a number in range is read back, and nothing is left. -/
theorem fromChars_numeral (fits : number < bound) :
    fromChars bound (numeral number) = some (number, []) := by
  have all : ∀ byte ∈ numeral number, isDigit byte := fun _ => isDigit_of_mem_numeral
  have taken : (numeral number).takeWhile isDigit = numeral number := takeWhile_eq_self_iff.mpr all
  have dropped : (numeral number).dropWhile isDigit = [] := dropWhile_eq_nil_iff.mpr all
  simp only [fromChars, taken, dropped, numeral_ne_nil, worth_numeral, Nat.not_le_of_lt fits,
    if_false]

theorem fromCharsSigned_numeral (fits : number < bound) :
    fromCharsSigned bound (numeral number) = some ((number : ℤ), []) := by
  have plain : ∀ text, numeral number ≠ 45 :: text := by
    intro text same
    have first : isDigit 45 := isDigit_of_mem_numeral (same ▸ mem_cons_self)
    exact absurd first (by decide)
  unfold fromCharsSigned
  split
  · next text same => exact absurd same (plain text)
  · rw [fromChars_numeral fits]
    rfl

end Grab.Lib.Decimal

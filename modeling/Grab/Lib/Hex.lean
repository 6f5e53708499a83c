import Mathlib.Data.List.TakeWhile

/-!
# Hexadecimal numerals

A numeral tells its number, also when a dash and anything else come after it.
-/

namespace Grab.Lib.Hex

open List

variable {first second : ℕ}

theorem digitChar_injective (firstSmall : first < 16) (secondSmall : second < 16)
    (same : Nat.digitChar first = Nat.digitChar second) : first = second := by
  have table : ∀ first second : Fin 16,
      Nat.digitChar first = Nat.digitChar second → first = second := by decide
  exact congrArg Fin.val (table ⟨first, firstSmall⟩ ⟨second, secondSmall⟩ same)

theorem digitChar_ne_dash {digit : ℕ} (small : digit < 16) : Nat.digitChar digit ≠ '-' := by
  have table : ∀ digit : Fin 16, Nat.digitChar digit ≠ '-' := by decide
  exact table ⟨digit, small⟩

theorem toDigits_injective (same : Nat.toDigits 16 first = Nat.toDigits 16 second) :
    first = second := by
  induction first using Nat.strongRecOn generalizing second with
  | ind first ih =>
    have unfolds : ∀ number, Nat.toDigits 16 number = if number < 16 then [number.digitChar]
        else Nat.toDigits 16 (number / 16) ++ [(number % 16).digitChar] :=
      fun _ => Nat.toDigits_eq_if (by decide)
    rw [unfolds, unfolds second] at same
    split at same
    · next firstSmall =>
        split at same
        · next secondSmall =>
            exact digitChar_injective firstSmall secondSmall (cons.inj same).1
        · rcases append_eq_singleton_iff.mp same.symm with ⟨front, -⟩ | ⟨-, back⟩
          · exact absurd front Nat.toDigits_ne_nil
          · exact absurd back (cons_ne_nil _ _)
    · next firstLarge =>
        split at same
        · rcases append_eq_singleton_iff.mp same with ⟨front, -⟩ | ⟨-, back⟩
          · exact absurd front Nat.toDigits_ne_nil
          · exact absurd back (cons_ne_nil _ _)
        rcases append_inj' same rfl with ⟨front, last⟩
        have low : first % 16 = second % 16 :=
          digitChar_injective (Nat.mod_lt _ (by decide)) (Nat.mod_lt _ (by decide))
            (cons.inj last).1
        have high : first / 16 = second / 16 := ih (first / 16) (by omega) front
        omega

theorem dash_not_mem (number : ℕ) : '-' ∉ Nat.toDigits 16 number := by
  induction number using Nat.strongRecOn with
  | ind number ih =>
    rw [Nat.toDigits_eq_if (by decide)]
    split
    · next small =>
        intro member
        exact digitChar_ne_dash small (mem_singleton.mp member).symm
    intro member
    rcases mem_append.mp member with front | last
    · exact ih (number / 16) (by omega) front
    · exact digitChar_ne_dash (Nat.mod_lt _ (by decide)) (mem_singleton.mp last).symm

/-- The numeral ahead of the first dash. -/
theorem number_of_dashed {rest other : List Char}
    (same : Nat.toDigits 16 first ++ '-' :: rest = Nat.toDigits 16 second ++ '-' :: other) :
    first = second := by
  have ahead : ∀ (number : ℕ) (rest : List Char),
      (Nat.toDigits 16 number ++ '-' :: rest).takeWhile (fun char => char ≠ '-') =
        Nat.toDigits 16 number := by
    intro number rest
    have plain : ∀ char ∈ Nat.toDigits 16 number, decide (char ≠ '-') = true := by
      intro char member
      exact decide_eq_true fun dash => dash_not_mem number (dash ▸ member)
    rw [takeWhile_append_of_pos plain, takeWhile_cons_of_neg (by decide), append_nil]
  apply toDigits_injective
  rw [← ahead first rest, ← ahead second other, same]

end Grab.Lib.Hex

import Mathlib.Data.List.Infix

/-!
# The longest end of a list that fits

What is left of a list when its front is removed until the rest fits, is the longest of its ends
that fit.
-/

namespace Grab.Lib.Suffix

open List

variable {α : Type} {fits : List α → Prop}

/-- The longest end of a list with a property. -/
structure Longest (fits : List α → Prop) (whole kept : List α) : Prop where
  suffix : kept <:+ whole
  holds : fits kept
  longest : ∀ other, other <:+ whole → fits other → other <:+ kept

namespace Longest

theorem refl {whole : List α} (holds : fits whole) : Longest fits whole whole where
  suffix := suffix_rfl
  holds := holds
  longest _ suffix _ := suffix

/-- The first element goes when the list does not fit. -/
theorem cons {first : α} {rest kept : List α} (large : ¬fits (first :: rest))
    (longest : Longest fits rest kept) : Longest fits (first :: rest) kept where
  suffix := longest.suffix.trans (suffix_cons first rest)
  holds := longest.holds
  longest other suffix small := by
    rcases suffix_cons_iff.mp suffix with rfl | within
    · exact absurd small large
    · exact longest.longest other within small

end Longest

end Grab.Lib.Suffix

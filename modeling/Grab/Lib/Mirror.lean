import Mathlib.Logic.Basic

/-!
# Mirrored indexes

A secondary index maps a key to its owner.  It mirrors a relation between owners
and the keys they hold when it finds exactly the holder; then a key has at most
one holder, and the index is kept by entering a key that was free and by dropping
a key from index and holder alike.
-/

namespace Grab.Lib

open Option

universe u v

variable {κ : Type u} {ο : Type v}

/-- The index finds an owner exactly when the owner holds the key. -/
def Mirrors (index : κ → Option ο) (holds : ο → κ → Prop) : Prop :=
  ∀ key owner, index key = some owner ↔ holds owner key

namespace Mirrors

variable {index : κ → Option ο} {holds : ο → κ → Prop} (mirrors : Mirrors index holds) {key : κ}

include mirrors

theorem unique {first second : ο} (firstHolds : holds first key) (secondHolds : holds second key) :
    first = second := by
  rw [← mirrors] at firstHolds secondHolds
  rw [firstHolds] at secondHolds
  exact some.inj secondHolds

variable {holds' : ο → κ → Prop} {index' : κ → Option ο} {owner : ο}

/-- Another way to say what the index finds and what is held. -/
theorem of_iff (sameIndex : ∀ key, index' key = index key)
    (sameHolds : ∀ owner key, holds' owner key ↔ holds owner key) : Mirrors index' holds' := by
  intro key owner
  rw [sameIndex, mirrors, sameHolds]

/-- Enter a key for an owner when nobody else holds it. -/
theorem enter {index' : κ → Option ο} {holds' : ο → κ → Prop}
    (free : index key = none ∨ index key = some owner) (entered : index' key = some owner)
    (kept : ∀ other, other ≠ key → index' other = index other)
    (nowHolds : ∀ who what, holds' who what ↔ holds who what ∨ (who = owner ∧ what = key)) :
    Mirrors index' holds' := by
  intro other who
  rw [nowHolds]
  by_cases same : other = key
  · subst same
    rw [entered, some.injEq]
    constructor
    · rintro rfl
      exact .inr ⟨rfl, rfl⟩
    rintro (held | ⟨rfl, _⟩)
    · rw [← mirrors] at held
      rcases free with nobody | already
      · rw [nobody] at held
        cases held
      · rw [already] at held
        exact some.inj held
    · rfl
  · rw [kept other same, mirrors]
    exact (or_iff_left fun here => same here.2).symm

/-- Drop a key from the index and from its holder. -/
theorem drop (dropped : index' key = none)
    (kept : ∀ other, other ≠ key → index' other = index other)
    (nowHolds : ∀ who what, holds' who what ↔ holds who what ∧ what ≠ key) :
    Mirrors index' holds' := by
  intro other who
  rw [nowHolds]
  by_cases same : other = key
  · subst same
    rw [dropped]
    constructor
    · nofun
    · exact fun held => absurd rfl held.2
  · rw [kept other same, mirrors]
    exact (and_iff_left same).symm

/-- Drop a key from the index and from the one owner who holds it. -/
theorem drop_owner (held : holds owner key) (dropped : index' key = none)
    (kept : ∀ other, other ≠ key → index' other = index other)
    (nowHolds : ∀ who what, holds' who what ↔ holds who what ∧ ¬(who = owner ∧ what = key)) :
    Mirrors index' holds' := by
  apply mirrors.drop dropped kept
  intro who what
  rw [nowHolds]
  apply and_congr_right
  intro holding
  rw [not_and]
  constructor
  · rintro different rfl
    exact different (mirrors.unique holding held) rfl
  · exact fun different _ => different

end Mirrors

end Grab.Lib

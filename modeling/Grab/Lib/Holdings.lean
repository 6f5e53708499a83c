import Grab.Lib.Transitions

/-!
# What the entries of a catalogue hold

Every entry of an association list holds some things.  All that is held, as a multiset, changes by
what one entry gains or loses when that entry is put or erased.
-/

namespace Grab.Lib.Assoc

open List

universe u v w

variable {α : Type u} {β : Type v} {γ : Type w} [DecidableEq α]

/-- All that the entries hold. -/
def holdings (holds : α → β → List γ) (entries : List (α × β)) : List γ :=
  entries.flatMap fun entry => holds entry.1 entry.2

variable {holds : α → β → List γ} {entries : List (α × β)} {key : α} {old new : β}

omit [DecidableEq α] in
@[simp]
theorem holdings_cons (entry : α × β) :
    holdings holds (entry :: entries) = holds entry.1 entry.2 ++ holdings holds entries :=
  flatMap_cons

theorem mem_of_find (found : find entries key = some old) : (key, old) ∈ entries := by
  induction entries with
  | nil => cases found
  | cons entry rest ih =>
    rw [find_cons] at found
    split at found
    · next same =>
        cases found
        exact same ▸ mem_cons_self
    · exact mem_cons_of_mem _ (ih found)

theorem find_of_mem (distinct : Distinct entries) (present : (key, old) ∈ entries) :
    find entries key = some old := by
  induction entries with
  | nil => exact absurd present not_mem_nil
  | cons entry rest ih =>
    rcases nodup_cons.mp distinct with ⟨fresh, distinctRest⟩
    rw [find_cons]
    rcases mem_cons.mp present with here | there
    · subst here
      exact if_pos rfl
    have differs : entry.1 ≠ key := by
      intro same
      exact fresh (same ▸ mem_map_of_mem there)
    rw [if_neg differs]
    exact ih distinctRest there

/-- A key that is not there is put at the end. -/
theorem put_of_find_none (absent : find entries key = none) :
    put key new entries = entries ++ [(key, new)] := by
  induction entries with
  | nil => rfl
  | cons entry rest ih =>
    rw [find_cons] at absent
    split at absent
    · cases absent
    · next differs => rw [put, if_neg differs, ih absent, cons_append]

theorem length_put (found : find entries key = some old) :
    (put key new entries).length = entries.length := by
  induction entries with
  | nil => cases found
  | cons entry rest ih =>
    rw [find_cons] at found
    unfold put
    split at found
    · next same => rw [if_pos same, length_cons, length_cons]
    · next differs => rw [if_neg differs, length_cons, length_cons, ih found]

theorem holdings_put_none (absent : find entries key = none) :
    holdings holds (put key new entries) = holdings holds entries ++ holds key new := by
  rw [put_of_find_none absent]
  simp [holdings]

/-- What an entry loses and gains. -/
theorem holdings_put_perm (found : find entries key = some old) :
    (holdings holds (put key new entries) ++ holds key old).Perm
      (holdings holds entries ++ holds key new) := by
  induction entries with
  | nil => cases found
  | cons entry rest ih =>
    rw [find_cons] at found
    unfold put
    split at found
    · next same =>
        cases found
        subst same
        rw [if_pos rfl, holdings_cons, holdings_cons]
        calc
          holds entry.1 new ++ holdings holds rest ++ holds entry.1 entry.2
            |>.Perm (holds entry.1 entry.2 ++ (holds entry.1 new ++ holdings holds rest)) :=
              perm_append_comm
          _ |>.Perm (holds entry.1 entry.2 ++ (holdings holds rest ++ holds entry.1 new)) :=
              perm_append_comm.append_left _
          _ = holds entry.1 entry.2 ++ holdings holds rest ++ holds entry.1 new :=
              (append_assoc _ _ _).symm
    · next differs =>
        rw [if_neg differs, holdings_cons, holdings_cons, append_assoc, append_assoc]
        exact (ih found).append_left _

/-- What goes with an entry. -/
theorem holdings_erase_perm (found : find entries key = some old) :
    (holdings holds (erase entries key) ++ holds key old).Perm (holdings holds entries) := by
  induction entries with
  | nil => cases found
  | cons entry rest ih =>
    rw [find_cons] at found
    unfold erase
    split at found
    · next same =>
        cases found
        subst same
        rw [eraseP_cons_of_pos (by simp), holdings_cons]
        exact perm_append_comm
    · next differs =>
        rw [eraseP_cons_of_neg (by simpa using differs), holdings_cons, holdings_cons, append_assoc]
        exact (ih found).append_left _

end Grab.Lib.Assoc

import Mathlib.Data.List.Permutation

/-!
# Transitions from unordered edits

A partial function changes by a batch of edits in no particular order: the old
value of a key is taken away in one edit and the new one comes in another.  The
tracker reports each arrival together with the value it replaces.  It keeps the
current values and the values taken away so far in two association lists, which
are searched from the front.

What happens to one key does not depend on the edits of others, so every result
is proved for one key and its own edits.
-/

namespace Grab.Lib

open List Option

universe u v

variable {α : Type u} {β : Type v} [DecidableEq α]

/-! ## Association lists -/

namespace Assoc

/-- The value of the first entry of a key. -/
def find (entries : List (α × β)) (key : α) : Option β :=
  (entries.find? fun entry => entry.1 = key).map Prod.snd

/-- Overwrite the first entry of a key, or append one. -/
def put (key : α) (value : β) : List (α × β) → List (α × β)
  | [] => [(key, value)]
  | entry :: rest =>
    if entry.1 = key then (entry.1, value) :: rest else entry :: put key value rest

/-- Erase the first entry of a key. -/
def erase (entries : List (α × β)) (key : α) : List (α × β) :=
  entries.eraseP fun entry => entry.1 = key

/-- Erase every entry of a key. -/
def eraseAll (entries : List (α × β)) (key : α) : List (α × β) :=
  entries.filter fun entry => entry.1 ≠ key

/-- No key has two entries. -/
def Distinct (entries : List (α × β)) : Prop := (entries.map Prod.fst).Nodup

variable {entries : List (α × β)} {key other : α} {value : β}

@[simp]
theorem find_nil : find ([] : List (α × β)) key = none := rfl

theorem find_cons (entry : α × β) :
    find (entry :: entries) key = if entry.1 = key then some entry.2 else find entries key := by
  unfold find
  by_cases same : entry.1 = key
  · simp [same]
  · simp [same]

theorem find_eq_none (absent : key ∉ entries.map Prod.fst) : find entries key = none := by
  induction entries with
  | nil => rfl
  | cons entry rest ih =>
    rw [map_cons, mem_cons, not_or] at absent
    rw [find_cons, if_neg (Ne.symm absent.1)]
    exact ih absent.2

@[simp]
theorem find_put : find (put key value entries) other =
    if other = key then some value else find entries other := by
  induction entries with
  | nil => simp [put, find_cons, eq_comm]
  | cons entry rest ih =>
    unfold put
    by_cases same : entry.1 = key
    · subst same
      rw [if_pos rfl, find_cons, find_cons]
      by_cases asked : entry.1 = other
      · simp [asked]
      · simp [asked, Ne.symm asked]
    rw [if_neg same, find_cons, ih, find_cons]
    by_cases asked : entry.1 = other
    · subst asked
      simp [same]
    · simp [asked]

/-- What is found behind a put is what was put, or was there before. -/
theorem find_put_some {found : β} (there : find (put key value entries) other = some found) :
    (other = key ∧ found = value) ∨ (other ≠ key ∧ find entries other = some found) := by
  rw [find_put] at there
  split at there
  · next same => exact .inl ⟨same, (some.inj there).symm⟩
  · next differs => exact .inr ⟨differs, there⟩

theorem find_erase (distinct : Distinct entries) : find (erase entries key) other =
    if other = key then none else find entries other := by
  unfold erase
  induction entries with
  | nil => simp
  | cons entry rest ih =>
    rcases nodup_cons.mp distinct with ⟨fresh, restDistinct⟩
    by_cases same : entry.1 = key
    · subst same
      rw [eraseP_cons_of_pos (by simp), find_cons]
      by_cases asked : other = entry.1
      · subst asked
        simp [find_eq_none fresh]
      · simp [asked, Ne.symm asked]
    rw [eraseP_cons_of_neg (by simpa using same), find_cons, ih restDistinct, find_cons]
    by_cases asked : entry.1 = other
    · subst asked
      simp [same]
    · simp [asked]

theorem find_erase_some (distinct : Distinct entries)
    (there : find (erase entries key) other = some value) :
    other ≠ key ∧ find entries other = some value := by
  rw [find_erase distinct] at there
  split at there
  · cases there
  · next differs => exact ⟨differs, there⟩

@[simp]
theorem find_eraseAll : find (eraseAll entries key) other =
    if other = key then none else find entries other := by
  unfold eraseAll
  induction entries with
  | nil => simp
  | cons entry rest ih =>
    by_cases same : entry.1 = key
    · subst same
      rw [filter_cons_of_neg (by simp), ih, find_cons]
      by_cases asked : other = entry.1
      · simp [asked]
      · simp [asked, Ne.symm asked]
    rw [filter_cons_of_pos (by simpa using same), find_cons, ih, find_cons]
    by_cases asked : entry.1 = other
    · subst asked
      simp [same]
    · simp [asked]

theorem Distinct.erase (distinct : Distinct entries) (key : α) : Distinct (erase entries key) :=
  Nodup.sublist (eraseP_sublist.map Prod.fst) distinct

theorem Distinct.eraseAll (distinct : Distinct entries) (key : α) :
    Distinct (eraseAll entries key) :=
  Nodup.sublist (filter_sublist.map Prod.fst) distinct

theorem mem_put_keys (member : other ∈ (put key value entries).map Prod.fst) :
    other = key ∨ other ∈ entries.map Prod.fst := by
  induction entries with
  | nil => simpa [put] using member
  | cons entry rest ih =>
    unfold put at member
    split at member
    · exact .inr member
    rw [map_cons, mem_cons] at member
    rcases member with isFirst | isLater
    · exact .inr (by simp [isFirst])
    · exact (ih isLater).imp_right (mem_cons_of_mem _)

theorem mem_put {entry : α × β} (member : entry ∈ put key value entries) :
    entry = (key, value) ∨ entry ∈ entries := by
  induction entries with
  | nil => exact .inl (mem_singleton.mp member)
  | cons first rest ih =>
    unfold put at member
    split at member
    · rename_i same
      rcases mem_cons.mp member with isFirst | isLater
      · exact .inl (by rw [isFirst, same])
      · exact .inr (mem_cons_of_mem _ isLater)
    · rcases mem_cons.mp member with isFirst | isLater
      · exact .inr (mem_cons.mpr (.inl isFirst))
      · exact (ih isLater).imp_right (mem_cons_of_mem _)

theorem length_put_le (key : α) (value : β) (entries : List (α × β)) :
    (put key value entries).length ≤ entries.length + 1 := by
  induction entries with
  | nil => simp [put]
  | cons first rest ih =>
    unfold put
    split
    · simp
    · simpa using ih

theorem Distinct.put (distinct : Distinct entries) (key : α) (value : β) :
    Distinct (put key value entries) := by
  induction entries with
  | nil => simp [Assoc.put, Distinct]
  | cons entry rest ih =>
    rcases nodup_cons.mp distinct with ⟨fresh, restDistinct⟩
    unfold Assoc.put
    split
    · exact distinct
    rename_i apart
    refine nodup_cons.mpr ⟨?_, ih restDistinct⟩
    intro member
    rcases mem_put_keys member with same | old
    · exact apart same
    · exact fresh old

end Assoc

/-! ## The tracker -/

/-- An edit of a partial function. -/
inductive Change (α : Type u) (β : Type v) where
  /-- The key itself goes. -/
  | leave (key : α)
  | remove (key : α) (value : β)
  | add (key : α) (value : β)
  deriving DecidableEq

namespace Change

def key : Change α β → α
  | leave key => key
  | remove key _ => key
  | add key _ => key

end Change

/-- The values taken away in this batch and the values the keys have. -/
structure Tracker (α : Type u) (β : Type v) where
  pending : List (α × β) := []
  current : List (α × β) := []

/-- A new value, with the one it replaces. -/
structure Arrival (α : Type u) (β : Type v) where
  key : α
  value : β
  previous : Option β
  deriving DecidableEq

namespace Tracker

variable [DecidableEq β]

def step (tracker : Tracker α β) : Change α β → Tracker α β × List (Arrival α β)
  | .leave key => ({ tracker with current := Assoc.eraseAll tracker.current key }, [])
  | .remove key value =>
    ({ pending := Assoc.put key value tracker.pending
       current :=
        if Assoc.find tracker.current key = some value then Assoc.erase tracker.current key
        else tracker.current }, [])
  | .add key value =>
    ({ pending := Assoc.erase tracker.pending key
       current := Assoc.put key value tracker.current },
      [⟨key, value, (Assoc.find tracker.pending key).or (Assoc.find tracker.current key)⟩])

def run (tracker : Tracker α β) : List (Change α β) → Tracker α β × List (Arrival α β)
  | [] => (tracker, [])
  | change :: rest =>
    let after := tracker.step change
    ((after.1.run rest).1, after.2 ++ (after.1.run rest).2)

/-- Neither list has two entries of one key. -/
structure Distinct (tracker : Tracker α β) : Prop where
  pending : Assoc.Distinct tracker.pending
  current : Assoc.Distinct tracker.current

/-- What the two lists say of one key: the value taken away and the value there. -/
def view (tracker : Tracker α β) (key : α) : Option β × Option β :=
  (Assoc.find tracker.pending key, Assoc.find tracker.current key)

/-- The arrivals of one key. -/
def arrivalsOf (key : α) (arrivals : List (Arrival α β)) : List (Arrival α β) :=
  arrivals.filter fun arrival => arrival.key = key

/-- A step as its own key sees it. -/
def viewStep (state : Option β × Option β) : Change α β → (Option β × Option β) × List (Arrival α β)
  | .leave _ => ((state.1, none), [])
  | .remove _ value => ((some value, if state.2 = some value then none else state.2), [])
  | .add key value => ((none, some value), [⟨key, value, state.1.or state.2⟩])

def viewRun (state : Option β × Option β) :
    List (Change α β) → (Option β × Option β) × List (Arrival α β)
  | [] => (state, [])
  | change :: rest =>
    let after := viewStep state change
    ((viewRun after.1 rest).1, after.2 ++ (viewRun after.1 rest).2)

section

variable {tracker : Tracker α β} {key : α} (distinct : tracker.Distinct) {change : Change α β}

include distinct

theorem Distinct.step (change : Change α β) : (tracker.step change).1.Distinct := by
  cases change with
  | leave left => exact ⟨distinct.pending, distinct.current.eraseAll left⟩
  | remove removed value =>
    constructor
    case pending => exact distinct.pending.put removed value
    case current =>
      dsimp only [Tracker.step]
      split
      · exact distinct.current.erase removed
      · exact distinct.current
  | add added value => exact ⟨distinct.pending.erase added, distinct.current.put added value⟩

theorem Distinct.run (changes : List (Change α β)) : (tracker.run changes).1.Distinct := by
  induction changes generalizing tracker with
  | nil => exact distinct
  | cons change rest ih => exact ih (distinct.step change)

/-- An edit of the key itself. -/
theorem step_same (same : change.key = key) :
    (tracker.step change).1.view key = (viewStep (tracker.view key) change).1 ∧
      arrivalsOf key (tracker.step change).2 = (viewStep (tracker.view key) change).2 := by
  subst same
  cases change with
  | leave left => simp [step, view, viewStep, Change.key, arrivalsOf]
  | remove removed value =>
    refine ⟨?_, rfl⟩
    simp only [step, view, viewStep, Change.key, Assoc.find_put, if_true]
    by_cases there : Assoc.find tracker.current removed = some value
    · simp [there, Assoc.find_erase distinct.current]
    · simp [there]
  | add added value =>
    simp [step, view, viewStep, Change.key, arrivalsOf, Assoc.find_erase distinct.pending]

/-- An edit of another key. -/
theorem step_other (other : change.key ≠ key) :
    (tracker.step change).1.view key = tracker.view key ∧
      arrivalsOf key (tracker.step change).2 = [] := by
  cases change with
  | leave left =>
    have apart : key ≠ left := fun same => other same.symm
    simp [step, view, arrivalsOf, apart]
  | remove removed value =>
    have apart : key ≠ removed := fun same => other same.symm
    refine ⟨?_, rfl⟩
    simp only [step, view, Assoc.find_put, if_neg apart]
    by_cases there : Assoc.find tracker.current removed = some value
    · simp [there, Assoc.find_erase distinct.current, apart]
    · simp [there]
  | add added value =>
    have apart : key ≠ added := fun same => other same.symm
    simp [step, view, arrivalsOf, Assoc.find_erase distinct.pending, apart, Ne.symm apart]

omit distinct in
omit [DecidableEq β] in
theorem arrivalsOf_append (first second : List (Arrival α β)) :
    arrivalsOf key (first ++ second) = arrivalsOf key first ++ arrivalsOf key second :=
  filter_append first second

/-- A batch, as one key sees it, is the batch of its own edits. -/
theorem run_view (changes : List (Change α β)) : (tracker.run changes).1.view key =
        (viewRun (tracker.view key) (changes.filter fun change => change.key = key)).1 ∧
      arrivalsOf key (tracker.run changes).2 =
        (viewRun (tracker.view key) (changes.filter fun change => change.key = key)).2 := by
  induction changes generalizing tracker with
  | nil => exact ⟨rfl, rfl⟩
  | cons change rest ih =>
    rcases ih (distinct.step change) with ⟨endView, restArrivals⟩
    dsimp only [run]
    rw [arrivalsOf_append, endView, restArrivals]
    by_cases same : change.key = key
    · rcases step_same distinct same with ⟨nextView, arrived⟩
      rw [filter_cons_of_pos (by simpa using same), nextView, arrived]
      exact ⟨rfl, rfl⟩
    · rcases step_other distinct same with ⟨nextView, arrived⟩
      rw [filter_cons_of_neg (by simpa using same), nextView, arrived]
      exact ⟨rfl, rfl⟩

end

/-! ## What a batch does to one key -/

/-- What is to be reported of a key that had one value and now has another. -/
def turn (key : α) (before after : Option β) : List (Arrival α β) :=
  match after with
  | none => []
  | some value => if before = some value then [] else [⟨key, value, before⟩]

/-- The batch takes a key from one value to another, in some order.  The key itself
goes only when it is left without a value. -/
structure Turns (key : α) (before after : Option β) (changes : List (Change α β)) : Prop where
  once : changes.Nodup
  added : ∀ value, .add key value ∈ changes ↔ after = some value ∧ before ≠ some value
  removed : ∀ value, .remove key value ∈ changes ↔ before = some value ∧ after ≠ some value
  left : .leave key ∈ changes → after = none

section

variable {key : α} {before after : Option β} {changes : List (Change α β)}

/-- The edits of one key. -/
def ownChanges (key : α) (changes : List (Change α β)) : List (Change α β) :=
  changes.filter fun change => change.key = key

omit [DecidableEq β] in
theorem mem_ownChanges {change : Change α β} :
    change ∈ ownChanges key changes ↔ change ∈ changes ∧ change.key = key := by
  simp [ownChanges]

omit [DecidableEq α] in
/-- Without arrivals nothing is reported, and a value that is taken away is gone at
the end. -/
theorem viewRun_of_no_add {own : List (Change α β)} {pending current : Option β}
    (noAdd : ∀ added value, .add added value ∉ own) : (viewRun (pending, current) own).2 = [] ∧
      (current = none → (viewRun (pending, current) own).1.2 = none) ∧
      ∀ removed value, current = some value → .remove removed value ∈ own →
        (viewRun (pending, current) own).1.2 = none := by
  induction own generalizing pending current with
  | nil => simp [viewRun]
  | cons change rest ih =>
    have restNoAdd : ∀ added value, Change.add added value ∉ rest :=
      fun added value member => noAdd added value (mem_cons_of_mem _ member)
    cases change with
    | add added value => exact absurd mem_cons_self (noAdd added value)
    | leave left =>
      rcases @ih pending none restNoAdd with ⟨silent, gone, _⟩
      exact ⟨silent, fun _ => gone rfl, fun _ _ _ _ => gone rfl⟩
    | remove removed value =>
      rcases @ih (some value) (if current = some value then none else current) restNoAdd with
        ⟨silent, gone, later⟩
      refine ⟨silent, ?_, ?_⟩
      · intro isNone
        apply gone
        simp [isNone]
      intro other old isCurrent member
      by_cases same : old = value
      · apply gone
        simp [isCurrent, same]
      rcases mem_cons.mp member with isHead | inRest
      · exact absurd (Change.remove.inj isHead).2 same
      · apply later other old _ inRest
        simp [isCurrent, same]

omit [DecidableEq β] in
/-- The edits of a key are known up to order from those it can have. -/
theorem ownChanges_perm (once : changes.Nodup) {expected : List (Change α β)}
    (distinct : expected.Nodup) (ownKey : ∀ change ∈ expected, change.key = key)
    (leaves : .leave key ∈ changes ↔ .leave key ∈ expected)
    (removes : ∀ value, .remove key value ∈ changes ↔ .remove key value ∈ expected)
    (adds : ∀ value, .add key value ∈ changes ↔ .add key value ∈ expected) :
    (ownChanges key changes).Perm expected := by
  apply (perm_ext_iff_of_nodup (once.filter _) distinct).mpr
  intro edit
  change edit ∈ ownChanges key changes ↔ edit ∈ expected
  have sameMembers : edit.key = key → (edit ∈ changes ↔ edit ∈ expected) := by
    cases edit with
    | leave left =>
      rintro rfl
      exact leaves
    | remove removed value =>
      rintro rfl
      exact removes value
    | add added value =>
      rintro rfl
      exact adds value
  rw [mem_ownChanges]
  constructor
  · rintro ⟨member, same⟩
    exact (sameMembers same).mp member
  · intro member
    exact ⟨(sameMembers (ownKey edit member)).mpr member, ownKey edit member⟩

theorem Turns.viewRun (turns : Turns key before after changes) (pending : Option β) :
    (viewRun (pending, before) (ownChanges key changes)).1.2 = after ∧
      (pending = none →
        (viewRun (pending, before) (ownChanges key changes)).2 = turn key before after) := by
  cases after with
  | none =>
    have noAdd : ∀ added value, Change.add added value ∉ ownChanges key changes := by
      intro added value member
      rcases mem_ownChanges.mp member with ⟨inBatch, rfl⟩
      exact absurd ((turns.added value).mp inBatch).1 (by simp)
    rcases @viewRun_of_no_add _ _ _ _ pending before noAdd with ⟨silent, gone, taken⟩
    refine ⟨?_, fun _ => silent⟩
    cases before with
    | none => exact gone rfl
    | some old =>
      apply taken key old rfl
      exact mem_ownChanges.mpr ⟨(turns.removed old).mpr ⟨rfl, by simp⟩, rfl⟩
  | some new =>
    have stays : Change.leave key ∉ changes := fun member => by
      cases turns.left member
    by_cases same : before = some new
    · -- nothing happens to the key
      have own : (ownChanges key changes).Perm [] := by
        apply ownChanges_perm turns.once nodup_nil (by simp)
        · simpa using stays
        · intro value
          rw [turns.removed, same]
          simp
        · intro value
          rw [turns.added, same]
          simp
      rw [own.eq_nil]
      simp [Tracker.viewRun, turn, same]
    · have addIff : ∀ value, .add key value ∈ changes ↔ value = new := by
        intro value
        rw [turns.added]
        constructor
        · rintro ⟨isNew, _⟩
          exact (some.inj isNew).symm
        · rintro rfl
          exact ⟨rfl, same⟩
      cases before with
      | none =>
        have own : (ownChanges key changes).Perm [.add key new] := by
          apply ownChanges_perm turns.once (nodup_singleton _)
          · simp [Change.key]
          · simpa using stays
          · intro value
            rw [turns.removed]
            simp
          · simp [addIff]
        rw [perm_singleton.mp own]
        refine ⟨rfl, ?_⟩
        rintro rfl
        simp [Tracker.viewRun, viewStep, turn]
      | some old =>
        have differ : old ≠ new := fun equal => same (congrArg some equal)
        have own : (ownChanges key changes).Perm [.remove key old, .add key new] := by
          apply ownChanges_perm turns.once (by simp)
          · simp [Change.key]
          · simpa using stays
          · intro value
            rw [turns.removed]
            simp only [some.injEq, mem_cons, Change.remove.injEq, true_and,
              reduceCtorEq, not_mem_nil, or_false]
            constructor
            · rintro ⟨rfl, _⟩
              rfl
            · rintro rfl
              exact ⟨rfl, fun equal => differ (some.inj equal.symm)⟩
          · simp [addIff]
        -- the old value may go before or after the new one comes
        rcases perm_pair.mp own with removedFirst | addedFirst
        · rw [removedFirst]
          refine ⟨rfl, fun _ => ?_⟩
          simp [Tracker.viewRun, viewStep, turn, differ]
        rw [addedFirst]
        constructor
        · simp [Tracker.viewRun, viewStep, Ne.symm differ]
        · rintro rfl
          simp [Tracker.viewRun, viewStep, turn, differ]

/-- A batch is reported as it is, whatever the order of its edits, and the tracker
ends with the new value. -/
theorem Turns.run {tracker : Tracker α β} (distinct : tracker.Distinct)
    (turns : Turns key (Assoc.find tracker.current key) after changes) :
    Assoc.find (tracker.run changes).1.current key = after ∧
      (tracker.pending = [] →
        arrivalsOf key (tracker.run changes).2 =
          turn key (Assoc.find tracker.current key) after) := by
  rcases run_view distinct changes with ⟨endView, arrivals⟩
  rcases turns.viewRun (Assoc.find tracker.pending key) with ⟨ends, reported⟩
  constructor
  · exact (congrArg Prod.snd endView).trans ends
  intro cleared
  rw [arrivals]
  apply reported
  rw [cleared]
  rfl

theorem run_append (tracker : Tracker α β) (first second : List (Change α β)) :
    tracker.run (first ++ second) =
      (((tracker.run first).1.run second).1,
        (tracker.run first).2 ++ ((tracker.run first).1.run second).2) := by
  induction first generalizing tracker with
  | nil => rfl
  | cons change rest ih => simp [run, ih]

end

end Tracker

end Grab.Lib

import Grab.Desktop.ScratchKeycode

/-!
# Leases of scratch keycodes

What the pool keeps as long as no lease is asked for over a row that an earlier failure left behind:
entries with their own keysyms and keycodes, references that are counted, and rows that are changed
for a lease only.
-/

namespace Grab.Desktop

open List Function Bool

namespace ScratchKeycodePool

theorem Row.set_zero_of_empty {row : Row} (empty : row.Empty) : row.set 0 0 = row := by
  cases row with
  | nil => exact absurd rfl empty.1
  | cons symbol rest => rw [set_cons_zero, empty.2 symbol mem_cons_self]

theorem Row.head_set {row : Row} (empty : row.Empty) (keysym : Keysym) :
    (row.set 0 keysym).head? = some keysym := by
  cases row with
  | nil => exact absurd rfl empty.1
  | cons symbol rest => rfl

variable {old new : Entry}

theorem map_replace {α : Type} (image : Entry → α) (entries : List Entry)
    (same : image new = image old) : (entries.replace old new).map image = entries.map image := by
  induction entries with
  | nil => rfl
  | cons entry rest later =>
    rw [replace_cons]
    split
    · rename_i isOld
      rw [map_cons, map_cons, same, beq_iff_eq.mp isOld]
    · rw [map_cons, map_cons, later]

variable {entries : List Entry} {keycode otherKeycode : Keycode} {old new entry : Entry}
  {keysym other : Keysym}

theorem mem_of_mem_replace (nodup : entries.Nodup) (member : entry ∈ entries.replace old new) :
    entry = new ∨ entry ∈ entries ∧ entry ≠ old := by
  induction entries with
  | nil => cases member
  | cons first rest later =>
    have ⟨notRest, restNodup⟩ := nodup_cons.mp nodup
    rw [replace_cons] at member
    split at member
    · rename_i isOld
      rcases mem_cons.mp member with isNew | inRest
      · exact .inl isNew
      right
      refine ⟨mem_cons_of_mem _ inRest, ?_⟩
      rintro rfl
      rw [← beq_iff_eq.mp isOld] at notRest
      exact notRest inRest
    · rename_i notOld
      rcases mem_cons.mp member with rfl | inRest
      · right
        refine ⟨mem_cons_self, ?_⟩
        rintro rfl
        exact ne_of_beq_false notOld rfl
      · rcases later restNodup inRest with isNew | ⟨isRest, different⟩
        · exact .inl isNew
        · exact .inr ⟨mem_cons_of_mem _ isRest, different⟩

theorem mem_replace_self (member : old ∈ entries) : new ∈ entries.replace old new := by
  induction entries with
  | nil => cases member
  | cons first rest later =>
    rw [replace_cons]
    split
    · exact mem_cons_self
    rename_i notOld
    rcases mem_cons.mp member with rfl | inRest
    · exact absurd rfl (ne_of_beq_false notOld)
    · exact mem_cons_of_mem _ (later inRest)

theorem mem_replace_of_ne (member : entry ∈ entries) (different : entry ≠ old) :
    entry ∈ entries.replace old new := by
  induction entries with
  | nil => cases member
  | cons first rest later =>
    rw [replace_cons]
    split
    · rename_i isOld
      rcases mem_cons.mp member with rfl | inRest
      · exact absurd (beq_iff_eq.mp isOld).symm different
      · exact mem_cons_of_mem _ inRest
    · rcases mem_cons.mp member with rfl | inRest
      · exact mem_cons_self
      · exact mem_cons_of_mem _ (later inRest)

/-- How many live leases there are of each keysym and keycode. -/
abbrev Held := Keysym → Keycode → Nat

/-- One lease more. -/
def Held.add (held : Held) (keysym : Keysym) (keycode : Keycode) : Held :=
  fun otherKeysym otherKeycode =>
    held otherKeysym otherKeycode +
      if otherKeysym = keysym ∧ otherKeycode = keycode then 1 else 0

theorem Held.add_self (held : Held) (keysym : Keysym) (keycode : Keycode) :
    held.add keysym keycode keysym keycode = held keysym keycode + 1 := by
  unfold Held.add
  rw [if_pos ⟨rfl, rfl⟩]

theorem Held.add_of_ne (held : Held) (different : ¬(other = keysym ∧ otherKeycode = keycode)) :
    held.add keysym keycode other otherKeycode = held other otherKeycode := by
  unfold Held.add
  rw [if_neg different, Nat.add_zero]

theorem Held.ne_zero_add {held : Held} (isHeld : held other otherKeycode ≠ 0) :
    held.add keysym keycode other otherKeycode ≠ 0 := by
  unfold Held.add
  omega

structure Sound (before : Keyboard) (pool : ScratchKeycodePool) (held : Held) : Prop where
  keysyms : (pool.entries.map Entry.keysym).Nodup
  keycodes : (pool.entries.map Entry.keycode).Nodup
  original : ∀ entry ∈ pool.entries,
    entry.original = before.rows entry.keycode ∧ (before.rows entry.keycode).Empty ∧
      entry.keycode ∈ pool.chosen.map Prod.fst
  /-- A row is as it was, or was empty and has one keysym now. -/
  rows : ∀ keycode, pool.keyboard.rows keycode = before.rows keycode ∨
    ∃ keysym, keysym ≠ 0 ∧ pool.keyboard.rows keycode = (before.rows keycode).set 0 keysym
  leased : ∀ keysym keycode, held keysym keycode ≠ 0 →
    ∃ entry ∈ pool.entries, entry.keysym = keysym ∧ entry.keycode = keycode
  mapped : ∀ keysym keycode, held keysym keycode ≠ 0 →
    pool.keyboard.rows keycode = (before.rows keycode).set 0 keysym
  bounded : ∀ entry ∈ pool.entries, held entry.keysym entry.keycode ≤ entry.references
  counted : ∀ entry ∈ pool.entries,
    pool.keyboard.rows entry.keycode ≠ before.rows entry.keycode →
    held entry.keysym entry.keycode ≠ 0 → entry.references = held entry.keysym entry.keycode
  strays : pool.faultless = true → ∀ keycode,
    pool.keyboard.rows keycode ≠ before.rows keycode → ∃ keysym, held keysym keycode ≠ 0
  chosen : ∀ choice ∈ pool.chosen, Row.Empty choice.2
  replaced : ∀ keycode ∈ pool.replaced, keycode ∈ pool.chosen.map Prod.fst
  kept : ∀ keycode ∉ pool.replaced, pool.keyboard.rows keycode = before.rows keycode

namespace Sound

variable {before : Keyboard} {pool : ScratchKeycodePool} {held : Held}
  (sound : Sound before pool held)

include sound

theorem nodup : pool.entries.Nodup := Nodup.of_map _ sound.keysyms

theorem eq_of_keysym {entry other : Entry} (member : entry ∈ pool.entries)
    (otherMember : other ∈ pool.entries) (same : entry.keysym = other.keysym) : entry = other :=
  inj_on_of_nodup_map sound.keysyms member otherMember same

/-- Nothing but the record of failures differs. -/
theorem faulty : Sound before { pool with faultless := false } held :=
  { sound with strays := nofun }

/-- A held keycode has one keysym. -/
theorem held_keysym (member : entry ∈ pool.entries) (isHeld : held keysym entry.keycode ≠ 0) :
    keysym = entry.keysym := by
  rcases sound.leased keysym _ isHeld with ⟨other, otherMember, isKeysym, isKeycode⟩
  rw [← isKeysym, inj_on_of_nodup_map sound.keycodes otherMember member isKeycode]

theorem find_entry (member : entry ∈ pool.entries) : (pool.entries.find? fun other =>
      other.keysym == entry.keysym && other.keycode == entry.keycode) = some entry := by
  have isSome : (pool.entries.find? fun other =>
      other.keysym == entry.keysym && other.keycode == entry.keycode).isSome := by
    rw [find?_isSome]
    refine ⟨entry, member, ?_⟩
    rw [beq_self_eq_true, beq_self_eq_true, Bool.and_self]
  rcases Option.isSome_iff_exists.mp isSome with ⟨found, isFound⟩
  have same := find?_some isFound
  rw [and_eq_true, beq_iff_eq, beq_iff_eq] at same
  rw [isFound, sound.eq_of_keysym (mem_of_find?_eq_some isFound) member same.1]

omit sound in
/-- The last lease of an entry is gone, and what it leaves behind is on record. -/
theorem drop (sound : Sound before pool (held.add entry.keysym entry.keycode))
    (unheld : held entry.keysym entry.keycode = 0) (faulty : pool.faultless = false) :
    Sound before pool held := by
  have stillHeld : ∀ keysym keycode, held keysym keycode ≠ 0 →
      held.add entry.keysym entry.keycode keysym keycode ≠ 0 :=
    fun _ _ isHeld => Held.ne_zero_add isHeld
  refine { sound with
    leased := ?leased, mapped := ?mapped, bounded := ?bounded, counted := ?counted,
    strays := ?strays }
  case leased =>
    intro keysym keycode isHeld
    exact sound.leased keysym keycode (stillHeld keysym keycode isHeld)
  case mapped =>
    intro keysym keycode isHeld
    exact sound.mapped keysym keycode (stillHeld keysym keycode isHeld)
  case bounded =>
    intro other member
    exact Nat.le_trans (Nat.le_add_right _ _) (sound.bounded other member)
  case counted =>
    intro other member changed isHeld
    have same : held.add entry.keysym entry.keycode other.keysym other.keycode =
        held other.keysym other.keycode := by
      apply Held.add_of_ne
      rintro ⟨isKeysym, isKeycode⟩
      rw [isKeysym, isKeycode] at isHeld
      exact isHeld unheld
    rw [← same]
    exact sound.counted other member changed (stillHeld _ _ isHeld)
  case strays =>
    intro clean
    rw [faulty] at clean
    cases clean

/-- The references of one entry change, and with them the leases of its keysym and keycode. -/
theorem recount (member : entry ∈ pool.entries) {now : Held} {references : Nat}
    (others : ∀ keysym keycode, ¬(keysym = entry.keysym ∧ keycode = entry.keycode) →
      now keysym keycode = held keysym keycode) (mapped : now entry.keysym entry.keycode ≠ 0 →
      pool.keyboard.rows entry.keycode = (before.rows entry.keycode).set 0 entry.keysym)
    (bounded : now entry.keysym entry.keycode ≤ references)
    (counted : pool.keyboard.rows entry.keycode ≠ before.rows entry.keycode →
      now entry.keysym entry.keycode ≠ 0 → references = now entry.keysym entry.keycode)
    (strays : pool.faultless = true →
      pool.keyboard.rows entry.keycode ≠ before.rows entry.keycode →
      held entry.keysym entry.keycode ≠ 0 → now entry.keysym entry.keycode ≠ 0) :
    Sound before
      { pool with entries := pool.entries.replace entry { entry with references := references } }
      now := by
  have elsewhere : ∀ other ∈ pool.entries, other ≠ entry →
      now other.keysym other.keycode = held other.keysym other.keycode := by
    intro other otherMember different
    apply others
    intro same
    exact different (sound.eq_of_keysym otherMember member same.1)
  constructor
  case keysyms =>
    rw [map_replace]
    · exact sound.keysyms
    · rfl
  case keycodes =>
    rw [map_replace]
    · exact sound.keycodes
    · rfl
  case original =>
    intro other otherMember
    rcases mem_of_mem_replace sound.nodup otherMember with rfl | ⟨old, _⟩
    · exact sound.original entry member
    · exact sound.original other old
  case rows => exact sound.rows
  case leased =>
    intro keysym keycode isHeld
    by_cases isEntry : keysym = entry.keysym ∧ keycode = entry.keycode
    · rw [isEntry.1, isEntry.2]
      exact ⟨_, mem_replace_self member, rfl, rfl⟩
    rw [others keysym keycode isEntry] at isHeld
    rcases sound.leased keysym keycode isHeld with ⟨other, otherMember, rfl, rfl⟩
    refine ⟨other, mem_replace_of_ne otherMember ?_, rfl, rfl⟩
    rintro rfl
    exact isEntry ⟨rfl, rfl⟩
  case mapped =>
    intro keysym keycode isHeld
    by_cases isEntry : keysym = entry.keysym ∧ keycode = entry.keycode
    · rw [isEntry.1, isEntry.2] at isHeld ⊢
      exact mapped isHeld
    · rw [others keysym keycode isEntry] at isHeld
      exact sound.mapped keysym keycode isHeld
  case bounded =>
    intro other otherMember
    rcases mem_of_mem_replace sound.nodup otherMember with rfl | ⟨old, different⟩
    · exact bounded
    · rw [elsewhere other old different]
      exact sound.bounded other old
  case counted =>
    intro other otherMember changed otherHeld
    rcases mem_of_mem_replace sound.nodup otherMember with rfl | ⟨old, different⟩
    · exact counted changed otherHeld
    · rw [elsewhere other old different] at otherHeld ⊢
      exact sound.counted other old changed otherHeld
  case strays =>
    intro clean keycode changed
    rcases sound.strays clean keycode changed with ⟨keysym, isHeld⟩
    refine ⟨keysym, ?_⟩
    by_cases isEntry : keysym = entry.keysym ∧ keycode = entry.keycode
    · rw [isEntry.2] at changed
      rw [isEntry.1, isEntry.2] at isHeld ⊢
      exact strays clean changed isHeld
    · rw [others keysym keycode isEntry]
      exact isHeld
  case chosen => exact sound.chosen
  case replaced => exact sound.replaced
  case kept => exact sound.kept

omit sound in
/-- One lease less of an entry that has more references. -/
theorem decrement (sound : Sound before pool (held.add entry.keysym entry.keycode))
    (member : entry ∈ pool.entries) (several : 1 < entry.references) :
    Sound before
      { pool with
        entries := pool.entries.replace entry
          { entry with references := entry.references - 1 } } held := by
  have isHeld : held.add entry.keysym entry.keycode entry.keysym entry.keycode =
      held entry.keysym entry.keycode + 1 := Held.add_self ..
  apply sound.recount member
  case others => exact fun keysym keycode different => (Held.add_of_ne held different).symm
  case mapped => exact fun stillHeld => sound.mapped _ _ (Held.ne_zero_add stillHeld)
  case bounded =>
    have bound := sound.bounded entry member
    omega
  case counted =>
    intro changed _
    have count := sound.counted entry member changed (by omega)
    omega
  case strays =>
    -- The references were counted, and one is left.
    intro _ changed wasHeld
    have count := sound.counted entry member changed wasHeld
    omega

omit sound in
/-- The row of an entry is put back, and no lease of it is left. -/
theorem putBack (wasHeld : Sound before pool (held.add entry.keysym entry.keycode))
    (member : entry ∈ pool.entries) (unheld : held entry.keysym entry.keycode = 0)
    (faultless : Bool) (still : faultless = true → pool.faultless = true) :
    Sound before
      { pool.replace true entry.keycode entry.original with faultless := faultless } held := by
  have sound : Sound before { pool with faultless := false } held := wasHeld.faulty.drop unheld rfl
  have none_ : ∀ keysym keycode, held keysym keycode ≠ 0 → keycode ≠ entry.keycode := by
    rintro keysym keycode isHeld rfl
    rw [sound.held_keysym member isHeld] at isHeld
    exact isHeld unheld
  have row : ∀ keycode, keycode ≠ entry.keycode →
      Function.update pool.keyboard.rows entry.keycode entry.original keycode =
        pool.keyboard.rows keycode := fun keycode different => update_of_ne different _ _
  have rowBack : Function.update pool.keyboard.rows entry.keycode entry.original entry.keycode =
      before.rows entry.keycode := by
    rw [update_self, (sound.original entry member).1]
  have moved : ∀ keycode, Function.update pool.keyboard.rows entry.keycode entry.original keycode ≠
      before.rows keycode → keycode ≠ entry.keycode := by
    rintro keycode changed rfl
    exact changed rowBack
  refine { sound with
    rows := ?rows, mapped := ?mapped, counted := ?counted, strays := ?strays, replaced := ?replaced,
    kept := ?kept }
  case rows =>
    intro keycode
    by_cases isEntry : keycode = entry.keycode
    · rw [isEntry]
      exact .inl rowBack
    rcases sound.rows keycode with same | changed
    · exact .inl ((row keycode isEntry).trans same)
    · rcases changed with ⟨keysym, isSet, changed⟩
      exact .inr ⟨keysym, isSet, (row keycode isEntry).trans changed⟩
  case mapped =>
    intro keysym keycode isHeld
    exact (row keycode (none_ keysym keycode isHeld)).trans (sound.mapped keysym keycode isHeld)
  case counted =>
    intro other otherMember changed
    apply sound.counted other otherMember
    rwa [← row other.keycode (moved other.keycode changed)]
  case strays =>
    intro clean keycode changed
    have different := moved keycode changed
    change Function.update _ _ _ _ ≠ _ at changed
    rw [row keycode different] at changed
    rcases wasHeld.strays (still clean) keycode changed with ⟨keysym, isHeld⟩
    refine ⟨keysym, ?_⟩
    rwa [Held.add_of_ne held fun same => different same.2] at isHeld
  case replaced =>
    intro keycode isReplaced
    rcases mem_cons.mp isReplaced with rfl | earlier
    · exact (sound.original entry member).2.2
    · exact sound.replaced keycode earlier
  case kept =>
    intro keycode notReplaced
    have ⟨different, earlier⟩ := not_or.mp (mt mem_cons.mpr notReplaced)
    exact (row keycode different).trans (sound.kept keycode earlier)

/-- An entry without leases whose row is as it was can go. -/
theorem erase (member : entry ∈ pool.entries) (unheld : held entry.keysym entry.keycode = 0) :
    Sound before { pool with entries := pool.entries.erase entry } held := by
  have isOld : ∀ {other : Entry}, other ∈ pool.entries.erase entry → other ∈ pool.entries :=
    mem_of_mem_erase
  have sublist : (pool.entries.erase entry).Sublist pool.entries := erase_sublist
  refine { sound with
    keysyms := ?keysyms, keycodes := ?keycodes, original := ?original, leased := ?leased,
    bounded := ?bounded, counted := ?counted }
  case keysyms => exact sound.keysyms.sublist (sublist.map _)
  case keycodes => exact sound.keycodes.sublist (sublist.map _)
  case original => exact fun other otherMember => sound.original other (isOld otherMember)
  case leased =>
    intro keysym keycode isHeld
    rcases sound.leased keysym keycode isHeld with ⟨other, otherMember, rfl, rfl⟩
    refine ⟨other, ?_, rfl, rfl⟩
    rw [mem_erase_of_ne]
    · exact otherMember
    · rintro rfl
      exact isHeld unheld
  case bounded => exact fun other otherMember => sound.bounded other (isOld otherMember)
  case counted => exact fun other otherMember => sound.counted other (isOld otherMember)

/-- The row of an entry is set to what it is. -/
theorem rewrite (member : entry ∈ pool.entries)
    (same : pool.keyboard.rows entry.keycode = entry.original) :
    Sound before
      { pool.replace true entry.keycode entry.original with faultless := false } held := by
  have rows : Function.update pool.keyboard.rows entry.keycode entry.original =
      pool.keyboard.rows := by
    rw [← same, update_eq_self]
  unfold replace
  rw [if_pos rfl, rows]
  refine { sound with
    strays := nofun
    replaced := fun keycode isReplaced => ?_
    kept := fun keycode notReplaced => ?_ }
  · rcases mem_cons.mp isReplaced with rfl | earlier
    · exact (sound.original entry member).2.2
    · exact sound.replaced keycode earlier
  · exact sound.kept keycode fun earlier => notReplaced (mem_cons_of_mem _ earlier)

/-! ### Leases that go -/

omit sound in
theorem release (sound : Sound before pool (held.add keysym keycode)) (answers : Answers) :
    Sound before (pool.release keysym keycode answers).1 held := by
  rcases sound.leased keysym keycode (by rw [Held.add_self]; omega) with
    ⟨entry, member, rfl, rfl⟩
  unfold ScratchKeycodePool.release
  rw [sound.find_entry member]
  dsimp only
  split
  · rename_i several
    exact sound.decrement member several
  rename_i single
  have bound := sound.bounded entry member
  rw [Held.add_self] at bound
  have unheld : held entry.keysym entry.keycode = 0 := by omega
  cases answers.replace with
  | false => exact sound.faulty.drop unheld rfl
  | true =>
    cases answers.fence with
    | false =>
      have faultless : (pool.faultless && false) = true → pool.faultless = true := by
        rw [Bool.and_false]
        exact nofun
      exact sound.putBack member unheld _ faultless
    | true =>
      have faultless : (pool.faultless && true) = true → pool.faultless = true := by
        rw [Bool.and_true]
        exact id
      exact (sound.putBack member unheld _ faultless).erase member unheld

/-- A release that fails, by a lease that stays. -/
theorem releaseFails (isHeld : held keysym keycode ≠ 0) (answers : Answers)
    (fails : (pool.release keysym keycode answers).2 = false)
    (careful : keysym ≠ 0 → ∀ entry ∈ pool.entries, entry.keysym = keysym →
      entry.references ≤ 1 → answers.replace = true → answers.fence = true) :
    Sound before (pool.release keysym keycode answers).1 held := by
  rcases sound.leased keysym keycode isHeld with ⟨entry, member, rfl, rfl⟩
  unfold ScratchKeycodePool.release at fails ⊢
  rw [sound.find_entry member] at fails ⊢
  dsimp only at fails ⊢
  by_cases several : 1 < entry.references
  · rw [if_pos several] at fails
    cases fails
  rw [if_neg several] at fails ⊢
  cases replaced : answers.replace with
  | false => exact sound.faulty
  | true =>
    cases fenced : answers.fence with
    | false =>
      have zero : entry.keysym = 0 := by
        by_contra isSet
        have impossible := careful isSet entry member rfl (Nat.not_lt.mp several) replaced
        rw [fenced] at impossible
        cases impossible
      have ⟨original, empty, _⟩ := sound.original entry member
      have same : pool.keyboard.rows entry.keycode = entry.original := by
        rw [sound.mapped _ _ isHeld, zero, Row.set_zero_of_empty empty, original]
      have faultless : (pool.faultless && false) = false := and_false _
      have rewritten := sound.rewrite member same
      rw [← faultless] at rewritten
      exact rewritten
    | true =>
      rw [replaced, fenced] at fails
      cases fails

/-! ### Leases that are given -/

/-- One lease more of an entry. -/
theorem increment (member : entry ∈ pool.entries)
    (mapped : pool.keyboard.rows entry.keycode = entry.original.set 0 entry.keysym)
    (faultless : pool.faultless = true) :
    Sound before
      { pool with
        entries := pool.entries.replace entry { entry with references := entry.references + 1 } }
      (held.add entry.keysym entry.keycode) := by
  apply sound.recount member
  case others => exact fun keysym keycode different => Held.add_of_ne held different
  case mapped =>
    rw [← (sound.original entry member).1]
    exact fun _ => mapped
  case bounded =>
    have bound := sound.bounded entry member
    rw [Held.add_self]
    omega
  case counted =>
    -- The row is changed, so that a lease has it already.
    intro changed _
    rcases sound.strays faultless entry.keycode changed with ⟨keysym, isHeld⟩
    rw [sound.held_keysym member isHeld] at isHeld
    have count := sound.counted entry member changed isHeld
    rw [Held.add_self]
    omega
  case strays => exact fun _ _ isHeld => Held.ne_zero_add isHeld

/-- An empty row is as it was before. -/
theorem empty_row (empty : (pool.keyboard.rows keycode).Empty) :
    pool.keyboard.rows keycode = before.rows keycode := by
  rcases sound.rows keycode with same | ⟨keysym, isSet, changed⟩
  · exact same
  rw [changed] at empty
  cases row : before.rows keycode with
  | nil =>
    rw [row] at empty
    exact absurd rfl empty.1
  | cons symbol rest =>
    rw [row] at empty
    exact absurd (empty.2 keysym mem_cons_self) isSet

theorem choose (empty : (pool.keyboard.rows keycode).Empty) :
    Sound before
      { pool with chosen := (keycode, pool.keyboard.rows keycode) :: pool.chosen } held := by
  refine { sound with
    original := fun entry member => ?_
    chosen := fun choice isChosen => ?_
    replaced := fun other isReplaced => ?_ }
  · have ⟨original, wasEmpty, isChosen⟩ := sound.original entry member
    exact ⟨original, wasEmpty, mem_cons_of_mem _ isChosen⟩
  · rcases mem_cons.mp isChosen with rfl | earlier
    · exact empty
    · exact sound.chosen choice earlier
  · exact mem_cons_of_mem _ (sound.replaced other isReplaced)

/-- The row of a keycode without an entry is set, and a failure is on record. -/
theorem overwrite (keysym : Keysym) (empty : (before.rows keycode).Empty)
    (unused : ∀ entry ∈ pool.entries, entry.keycode ≠ keycode)
    (isChosen : keycode ∈ pool.chosen.map Prod.fst) (faulty : pool.faultless = false) :
    Sound before (pool.replace true keycode ((before.rows keycode).set 0 keysym)) held := by
  have row : ∀ other, other ≠ keycode →
      Function.update pool.keyboard.rows keycode ((before.rows keycode).set 0 keysym) other =
        pool.keyboard.rows other := fun other different => update_of_ne different _ _
  refine { sound with
    rows := ?rows, mapped := ?mapped, counted := ?counted, strays := ?strays, replaced := ?replaced,
    kept := ?kept }
  case rows =>
    intro other
    change Function.update _ _ _ other = _ ∨ ∃ keysym, _ ∧ Function.update _ _ _ other = _
    by_cases isKeycode : other = keycode
    · rw [isKeycode, update_self]
      by_cases zero : keysym = 0
      · rw [zero, Row.set_zero_of_empty empty]
        exact .inl rfl
      · exact .inr ⟨keysym, zero, rfl⟩
    · rw [row other isKeycode]
      exact sound.rows other
  case mapped =>
    intro otherKeysym other isHeld
    rcases sound.leased otherKeysym other isHeld with ⟨entry, member, _, rfl⟩
    exact (row _ (unused entry member)).trans (sound.mapped _ _ isHeld)
  case counted =>
    intro entry member changed
    apply sound.counted entry member
    rwa [← row entry.keycode (unused entry member)]
  case strays =>
    intro clean
    cases faulty.symm.trans clean
  case replaced =>
    intro other isReplaced
    rcases mem_cons.mp isReplaced with rfl | earlier
    · exact isChosen
    · exact sound.replaced other earlier
  case kept =>
    intro other notReplaced
    have ⟨different, earlier⟩ := not_or.mp (mt mem_cons.mpr notReplaced)
    exact (row other different).trans (sound.kept other earlier)

/-- An entry of a keysym and a keycode that no other entry has. -/
theorem enter (keysym : Keysym) (keycode : Keycode) (faultless : Bool)
    (strays : faultless = true → ∀ other, other ≠ keycode →
      pool.keyboard.rows other ≠ before.rows other → ∃ otherKeysym, held otherKeysym other ≠ 0)
    (mapped : pool.keyboard.rows keycode = (before.rows keycode).set 0 keysym)
    (empty : (before.rows keycode).Empty)
    (newKeysym : ∀ entry ∈ pool.entries, entry.keysym ≠ keysym)
    (newKeycode : ∀ entry ∈ pool.entries, entry.keycode ≠ keycode)
    (isChosen : keycode ∈ pool.chosen.map Prod.fst) :
    Sound before
      { pool with
        entries := pool.entries ++
          [{ keysym, keycode, references := 1, original := before.rows keycode }]
        faultless := faultless } (held.add keysym keycode) := by
  have old : ∀ entry ∈ pool.entries,
      held.add keysym keycode entry.keysym entry.keycode = held entry.keysym entry.keycode :=
    fun entry member => Held.add_of_ne held fun same => newKeysym entry member same.1
  have unheld : held keysym keycode = 0 := by
    by_contra isHeld
    rcases sound.leased keysym keycode isHeld with ⟨entry, member, isKeysym, _⟩
    exact newKeysym entry member isKeysym
  have new : held.add keysym keycode keysym keycode = 1 := by
    rw [Held.add_self, unheld]
  constructor
  case keysyms =>
    rw [map_append, nodup_append]
    refine ⟨sound.keysyms, nodup_singleton _, ?_⟩
    intro symbol isOld other isNew
    rcases mem_map.mp isOld with ⟨entry, member, rfl⟩
    rw [mem_singleton.mp isNew]
    exact newKeysym entry member
  case keycodes =>
    rw [map_append, nodup_append]
    refine ⟨sound.keycodes, nodup_singleton _, ?_⟩
    intro code isOld other isNew
    rcases mem_map.mp isOld with ⟨entry, member, rfl⟩
    rw [mem_singleton.mp isNew]
    exact newKeycode entry member
  case original =>
    intro entry member
    rcases mem_append.mp member with isOld | isNew
    · exact sound.original entry isOld
    · rw [mem_singleton.mp isNew]
      exact ⟨rfl, empty, isChosen⟩
  case rows => exact sound.rows
  case leased =>
    intro otherKeysym otherKeycode isHeld
    by_cases same : otherKeysym = keysym ∧ otherKeycode = keycode
    · rw [same.1, same.2]
      exact ⟨_, mem_append_right _ mem_cons_self, rfl, rfl⟩
    · rw [Held.add_of_ne held same] at isHeld
      rcases sound.leased otherKeysym otherKeycode isHeld with ⟨entry, member, same⟩
      exact ⟨entry, mem_append_left _ member, same⟩
  case mapped =>
    intro otherKeysym otherKeycode isHeld
    by_cases same : otherKeysym = keysym ∧ otherKeycode = keycode
    · rw [same.1, same.2]
      exact mapped
    · rw [Held.add_of_ne held same] at isHeld
      exact sound.mapped otherKeysym otherKeycode isHeld
  case bounded =>
    intro entry member
    rcases mem_append.mp member with isOld | isNew
    · rw [old entry isOld]
      exact sound.bounded entry isOld
    · rw [mem_singleton.mp isNew]
      exact Nat.le_of_eq new
  case counted =>
    intro entry member changed isHeld
    rcases mem_append.mp member with isOld | isNew
    · rw [old entry isOld] at isHeld ⊢
      exact sound.counted entry isOld changed isHeld
    · rw [mem_singleton.mp isNew]
      exact new.symm
  case strays =>
    intro clean other changed
    by_cases isKeycode : other = keycode
    · rw [isKeycode]
      exact ⟨keysym, by rw [new]; exact Nat.one_ne_zero⟩
    · rcases strays clean other isKeycode changed with ⟨otherKeysym, isHeld⟩
      exact ⟨otherKeysym, Held.ne_zero_add isHeld⟩
  case chosen => exact sound.chosen
  case replaced => exact sound.replaced
  case kept => exact sound.kept

theorem install (clean : pool.faultless = true)
    (newKeysym : ∀ entry ∈ pool.entries, entry.keysym ≠ keysym) (answers : Answers)
    (empty : (pool.keyboard.rows keycode).Empty)
    (newKeycode : ∀ entry ∈ pool.entries, entry.keycode ≠ keycode) :
    match pool.install keysym answers { keycode, keysyms := pool.keyboard.rows keycode } with
    | (after, .ok lease) => lease.pool = true ∧
        Sound before after (held.add lease.keysym lease.keycode)
    | (after, .error _) => Sound before after held := by
  have chosen := sound.choose empty
  have isChosen : keycode ∈ ((keycode, pool.keyboard.rows keycode) :: pool.chosen).map Prod.fst :=
    mem_cons_self
  have same := sound.empty_row empty
  have wasEmpty : (before.rows keycode).Empty := same ▸ empty
  unfold ScratchKeycodePool.install
  cases answers.replace with
  | false => exact chosen.faulty
  | true =>
    -- What the pool is once the row is set, with a failure on record.
    have overwritten := chosen.faulty.overwrite keysym wasEmpty newKeycode isChosen rfl
    rw [← same] at overwritten
    cases answers.fence with
    | false =>
      have faulty : (pool.faultless && false) = false := and_false _
      cases answers.takeBack with
      | false => exact overwritten
      | true =>
        have back := overwritten.overwrite 0 wasEmpty newKeycode isChosen rfl
        rw [Row.set_zero_of_empty wasEmpty, ← same] at back
        change Sound before _ held
        unfold ScratchKeycodePool.fence
        dsimp only [ScratchKeycodePool.replace] at back ⊢
        rw [← faulty] at back
        exact back
    | true =>
      refine ⟨rfl, ?_⟩
      have mapped : Function.update pool.keyboard.rows keycode
          ((pool.keyboard.rows keycode).set 0 keysym) keycode =
            (before.rows keycode).set 0 keysym := by
        rw [update_self, same]
      have entered := overwritten.enter keysym keycode (pool.faultless && true) ?_ mapped
        wasEmpty newKeysym newKeycode isChosen
      · rw [← same] at entered
        exact entered
      intro _ other different changed
      apply sound.strays clean other
      intro unchanged
      apply changed
      exact (update_of_ne different _ _).trans unchanged

theorem acquire (keysym : Keysym) (answers : Answers)
    (mapped : ∀ entry ∈ pool.entries, entry.keysym = keysym →
      pool.keyboard.rows entry.keycode = entry.original.set 0 keysym)
    (strays : ∀ keycode, pool.keyboard.rows keycode ≠ before.rows keycode →
      ∃ other, held other keycode ≠ 0) : match pool.acquire keysym answers with
    | (after, .ok lease) => lease.pool = true ∧
        Sound before after (held.add lease.keysym lease.keycode)
    | (after, .error _) => Sound before after held := by
  have renewed : Sound before { pool with faultless := true } held :=
    { sound with strays := fun _ => strays }
  unfold ScratchKeycodePool.acquire
  dsimp only
  cases found : pool.entries.find? fun entry => entry.keysym == keysym with
  | some existing =>
    have member := mem_of_find?_eq_some found
    have isFound := find?_some found
    have isKeysym : existing.keysym = keysym := beq_iff_eq.mp isFound
    refine ⟨rfl, ?_⟩
    dsimp only
    have row := mapped existing member isKeysym
    rw [← isKeysym] at row ⊢
    exact renewed.increment member row rfl
  | none =>
    have newKeysym : ∀ entry ∈ pool.entries, entry.keysym ≠ keysym := by
      intro entry member same
      exact find?_eq_none.mp found entry member (beq_iff_eq.mpr same)
    cases answers.mappings with
    | false => exact renewed
    | true =>
      dsimp only
      rw [if_neg (by decide)]
      cases selection : pool.keyboard.mappings.find?
          { pool with faultless := true : ScratchKeycodePool }.selects with
      | none => exact renewed
      | some selected =>
        rcases mem_map.mp (mem_of_find?_eq_some selection) with
          ⟨keycode, _, rfl⟩
        have selects := find?_some selection
        unfold ScratchKeycodePool.selects at selects
        rw [and_eq_true, and_eq_true, and_eq_true] at selects
        have ⟨⟨⟨unused, _⟩, columns⟩, zeros⟩ := selects
        have newKeycode : ∀ entry ∈ pool.entries, entry.keycode ≠ keycode := by
          intro entry member same
          rw [Option.isNone_iff_eq_none] at unused
          exact find?_eq_none.mp unused entry member (beq_iff_eq.mpr same)
        have empty : (pool.keyboard.rows keycode).Empty := by
          constructor
          · rintro none_
            rw [none_] at columns
            cases columns
          · intro symbol isSymbol
            exact beq_iff_eq.mp (all_eq_true.mp zeros symbol isSymbol)
        exact renewed.install rfl newKeysym answers empty newKeycode

end Sound

namespace Leasing

/-- The live leases of a list. -/
def held (leases : List Lease) : Held :=
  fun keysym keycode => leases.count { pool := true, keysym, keycode }

variable {leases : List Lease} {lease : Lease} {index : Nat}

theorem held_ne_zero :
    held leases keysym keycode ≠ 0 ↔ { pool := true, keysym, keycode : Lease } ∈ leases := by
  unfold held
  rw [← Nat.pos_iff_ne_zero, count_pos_iff]

theorem held_of_mem (member : lease ∈ leases) (live : lease.pool = true) :
    held leases lease.keysym lease.keycode ≠ 0 := by
  rw [held_ne_zero, ← live]
  exact member

/-- How the live leases change where one lease is overwritten. -/
theorem held_set (isLease : leases[index]? = some lease) (other : Lease) (keysym : Keysym)
    (keycode : Keycode) :
    held (leases.set index other) keysym keycode +
        (if lease = { pool := true, keysym, keycode } then 1 else 0) =
      held leases keysym keycode + if other = { pool := true, keysym, keycode } then 1 else 0 := by
  have ⟨inside, same⟩ := List.getElem?_eq_some_iff.mp isLease
  unfold held
  rw [count_set inside, same]
  have counted : lease = { pool := true, keysym, keycode } →
      0 < leases.count { pool := true, keysym, keycode : Lease } := by
    rintro rfl
    rw [count_pos_iff]
    exact mem_of_getElem? isLease
  by_cases isOld : lease = { pool := true, keysym, keycode }
  · have positive := counted isOld
    rw [if_pos (beq_iff_eq.mpr isOld), if_pos isOld]
    simp only [beq_iff_eq]
    omega
  · rw [if_neg (mt beq_iff_eq.mp isOld), if_neg isOld]
    simp only [beq_iff_eq]
    omega

theorem eq_lease_iff (live : lease.pool = true) :
    lease = { pool := true, keysym, keycode } ↔
      keysym = lease.keysym ∧ keycode = lease.keycode := by
  cases lease
  cases live
  rw [Lease.mk.injEq]
  constructor
  · exact fun ⟨_, left, right⟩ => ⟨left.symm, right.symm⟩
  · exact fun ⟨left, right⟩ => ⟨rfl, left.symm, right.symm⟩

theorem held_append (leases : List Lease) (lease : Lease) (live : lease.pool = true) :
    held (leases ++ [lease]) = (held leases).add lease.keysym lease.keycode := by
  funext keysym keycode
  unfold held Held.add
  rw [count_append, count_singleton]
  congr 1
  simp only [beq_iff_eq, eq_lease_iff live]

/-- A live lease is overwritten by one that is not. -/
theorem held_set_dead (isLease : leases[index]? = some lease) (live : lease.pool = true)
    (dead : Lease) (isDead : dead.pool = false) :
    held leases = (held (leases.set index dead)).add lease.keysym lease.keycode := by
  funext keysym keycode
  have changed := held_set isLease dead keysym keycode
  have notLive : dead ≠ { pool := true, keysym, keycode } := by
    rintro rfl
    cases isDead
  rw [if_neg notLive, Nat.add_zero] at changed
  unfold Held.add
  rw [← changed]
  simp only [eq_lease_iff live]

/-- A lease without a pool is overwritten by another. -/
theorem held_set_of_dead (isLease : leases[index]? = some lease) (wasDead : lease.pool = false)
    (dead : Lease) (isDead : dead.pool = false) : held (leases.set index dead) = held leases := by
  funext keysym keycode
  have changed := held_set isLease dead keysym keycode
  have notLive : ∀ other : Lease, other.pool = false →
      other ≠ { pool := true, keysym, keycode } := by
    rintro other otherDead rfl
    cases otherDead
  rw [if_neg (notLive dead isDead), if_neg (notLive lease wasDead)] at changed
  exact changed

/-- A lease that is moved is held as before. -/
theorem held_move {target source : Nat} (different : target ≠ source)
    (isLease : leases[source]? = some lease) (inside : leases[target]? = some {}) :
    held ((leases.set target lease).set source {}) = held leases := by
  funext keysym keycode
  have isSource : (leases.set target lease)[source]? = some lease := by
    rw [getElem?_set_ne different]
    exact isLease
  have emptied := held_set isSource {} keysym keycode
  have filled := held_set inside lease keysym keycode
  omega

/-- Every live lease is held in its pool. -/
def Sound (before : Keyboard) (leasing : Leasing) : Prop :=
  ScratchKeycodePool.Sound before leasing.pool (held leasing.leases)

namespace Sound

variable {before : Keyboard} {leasing : Leasing}

theorem start (before : Keyboard) : Sound before (start before) := by
  constructor
  case keysyms => exact nodup_nil
  case keycodes => exact nodup_nil
  case original => exact fun entry member => nomatch member
  case rows => exact fun keycode => .inl rfl
  case leased => exact fun keysym keycode impossible => absurd rfl impossible
  case mapped => exact fun keysym keycode impossible => absurd rfl impossible
  case bounded => exact fun entry member => nomatch member
  case counted => exact fun entry member => nomatch member
  case strays => exact fun _ keycode impossible => absurd rfl impossible
  case chosen => exact fun choice member => nomatch member
  case replaced => exact fun keycode member => nomatch member
  case kept => exact fun keycode _ => rfl

variable (sound : Sound before leasing) {answers : Answers}

include sound

/-- A lease is dropped, whatever is in its place then. -/
theorem drop (isLease : leasing.leases[index]? = some lease) (answers : Answers) :
    ScratchKeycodePool.Sound before (lease.drop leasing.pool answers)
      (held (leasing.leases.set index {})) := by
  unfold Lease.drop
  cases live : lease.pool with
  | false =>
    rw [held_set_of_dead isLease live {} rfl]
    exact sound
  | true =>
    unfold Sound at sound
    rw [held_set_dead isLease live {} rfl] at sound
    exact sound.release answers

theorem restore (careful : leasing.Careful before (.restore index answers)) :
    Sound before (leasing.step (.restore index answers)) := by
  unfold Leasing.step
  dsimp only
  cases isLease : leasing.leases[index]? with
  | none => exact sound
  | some lease =>
    unfold Lease.restore
    dsimp only
    cases live : lease.pool with
    | false =>
      change ScratchKeycodePool.Sound before leasing.pool (held (leasing.leases.set index lease))
      rw [held_set_of_dead isLease live lease live]
      exact sound
    | true =>
      cases succeeds : (leasing.pool.release lease.keysym lease.keycode answers).2 with
      | true =>
        unfold Sound at sound ⊢
        rw [held_set_dead isLease live { lease with pool := false } rfl] at sound
        exact sound.release answers
      | false =>
        have isHeld := held_of_mem (mem_of_getElem? isLease) live
        have stays : leasing.leases.set index lease = leasing.leases := by
          have ⟨inside, same⟩ := List.getElem?_eq_some_iff.mp isLease
          rw [← same, set_getElem_self]
        unfold Sound
        change ScratchKeycodePool.Sound before _ (held (leasing.leases.set index lease))
        rw [stays]
        exact ScratchKeycodePool.Sound.releaseFails sound isHeld answers succeeds
          (careful lease isLease live)

theorem acquire {keysym : Keysym} (careful : leasing.Careful before (.acquire keysym answers)) :
    Sound before (leasing.step (.acquire keysym answers)) := by
  have strays : ∀ keycode, leasing.pool.keyboard.rows keycode ≠ before.rows keycode →
      ∃ other, held leasing.leases other keycode ≠ 0 := by
    intro keycode changed
    rcases careful.2 keycode changed with ⟨lease, member, live, rfl⟩
    exact ⟨lease.keysym, held_of_mem member live⟩
  have acquired := ScratchKeycodePool.Sound.acquire sound keysym answers careful.1 strays
  unfold Leasing.step
  dsimp only
  generalize leasing.pool.acquire keysym answers = result at acquired ⊢
  rcases result with ⟨after, error | lease⟩
  · exact acquired
  · unfold Sound
    rw [held_append _ _ acquired.1]
    exact acquired.2

theorem moveConstruct (source : Nat) : Sound before (leasing.step (.moveConstruct source)) := by
  unfold Leasing.step
  dsimp only
  cases isLease : leasing.leases[source]? with
  | none => exact sound
  | some lease =>
    unfold Sound at sound ⊢
    dsimp only
    cases live : lease.pool with
    | true =>
      rw [held_append _ _ live, ← held_set_dead isLease live {} rfl]
      exact sound
    | false =>
      have last : held (leasing.leases.set source {} ++ [lease]) =
          held (leasing.leases.set source {}) := by
        funext keysym keycode
        unfold held
        rw [count_append, count_singleton, if_neg, Nat.add_zero]
        rw [beq_iff_eq]
        rintro rfl
        cases live
      rw [last, held_set_of_dead isLease live {} rfl]
      exact sound

theorem moveAssign (target source : Nat) (answers : Answers) :
    Sound before (leasing.step (.moveAssign target source answers)) := by
  unfold Leasing.step
  dsimp only
  cases isTarget : leasing.leases[target]? with
  | none => exact sound
  | some overwritten =>
    cases isSource : leasing.leases[source]? with
    | none => exact sound
    | some lease =>
      dsimp only
      split
      · exact sound
      rename_i different
      have dropped := sound.drop isTarget answers
      unfold Sound
      dsimp only
      have stillSource : (leasing.leases.set target {})[source]? = some lease := by
        rw [getElem?_set_ne different]
        exact isSource
      have emptied : (leasing.leases.set target {})[target]? = some {} := by
        have ⟨inside, _⟩ := List.getElem?_eq_some_iff.mp isTarget
        exact getElem?_set_self inside
      have moved := held_move different stillSource emptied
      rw [set_set] at moved
      rw [moved]
      exact dropped

theorem step (step : Step) (careful : leasing.Careful before step) :
    Sound before (leasing.step step) := by
  cases step with
  | acquire keysym answers => exact sound.acquire careful
  | restore index answers => exact sound.restore careful
  | destroy index answers =>
    unfold Leasing.step
    dsimp only
    cases isLease : leasing.leases[index]? with
    | none => exact sound
    | some lease => exact sound.drop isLease answers
  | moveConstruct source => exact sound.moveConstruct source
  | moveAssign target source answers => exact sound.moveAssign target source answers

omit sound in
theorem run (steps : List Step) (sound : Sound before leasing)
    (careful : leasing.CarefulRun before steps) : Sound before (leasing.run steps) := by
  induction steps generalizing leasing with
  | nil => exact sound
  | cons step rest later => exact later (sound.step step careful.1) careful.2

theorem correct : leasing.Correct before := by
  constructor
  case types =>
    intro lease member live
    have isHeld := held_of_mem member live
    rcases sound.leased _ _ isHeld with ⟨entry, isEntry, _, isKeycode⟩
    rw [sound.mapped _ _ isHeld]
    apply Row.head_set
    rw [← isKeycode]
    exact (sound.original entry isEntry).2.1
  case distinct =>
    intro first isFirst firstLive second isSecond secondLive different same
    rcases sound.leased _ _ (held_of_mem isFirst firstLive) with
      ⟨entry, isEntry, isKeysym, isKeycode⟩
    have isHeld := held_of_mem isSecond secondLive
    rw [← same, ← isKeycode] at isHeld
    exact different (isKeysym.symm.trans (sound.held_keysym isEntry isHeld).symm)
  case chosen => exact ⟨sound.chosen, sound.replaced, sound.kept⟩
  case restored =>
    intro dead clean keycode
    by_contra changed
    rcases sound.strays clean keycode changed with ⟨keysym, isHeld⟩
    cases dead _ (held_ne_zero.mp isHeld)

end Sound

theorem careful_take (steps : List Step) {before : Keyboard} {leasing : Leasing}
    (careful : leasing.CarefulRun before steps) (made : Nat) :
    leasing.CarefulRun before (steps.take made) := by
  induction steps generalizing leasing made with
  | nil =>
    rw [take_nil]
    trivial
  | cons step rest later =>
    cases made with
    | zero => trivial
    | succ made => exact ⟨careful.1, later careful.2 made⟩

/-- In every state of a run in which no lease is asked for over what a failure left behind, and no
restore fails after it put the row back, every live lease types its keysym, and the keyboard is as
it was when no lease is left. -/
theorem leases_type (before : Keyboard) (steps : List Step)
    (careful : (start before).CarefulRun before steps) (made : Nat) :
    ((start before).run (steps.take made)).Correct before :=
  ((Sound.start before).run _ (careful_take steps careful made)).correct

/-- A keyboard with one unused keycode. -/
def small : Keyboard where
  keycodes := [8, 42]
  rows := fun keycode => if keycode = 8 then [0x61, 0] else [0, 0]

theorem leases_type_shared : ((start small).run ([.acquire 0x20AC {}, .acquire 0x20AC {},
    .restore 0 {}, .moveConstruct 1, .destroy 2 {}].take 5)).Correct small := by
  apply leases_type
  refine ⟨⟨nofun, fun keycode changed => absurd rfl changed⟩, ⟨?_, ?_⟩, ?_,
    trivial, trivial, trivial⟩
  · intro entry member _
    rw [mem_singleton.mp member]
    decide +kernel
  · intro keycode changed
    by_cases isScratch : keycode = 42
    · rw [isScratch]
      exact ⟨_, mem_cons_self, rfl, rfl⟩
    · exact absurd (update_of_ne isScratch _ _) changed
  · exact fun _ _ _ _ _ _ _ _ _ => rfl

/-- A lease goes, its row is put back, and the fence after it fails.  The next lease of the keysym
gets the entry that stayed, and types nothing. -/
theorem lease_of_empty_row : ¬((start small).run [.acquire 0x20AC {},
    .destroy 0 { fence := false }, .acquire 0x20AC {}]).Correct small := by
  intro correct
  have types := correct.types { pool := true, keysym := 0x20AC, keycode := 42 }
    (by decide +kernel) rfl
  revert types
  decide +kernel

end Leasing

end ScratchKeycodePool

end Grab.Desktop

import Grab.Lib.Suffix
import Grab.Storage.LogDirectory

/-!
# What the log retains

A descriptor that is open belongs to the file that the directory lists under the name of its date,
so nothing is ever written to a file that was removed; and what `enforce_retention` leaves of the
log is the longest end of it, by name, within the limits.
-/

namespace Grab.Storage.LogSink

open Grab.Lib List

open Grab.Lib.Decimal (Text)

/-! ## What a sink keeps -/

/-- No name is removed with the file that is written to under it later. -/
def Outlived (earlier later : Deed) : Prop :=
  ∀ date file listed, later = .wrote date file listed → earlier ≠ .removed (nameForDate date) file

/-- A sink whose directory lists no name twice and whose descriptor is listed. -/
structure Sound (limits : JsonlOptions) (sink : LogSink) : Prop where
  options : sink.options = limits
  distinct : (sink.entries.map (·.name)).Nodup
  numbered : ∀ entry ∈ sink.entries, entry.file < sink.fresh
  opened : ∀ opened, sink.current = some opened → sink.lists opened.date opened.file
  wrote : ∀ date file listed, .wrote date file listed ∈ sink.deeds → listed = true
  removed : ∀ name file, .removed name file ∈ sink.deeds →
    file < sink.fresh ∧ ∀ entry ∈ sink.entries, entry.name = name → entry.file ≠ file
  outlived : sink.deeds.Pairwise Outlived

section

variable {sink : LogSink} {limits : JsonlOptions} {other : LogSink}

theorem lists_iff {date : Text} {file : ℕ} :
    sink.lists date file ↔
      ∃ entry ∈ sink.entries, entry.name = nameForDate date ∧ entry.file = file := by
  rw [lists, any_eq_true]
  constructor
  · rintro ⟨entry, member, same⟩
    rw [Bool.and_eq_true, decide_eq_true_iff, decide_eq_true_iff] at same
    exact ⟨entry, member, same⟩
  rintro ⟨entry, member, same⟩
  refine ⟨entry, member, ?_⟩
  rw [Bool.and_eq_true, decide_eq_true_iff, decide_eq_true_iff]
  exact same

/-- The directory and what was done to it decide whether a sink is sound, and so does the
descriptor. -/
theorem Sound.of_same (sound : Sound limits sink) (entries : other.entries = sink.entries)
    (fresh : other.fresh = sink.fresh) (deeds : other.deeds = sink.deeds)
    (current : other.current = sink.current ∨ other.current = none)
    (options : other.options = sink.options) : Sound limits other := by
  constructor
  case options => exact options.trans sound.options
  case distinct =>
    rw [entries]
    exact sound.distinct
  case numbered =>
    rw [entries, fresh]
    exact sound.numbered
  case opened =>
    intro opened isOpen
    rw [lists_iff, entries, ← lists_iff]
    rcases current with same | none
    · exact sound.opened opened (same.symm.trans isOpen)
    · rw [none] at isOpen
      cases isOpen
  case wrote =>
    rw [deeds]
    exact sound.wrote
  case removed =>
    rw [deeds, entries, fresh]
    exact sound.removed
  case outlived =>
    rw [deeds]
    exact sound.outlived

/-! ## Steps -/

/-- A condition that does not look at the replies, the buffer and the flag. -/
structure Indifferent (kept : LogSink → Prop) : Prop where
  keeps : ∀ sink other : LogSink, kept sink → other.entries = sink.entries →
    other.fresh = sink.fresh → other.deeds = sink.deeds → other.current = sink.current →
    other.options = sink.options → kept other

theorem indifferent_sound : Indifferent (Sound limits) where
  keeps _ _ sound entries fresh deeds current options :=
    sound.of_same entries fresh deeds (.inl current) options

variable {kept : LogSink → Prop}

theorem keeps_nextReply (indifferent : Indifferent kept) : Keeps kept nextReply := by
  intro sink holds
  rcases sink with ⟨options, buffer, current, closed, entries, fresh, _ | ⟨reply, rest⟩, deeds⟩
  · exact holds
  · exact indifferent.keeps _ _ holds rfl rfl rfl rfl rfl

theorem keeps_ask (indifferent : Indifferent kept) (failure : String → Error) :
    Keeps kept (ask failure) :=
  (keeps_nextReply indifferent).bind fun _ => Keeps.pure _

theorem keeps_change {update : LogSink → LogSink} (keeps : ∀ sink, kept sink → kept (update sink)) :
    Keeps kept (change update) :=
  (Keeps.modify keeps).bind fun _ => Keeps.pure _

theorem keeps_closeCurrentFile : Keeps (Sound limits) closeCurrentFile := by
  refine Ensures.get_bind ?_
  intro current sound
  cases current.current with
  | none =>
    rintro sink rfl
    exact sound
  | some opened =>
    refine Ensures.bind (fun _ => Sound limits) ?_ fun _ => keeps_ask indifferent_sound _
    rintro sink rfl
    exact sound.of_same rfl rfl rfl (.inr rfl) rfl

/-- Afterwards no descriptor is open. -/
theorem closes_closeCurrentFile :
    Ensures (fun _ => True) closeCurrentFile fun _ sink => sink.current = none := by
  refine Ensures.get_bind ?_
  intro current _
  cases isOpen : current.current with
  | none =>
    rintro sink rfl
    exact isOpen
  | some opened =>
    refine Ensures.bind (fun _ sink => sink.current = none) (fun _ _ => rfl) ?_
    intro _
    apply keeps_ask
    exact ⟨fun _ _ none _ _ _ same _ => same.trans none⟩

/-- The directory is sound and has no entry of a name. -/
def Unlisted (limits : JsonlOptions) (name : Text) (sink : LogSink) : Prop :=
  Sound limits sink ∧ sink.entryNamed name = none

variable (name : Text) (replies : List Reply)

theorem indifferent_unlisted : Indifferent (Unlisted limits name) where
  keeps sink other unlisted entries fresh deeds current options := by
    refine ⟨indifferent_sound.keeps _ _ unlisted.1 entries fresh deeds current options, ?_⟩
    unfold entryNamed
    rw [entries]
    exact unlisted.2

/-- A new file under a name that is not listed. -/
theorem Unlisted.create {name : Text} (unlisted : Unlisted limits name sink) :
    Sound limits
      { sink with
        entries := sink.entries ++ [{ name, file := sink.fresh, size := 0 }]
        fresh := sink.fresh + 1 } := by
  rcases unlisted with ⟨sound, missing⟩
  have apart : ∀ entry ∈ sink.entries, entry.name ≠ name := by
    intro entry member same
    have found := find?_eq_none.mp missing entry member
    rw [decide_eq_true_iff] at found
    exact found same
  constructor
  case options => exact sound.options
  case distinct =>
    rw [map_append, nodup_append]
    refine ⟨sound.distinct, nodup_singleton _, ?_⟩
    intro first member second other same
    rcases mem_map.mp member with ⟨entry, inside, rfl⟩
    exact apart entry inside (same.trans (mem_singleton.mp other))
  case numbered =>
    intro entry member
    rcases mem_append.mp member with old | new
    · exact Nat.lt_succ_of_lt (sound.numbered entry old)
    · rw [mem_singleton.mp new]
      exact Nat.lt_succ_self _
  case opened =>
    intro opened isOpen
    rcases lists_iff.mp (sound.opened opened isOpen) with ⟨entry, member, same⟩
    exact lists_iff.mpr ⟨entry, mem_append_left _ member, same⟩
  case wrote => exact sound.wrote
  case removed =>
    intro other file deed
    rcases sound.removed other file deed with ⟨old, gone⟩
    refine ⟨Nat.lt_succ_of_lt old, ?_⟩
    intro entry member same
    rcases mem_append.mp member with within | new
    · exact gone entry within same
    · rw [mem_singleton.mp new]
      exact (Nat.ne_of_lt old).symm
  case outlived => exact sound.outlived

theorem ensures_writeAtomic :
    Ensures (Unlisted limits name) (writeAtomic name) fun _ => Sound limits := by
  have writes : Ensures (Unlisted limits name) (writeAtomic name)
      (Ends (fun _ => Sound limits) fun _ => Sound limits) := by
    apply Ensures.proceed (keeps_ask (indifferent_unlisted name) _).ends
    · exact fun _ _ unlisted => unlisted.1
    intro _
    have creates : Ensures (Unlisted limits name)
        (change fun sink =>
          { sink with
            entries := sink.entries ++ [{ name, file := sink.fresh, size := 0 }]
            fresh := sink.fresh + 1 })
        (Ends (fun _ => Sound limits) fun _ => Sound limits) :=
      fun sink unlisted => unlisted.create
    apply Ensures.proceed creates fun _ _ sound => sound
    intro _
    exact (keeps_ask indifferent_sound _).ends
  refine writes.weaken ?_
  intro result sink sound
  cases result with
  | error error | ok value => exact sound

theorem keeps_ensureFileExists : Keeps (Sound limits) (ensureFileExists name) := by
  apply Keeps.proceed (keeps_ask indifferent_sound _)
  intro _
  refine Ensures.get_bind ?_
  intro current sound
  cases named : current.entryNamed name with
  | some entry =>
    rintro sink rfl
    exact sound
  | none =>
    rintro sink rfl
    exact ensures_writeAtomic name _ ⟨sound, named⟩

theorem keeps_openFile (date : Text) : Keeps (Sound limits) (openFile date) := by
  refine Ensures.get_bind ?_
  intro current sound
  cases named : current.entryNamed (nameForDate date) with
  | none =>
    rintro sink rfl
    exact sound
  | some entry =>
    rintro sink rfl
    have listed : sink.lists date entry.file := by
      unfold entryNamed at named
      refine lists_iff.mpr ⟨entry, mem_of_find?_eq_some named, ?_, rfl⟩
      simpa using find?_some named
    exact
      { options := sound.options
        distinct := sound.distinct
        numbered := sound.numbered
        opened := by
          intro opened isOpen
          rw [← Option.some.inj isOpen]
          exact listed
        wrote := sound.wrote
        removed := sound.removed
        outlived := sound.outlived }

theorem keeps_openForDate (date : Text) : Keeps (Sound limits) (openForDate date) := by
  refine Ensures.get_bind ?_
  intro current sound
  split
  · rintro sink rfl
    exact sound
  rintro sink rfl
  have opens : Keeps (Sound limits) (proceed closeCurrentFile fun _ =>
      proceed (ensureFileExists (nameForDate date)) fun _ =>
      proceed (ask (deviceInaccessible "open")) fun _ => openFile date) := by
    apply Keeps.proceed keeps_closeCurrentFile
    intro _
    apply Keeps.proceed (keeps_ensureFileExists _)
    intro _
    apply Keeps.proceed (keeps_ask indifferent_sound _)
    intro _
    exact keeps_openFile date
  exact opens sink sound

/-- The name and the file of an entry. -/
def place (entry : DirectoryEntry) : Text × ℕ := (entry.name, entry.file)

theorem places_append (entries : List DirectoryEntry) (file count : ℕ) : (entries.map fun entry =>
      if entry.file = file then { entry with size := entry.size + count } else entry).map
        place = entries.map place := by
  rw [map_map]
  apply map_congr_left
  intro entry _
  change place (if _ then _ else _) = _
  split <;> rfl

/-- What is said of the names and the files of the entries is said of their places. -/
theorem sound_of_places (sound : Sound limits sink)
    (places : other.entries.map place = sink.entries.map place) (fresh : other.fresh = sink.fresh)
    (current : other.current = sink.current) (deeds : other.deeds = sink.deeds)
    (options : other.options = sink.options) : Sound limits other := by
  have moved : ∀ entry ∈ other.entries, ∃ old ∈ sink.entries,
      old.name = entry.name ∧ old.file = entry.file := by
    intro entry member
    have place : place entry ∈ sink.entries.map place := places ▸ mem_map_of_mem member
    rcases mem_map.mp place with ⟨old, inside, same⟩
    exact ⟨old, inside, congrArg Prod.fst same, congrArg Prod.snd same⟩
  constructor
  case options => exact options.trans sound.options
  case distinct =>
    have names : other.entries.map (·.name) = sink.entries.map (·.name) := by
      have firsts := congrArg (List.map Prod.fst) places
      rw [map_map, map_map] at firsts
      exact firsts
    rw [names]
    exact sound.distinct
  case numbered =>
    intro entry member
    rcases moved entry member with ⟨old, inside, _, same⟩
    rw [← same, fresh]
    exact sound.numbered old inside
  case opened =>
    intro opened isOpen
    rcases lists_iff.mp (sound.opened opened (current.symm.trans isOpen)) with
      ⟨entry, member, name, file⟩
    have place : place entry ∈ other.entries.map place := places.symm ▸ mem_map_of_mem member
    rcases mem_map.mp place with ⟨new, inside, same⟩
    exact lists_iff.mpr ⟨new, inside, (congrArg Prod.fst same).trans name,
      (congrArg Prod.snd same).trans file⟩
  case wrote =>
    rw [deeds]
    exact sound.wrote
  case removed =>
    rw [deeds, fresh]
    intro name file deed
    rcases sound.removed name file deed with ⟨old, gone⟩
    refine ⟨old, ?_⟩
    intro entry member same
    rcases moved entry member with ⟨before, inside, names, files⟩
    rw [← files]
    exact gone before inside (names.trans same)
  case outlived =>
    rw [deeds]
    exact sound.outlived

/-- A write to a file that the directory lists. -/
theorem Sound.write (sound : Sound limits sink) {opened : OpenFile}
    (isOpen : sink.current = some opened) :
    Sound limits
      { sink with
        deeds := sink.deeds ++
          [.wrote opened.date opened.file (sink.lists opened.date opened.file)] } := by
  have listed := sound.opened opened isOpen
  refine { sound with wrote := ?wrote, removed := ?removed, outlived := ?outlived }
  case wrote =>
    intro date file flag deed
    rcases mem_append.mp deed with old | new
    · exact sound.wrote date file flag old
    · cases mem_singleton.mp new
      exact listed
  case removed =>
    intro name file deed
    rcases mem_append.mp deed with old | new
    · exact sound.removed name file old
    · cases mem_singleton.mp new
  case outlived =>
    rw [pairwise_append]
    refine ⟨sound.outlived, pairwise_singleton _ _, ?_⟩
    intro earlier before later new date file flag isWrite isRemoval
    rw [mem_singleton.mp new] at isWrite
    cases isWrite
    rw [isRemoval] at before
    rcases lists_iff.mp listed with ⟨entry, member, name, same⟩
    exact (sound.removed _ _ before).2 entry member name same

theorem keeps_append (count : ℕ) :
    ∀ sink, Sound limits sink → Sound limits (append count sink) := by
  intro sink sound
  unfold append
  cases isOpen : sink.current with
  | none => exact sound
  | some opened =>
    exact sound_of_places (sound.write isOpen) (places_append _ _ _) rfl isOpen.symm rfl rfl

theorem keeps_replies : ∀ sink, Sound limits sink → Sound limits { sink with replies := replies } :=
  fun _ sound => sound.of_same rfl rfl rfl (.inl rfl) rfl

theorem keeps_writeAllFrom (unwritten : ℕ) :
    Keeps (Sound limits) (writeAllFrom replies unwritten) := by
  induction replies generalizing unwritten with
  | nil =>
    cases unwritten with
    | zero => exact keeps_change (keeps_replies _)
    | succ unwritten =>
      exact keeps_change fun sink sound => keeps_append _ _ (keeps_replies [] sink sound)
  | cons reply rest ih =>
    cases unwritten with
    | zero => exact keeps_change (keeps_replies _)
    | succ unwritten =>
      cases reply with
      | interrupted => exact ih _
      | failed cause =>
        exact (Keeps.modify (keeps_replies rest)).bind fun _ => Keeps.pure _
      | done => exact Keeps.proceed (keeps_change (keeps_append _)) fun _ => ih _
      | wrote accepted =>
        apply Keeps.ite
        · exact (Keeps.modify (keeps_replies rest)).bind fun _ => Keeps.pure _
        · exact Keeps.proceed (keeps_change (keeps_append _)) fun _ => ih _

theorem keeps_writeAll (bytes : Bytes) : Keeps (Sound limits) (writeAll bytes) := by
  refine Ensures.get_bind ?_
  rintro current sound sink rfl
  exact keeps_writeAllFrom _ _ sink sound

theorem keeps_fsyncFrom : Keeps (Sound limits) (fsyncFrom replies) := by
  induction replies with
  | nil => exact keeps_change (keeps_replies [])
  | cons reply rest ih =>
    cases reply with
    | interrupted => exact ih
    | done | wrote _ | failed _ =>
      exact (Keeps.modify (keeps_replies rest)).bind fun _ => Keeps.pure _

theorem keeps_fsyncCurrentFile : Keeps (Sound limits) fsyncCurrentFile := by
  refine Ensures.get_bind ?_
  rintro current sound sink rfl
  exact keeps_fsyncFrom _ sink sound

theorem keeps_flushBatches (runs : List (Text × Bytes)) :
    Keeps (Sound limits) (flushBatches runs) := by
  induction runs with
  | nil => exact Keeps.pure _
  | cons batch rest ih =>
    apply Keeps.proceed (keeps_openForDate _)
    intro _
    apply Keeps.proceed (keeps_writeAll _)
    intro _
    apply Keeps.proceed keeps_fsyncCurrentFile
    intro _
    exact ih

/-! ## Retention keeps it -/

theorem keeps_scan (indifferent : Indifferent kept) (entries : List DirectoryEntry) :
    Keeps kept (scan entries) := by
  induction entries with
  | nil => exact Keeps.pure _
  | cons entry rest ih =>
    apply Keeps.ite ih
    apply Keeps.proceed (keeps_ask indifferent _)
    intro _
    apply Keeps.ite ih
    apply Keeps.proceed (keeps_ask indifferent _)
    intro _
    apply Keeps.proceed ih
    intro files
    exact Keeps.pure _

/-- A sound sink that does not write to a name. -/
def Apart (limits : JsonlOptions) (name : Text) (sink : LogSink) : Prop :=
  Sound limits sink ∧ ∀ opened, sink.current = some opened → nameForDate opened.date ≠ name

theorem indifferent_apart : Indifferent (Apart limits name) where
  keeps sink other apart entries fresh deeds current options := by
    refine ⟨indifferent_sound.keeps _ _ apart.1 entries fresh deeds current options, ?_⟩
    rw [current]
    exact apart.2

theorem ensures_closeNamed :
    Ensures (Sound limits) (closeNamed name)
      (Ends (fun _ => Sound limits) fun _ => Apart limits name) := by
  refine Ensures.get_bind ?_
  intro current sound
  split
  case isTrue named =>
    rintro sink rfl
    have kept := keeps_closeCurrentFile sink sound
    have closed := closes_closeCurrentFile sink trivial
    cases (closeCurrentFile.run sink).1 with
    | error error => exact kept
    | ok value =>
      refine ⟨kept, ?_⟩
      intro opened isOpen
      rw [closed] at isOpen
      cases isOpen
  case isFalse other =>
    rintro sink rfl
    refine ⟨sound, ?_⟩
    intro opened isOpen same
    apply other
    have current : sink.current = some opened := isOpen
    rw [current, Option.map_some, same]

theorem Apart.forget {name : Text} (apart : Apart limits name sink) :
    Sound limits (forget name sink) := by
  rcases apart with ⟨sound, elsewhere⟩
  constructor
  case options => exact sound.options
  case distinct => exact sound.distinct.sublist (filter_sublist.map _)
  case numbered =>
    intro entry member
    exact sound.numbered entry (mem_of_mem_filter member)
  case opened =>
    intro opened isOpen
    rcases lists_iff.mp (sound.opened opened isOpen) with ⟨entry, member, same, file⟩
    refine lists_iff.mpr ⟨entry, mem_filter.mpr ⟨member, ?_⟩, same, file⟩
    rw [same]
    exact decide_eq_true (elsewhere opened isOpen)
  case wrote =>
    intro date file listed deed
    rcases mem_append.mp deed with old | new
    · exact sound.wrote date file listed old
    · rcases mem_map.mp new with ⟨entry, _, same⟩
      cases same
  case removed =>
    intro other file deed
    rcases mem_append.mp deed with old | new
    · rcases sound.removed other file old with ⟨before, gone⟩
      exact ⟨before, fun entry member => gone entry (mem_of_mem_filter member)⟩
    rcases mem_map.mp new with ⟨removed, member, same⟩
    cases same
    refine ⟨sound.numbered removed (mem_of_mem_filter member), ?_⟩
    intro entry remains isNamed
    have apart := of_decide_eq_true (mem_filter.mp remains).2
    exact absurd isNamed apart
  case outlived =>
    refine pairwise_append.mpr ⟨sound.outlived, ?_, ?_⟩
    · rw [pairwise_map]
      apply pairwise_of_forall
      intro first second date file listed isWrite
      cases isWrite
    · intro earlier _ later new date file listed isWrite
      rcases mem_map.mp new with ⟨entry, _, rfl⟩
      cases isWrite

theorem keeps_removeOldest (options : JsonlOptions) (total : UInt64) (files : List JsonlFile) :
    Keeps (Sound limits) (removeOldest options total files) := by
  induction files generalizing total with
  | nil => exact Keeps.pure _
  | cons oldest rest ih =>
    refine Keeps.ite ?_ (Keeps.pure _)
    have removes : Ensures (Sound limits)
        (proceed (closeNamed oldest.name) fun _ =>
          proceed (ask (deviceInaccessible "remove")) fun _ =>
          proceed (change (LogSink.forget oldest.name)) fun _ =>
          removeOldest options (total - oldest.size) rest)
        (Ends (fun _ => Sound limits) fun _ => Sound limits) := by
      apply Ensures.proceed (ensures_closeNamed _) fun _ _ sound => sound
      intro _
      apply Ensures.proceed (keeps_ask (indifferent_apart oldest.name) _).ends
      · exact fun _ _ apart => apart.1
      intro _
      have forgets : Ensures (Apart limits oldest.name) (change (LogSink.forget oldest.name))
          (Ends (fun _ => Sound limits) fun _ => Sound limits) := fun _ apart => apart.forget
      apply Ensures.proceed forgets fun _ _ sound => sound
      intro _
      exact (ih _).ends
    refine removes.weaken ?_
    intro result sink sound
    cases result with
    | error error | ok value => exact sound

theorem keeps_enforceRetention : Keeps (Sound limits) enforceRetention := by
  refine Ensures.get_bind ?_
  rintro current sound sink rfl
  have enforces : Keeps (Sound limits)
      (proceed (ask fun cause => { code := .internalFault, message := cause }) fun _ =>
        proceed (scan sink.entries) fun files =>
        removeOldest sink.options (totalOf files) (files.insertionSort NotAfter)) := by
    apply Keeps.proceed (keeps_ask indifferent_sound _)
    intro _
    apply Keeps.proceed (keeps_scan indifferent_sound _)
    intro files
    exact keeps_removeOldest _ _ _
  exact enforces sink sound

theorem keeps_writeBuffer : Keeps (Sound limits) writeBuffer := by
  refine Ensures.get_bind ?_
  rintro current sound sink rfl
  have writes : Keeps (Sound limits)
      (proceed (flushBatches (Sink.batches sink.buffer)) fun _ =>
        change fun sink => { sink with buffer := [] }) := by
    apply Keeps.proceed (keeps_flushBatches _)
    intro _
    exact keeps_change fun _ sound => sound.of_same rfl rfl rfl (.inl rfl) rfl
  exact writes sink sound

theorem keeps_flush : Keeps (Sound limits) flush := by
  refine Ensures.get_bind ?_
  intro current sound
  split
  · rintro sink rfl
    exact sound
  rintro sink rfl
  have flushes : Keeps (Sound limits) (proceed writeBuffer fun _ => enforceRetention) :=
    Keeps.proceed keeps_writeBuffer fun _ => keeps_enforceRetention
  exact flushes sink sound

/-! ## Runs -/

variable {Event : Type}

inductive Action (Event : Type) where
  | write (event : Event)
  | flush
  | close

/-- One call of the sink, with what the system will answer. -/
def step (format : Sink.Format Text Event) (sink : LogSink) (action : Action Event × List Reply) :
    LogSink :=
  let entered := { sink with replies := action.2 }
  match action.1 with
  | .write event => ((write format event).run entered).2
  | .flush => (flush.run entered).2
  | .close => (close.run entered).2

def run (format : Sink.Format Text Event) (sink : LogSink)
    (actions : List (Action Event × List Reply)) : LogSink :=
  actions.foldl (step format) sink

theorem keeps_write (format : Sink.Format Text Event) (event : Event) :
    Keeps (Sound limits) (write format event) := by
  refine Ensures.get_bind ?_
  intro current sound
  split
  · rintro sink rfl
    exact sound
  rintro sink rfl
  cases format.buffered event with
  | error error => exact sound
  | ok line =>
    have buffers : Keeps (Sound limits) (do
        modify fun sink => { sink with buffer := sink.buffer ++ [line] }
        let sink ← get
        if sink.options.bufferLimit ≤ sink.buffer.length then flush
        else return .ok ()) := by
      apply Keeps.bind
      · exact Keeps.modify fun _ sound => sound.of_same rfl rfl rfl (.inl rfl) rfl
      intro _
      apply Keeps.get.bind
      intro current
      exact Keeps.ite keeps_flush (Keeps.pure _)
    exact buffers sink sound

theorem keeps_close : Keeps (Sound limits) close := by
  apply keeps_flush.bind
  intro _
  apply keeps_closeCurrentFile.bind
  intro _
  exact Keeps.modify fun _ sound => sound.of_same rfl rfl rfl (.inl rfl) rfl

variable (format : Sink.Format Text Event)

theorem Sound.step (sound : Sound limits sink) (action : Action Event × List Reply) :
    Sound limits (step format sink action) := by
  have entered := keeps_replies action.2 sink sound
  rcases action with ⟨event | _ | _, replies⟩
  · exact keeps_write format event _ entered
  · exact keeps_flush _ entered
  · exact keeps_close _ entered

theorem Sound.run (sound : Sound limits sink) (actions : List (Action Event × List Reply)) :
    Sound limits (run format sink actions) := by
  induction actions generalizing sink with
  | nil => exact sound
  | cons action rest ih => exact ih (sound.step format action)

end

end Grab.Storage.LogSink

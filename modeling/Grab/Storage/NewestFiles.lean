import Grab.Storage.LogRetention

/-!
# The newest files of the log

What a flush leaves of the log is the longest end of it, by name, that the limits allow.
-/

namespace Grab.Storage.LogSink

open Grab.Lib List

open Grab.Lib.Decimal (Text)

/-! ## The files of the log -/

def isLogFile (entry : DirectoryEntry) : Bool := hasJsonlExtension entry.name && entry.regular

/-- What the loop knows of a file. -/
def jsonlFile (entry : DirectoryEntry) : JsonlFile where
  name := entry.name
  size := UInt64.ofNat entry.size

def ByName (first second : DirectoryEntry) : Prop :=
  Path.octets first.name ≤ Path.octets second.name

instance : DecidableRel ByName := fun first second =>
  inferInstanceAs (Decidable (Path.octets first.name ≤ Path.octets second.name))

instance : Std.Total ByName where
  total first second := Std.Total.total (Path.octets first.name) (Path.octets second.name)

instance : IsTrans DirectoryEntry ByName where
  trans _ _ _ := le_trans

/-- The files of the log in the order of their names. -/
def logFiles (entries : List DirectoryEntry) : List DirectoryEntry :=
  (entries.filter isLogFile).insertionSort ByName

def totalSize (entries : List DirectoryEntry) : ℕ := (entries.map (·.size)).sum

/-- Within both limits. -/
def Fits (options : JsonlOptions) (entries : List DirectoryEntry) : Prop :=
  entries.length ≤ options.maxFiles ∧ totalSize entries ≤ options.maxDiskMb * Sink.bytesPerMegabyte

/-! ## What the loop is given -/

theorem totalSize_cons (first : DirectoryEntry) (rest : List DirectoryEntry) :
    totalSize (first :: rest) = first.size + totalSize rest :=
  sum_cons

variable (entries : List DirectoryEntry) (options : JsonlOptions) {limits : JsonlOptions}

theorem foldl_map_jsonlFile (start : UInt64) :
    (entries.map jsonlFile).foldl (fun total file => total + file.size) start =
      start + UInt64.ofNat (totalSize entries) := by
  induction entries generalizing start with
  | nil => exact (UInt64.add_zero start).symm
  | cons first rest ih =>
    rw [map_cons, foldl_cons, ih, totalSize_cons, UInt64.ofNat_add, UInt64.add_assoc]
    rfl

theorem totalOf_map_jsonlFile :
    totalOf (entries.map jsonlFile) = UInt64.ofNat (totalSize entries) :=
  (foldl_map_jsonlFile entries 0).trans (UInt64.zero_add _)

theorem insertionSort_map_jsonlFile :
    (entries.map jsonlFile).insertionSort NotAfter = (entries.insertionSort ByName).map jsonlFile :=
  (map_insertionSort _ _ jsonlFile entries fun _ _ _ _ => Iff.rfl).symm

theorem totalSize_perm {first second : List DirectoryEntry} (perm : first.Perm second) :
    totalSize first = totalSize second :=
  (perm.map _).sum_nat

/-- The scan finds the files of the log. -/
theorem ensures_scan {kept : LogSink → Prop} (indifferent : Indifferent kept)
    (entries : List DirectoryEntry) :
    Ensures kept (scan entries) (Ends (fun _ _ => True) fun files sink =>
      files = (entries.filter isLogFile).map jsonlFile ∧ kept sink) := by
  induction entries with
  | nil => exact Ensures.done fun _ holds => ⟨rfl, holds⟩
  | cons entry rest ih =>
    unfold scan
    split
    case isTrue foreign =>
      have skipped : isLogFile entry = false := by
        rw [isLogFile, Bool.eq_false_of_not_eq_true foreign, Bool.false_and]
      rw [filter_cons_of_neg (by rw [skipped]; exact Bool.false_ne_true)]
      exact ih
    case isFalse named =>
      rw [not_not] at named
      apply Ensures.proceed (keeps_ask indifferent _).ends fun _ _ _ => trivial
      intro _
      split
      case isTrue irregular =>
        have skipped : isLogFile entry = false := by
          rw [isLogFile, Bool.eq_false_of_not_eq_true irregular, Bool.and_false]
        rw [filter_cons_of_neg (by rw [skipped]; exact Bool.false_ne_true)]
        exact ih
      case isFalse regular =>
        rw [not_not] at regular
        have found : isLogFile entry := by rw [isLogFile, named, regular, Bool.and_self]
        rw [filter_cons_of_pos found]
        apply Ensures.proceed (keeps_ask indifferent _).ends fun _ _ _ => trivial
        intro _
        apply Ensures.proceed ih fun _ _ _ => trivial
        intro files
        apply Ensures.done
        rintro sink ⟨rfl, holds⟩
        exact ⟨rfl, holds⟩

theorem diskBudgetBytes_lt_iff {total : ℕ} (bounded : total < 2 ^ 64) :
    diskBudgetBytes options < UInt64.ofNat total ↔
      options.maxDiskMb * Sink.bytesPerMegabyte < total := by
  unfold diskBudgetBytes Sink.bytesPerMegabyte
  rw [UInt64.lt_iff_toNat_lt, UInt64.toNat_ofNat', Nat.mod_eq_of_lt bounded]
  split
  · rw [UInt64.toNat_ofNat']
    omega
  · rw [UInt64.toNat_ofNat', Nat.mod_eq_of_lt (by omega)]

/-! ## The loop -/

theorem fits_nil : Fits options [] := ⟨Nat.zero_le _, Nat.zero_le _⟩

variable (oldest : DirectoryEntry) (rest : List DirectoryEntry)

/-- The loop goes on as long as the files do not fit. -/
theorem goesOn_iff (bounded : totalSize (oldest :: rest) < 2 ^ 64) :
    options.maxFiles < (rest.map jsonlFile).length + 1 ∨
        diskBudgetBytes options < UInt64.ofNat (totalSize (oldest :: rest)) ↔
      ¬Fits options (oldest :: rest) := by
  rw [diskBudgetBytes_lt_iff options bounded, length_map, Fits, length_cons,
    not_and_or, Nat.not_le, Nat.not_le]

theorem sub_jsonlFile :
    UInt64.ofNat (totalSize (oldest :: rest)) - (jsonlFile oldest).size =
      UInt64.ofNat (totalSize rest) := by
  rw [totalSize_cons, UInt64.ofNat_add, UInt64.add_comm]
  exact UInt64.add_sub_cancel _ _

/-- The entries without those of some names. -/
def without (gone entries : List DirectoryEntry) : List DirectoryEntry :=
  entries.filter fun entry => gone.all fun other => other.name ≠ entry.name

theorem without_nil : without [] entries = entries := filter_eq_self.mpr fun _ _ => rfl

theorem without_cons (first : DirectoryEntry) (rest entries : List DirectoryEntry) :
    without rest (entries.filter (·.name ≠ first.name)) = without (first :: rest) entries := by
  unfold without
  rw [filter_filter]
  apply filter_congr
  intro entry _
  rw [all_cons, Bool.and_comm]
  congr 1
  exact decide_eq_decide.mpr ne_comm

theorem indifferent_entries : Indifferent fun sink => sink.entries = entries :=
  ⟨fun _ _ same equal _ _ _ _ => equal.trans same⟩

theorem keeps_entries_closeNamed (name : Text) :
    Keeps (fun sink => sink.entries = entries) (closeNamed name) := by
  refine Ensures.get_bind ?_
  intro current same
  split
  · rintro sink rfl
    have closes : Keeps (fun sink => sink.entries = entries) closeCurrentFile := by
      refine Ensures.get_bind ?_
      intro current same
      cases current.current with
      | none =>
        rintro sink rfl
        exact same
      | some opened =>
        refine Ensures.bind (fun _ sink => sink.entries = entries) ?_
          fun _ => keeps_ask (indifferent_entries entries) _
        rintro sink rfl
        exact same
    exact closes sink same
  · rintro sink rfl
    exact same

/-- The loop removes a front of the files, and what stays is the longest end that fits. -/
theorem ensures_removeOldest (files entries : List DirectoryEntry)
    (bounded : totalSize files < 2 ^ 64) :
    Ensures (fun sink => sink.entries = entries)
      (removeOldest options (UInt64.ofNat (totalSize files)) (files.map jsonlFile))
      (Ends (fun _ _ => True) fun _ sink => ∃ gone kept, files = gone ++ kept ∧
        Suffix.Longest (Fits options) files kept ∧ sink.entries = without gone entries) := by
  induction files generalizing entries with
  | nil =>
    apply Ensures.done
    intro sink same
    exact ⟨[], [], rfl, Suffix.Longest.refl (fits_nil options),
      same.trans (without_nil entries).symm⟩
  | cons oldest rest ih =>
    have fewer : totalSize rest < 2 ^ 64 := by
      rw [totalSize_cons] at bounded
      omega
    rw [map_cons, removeOldest]
    split
    case isTrue goesOn =>
      have large := (goesOn_iff options oldest rest bounded).mp goesOn
      rw [sub_jsonlFile]
      apply Ensures.proceed (keeps_entries_closeNamed entries _).ends fun _ _ _ => trivial
      intro _
      apply Ensures.proceed (keeps_ask (indifferent_entries entries) _).ends fun _ _ _ => trivial
      intro _
      have forgets : Ensures (fun sink => sink.entries = entries)
          (change (forget (jsonlFile oldest).name))
          (Ends (fun _ _ => True) fun _ sink =>
            sink.entries = entries.filter (·.name ≠ oldest.name)) := by
        rintro sink rfl
        rfl
      apply Ensures.proceed forgets fun _ _ _ => trivial
      intro _
      refine (ih (entries.filter (·.name ≠ oldest.name)) fewer).ends (fun _ _ _ => trivial) ?_
      rintro _ sink ⟨gone, kept, rfl, longest, left⟩
      refine ⟨oldest :: gone, kept, rfl, longest.cons large, ?_⟩
      rw [left, without_cons]
    case isFalse stops =>
      have small : Fits options (oldest :: rest) :=
        not_not.mp ((goesOn_iff options oldest rest bounded).not.mp stops)
      apply Ensures.done
      intro sink same
      exact ⟨[], oldest :: rest, rfl, Suffix.Longest.refl small,
        same.trans (without_nil entries).symm⟩

/-! ## What is left -/

section

variable {entries gone kept : List DirectoryEntry}

theorem eq_of_name {files : List DirectoryEntry} (distinct : (files.map (·.name)).Nodup)
    {first second : DirectoryEntry} (one : first ∈ files) (other : second ∈ files)
    (same : first.name = second.name) : first = second :=
  inj_on_of_nodup_map distinct one other same

variable (distinct : (entries.map (·.name)).Nodup)

include distinct

theorem nodup_logFiles : ((logFiles entries).map (·.name)).Nodup := by
  have perm := (perm_insertionSort ByName (entries.filter isLogFile)).map (·.name)
  exact perm.nodup_iff.mpr (distinct.sublist (filter_sublist.map _))

variable (split : logFiles entries = gone ++ kept)

include split

/-- Of sorted files those that are not removed are what remains. -/
theorem without_logFiles :
    (logFiles entries).filter (fun entry => gone.all fun other => other.name ≠ entry.name) =
      kept := by
  have names := nodup_logFiles distinct
  rw [split, map_append, nodup_append] at names
  rw [split, filter_append]
  have none : gone.filter (fun entry => gone.all fun other => other.name ≠ entry.name) = [] := by
    rw [filter_eq_nil_iff]
    intro entry member all
    exact absurd rfl (of_decide_eq_true (all_eq_true.mp all entry member))
  have all : kept.filter (fun entry => gone.all fun other => other.name ≠ entry.name) = kept := by
    rw [filter_eq_self]
    intro entry member
    rw [all_eq_true]
    intro other removed
    exact decide_eq_true (names.2.2 _ (mem_map_of_mem removed) _ (mem_map_of_mem member))
  rw [none, all, nil_append]

/-- The files of the log that remain are the end that is kept. -/
theorem logFiles_without : logFiles (without gone entries) = kept := by
  have sorted : (logFiles entries).Pairwise ByName :=
    pairwise_insertionSort ByName (entries.filter isLogFile)
  have remains : (logFiles (without gone entries)).Perm kept := by
    rw [← without_logFiles distinct split]
    refine (perm_insertionSort ByName _).trans ?_
    rw [without, filter_comm]
    exact (perm_insertionSort ByName (entries.filter isLogFile)).symm.filter _
  have distinctKept : (kept.map (·.name)).Nodup := by
    have names := nodup_logFiles distinct
    rw [split, map_append] at names
    exact names.sublist (sublist_append_right _ _)
  refine Perm.eq_of_pairwise ?_ (pairwise_insertionSort ByName _) ?_ remains
  · intro first second one other before after
    apply eq_of_name distinctKept (remains.subset one) other
    exact Path.octets_injective (le_antisymm before after)
  · rw [split] at sorted
    exact sorted.sublist (sublist_append_right _ _)

/-- What is not of the log stays. -/
theorem mem_without {entry : DirectoryEntry} (foreign : isLogFile entry = false) :
    entry ∈ without gone entries ↔ entry ∈ entries := by
  rw [without, mem_filter]
  constructor
  · exact And.left
  intro member
  refine ⟨member, ?_⟩
  rw [all_eq_true]
  intro other removed
  apply decide_eq_true
  intro same
  have listed : other ∈ logFiles entries := split ▸ mem_append_left _ removed
  have found := (perm_insertionSort ByName (entries.filter isLogFile)).subset listed
  rcases mem_filter.mp found with ⟨inside, isLog⟩
  rw [eq_of_name distinct inside member same, foreign] at isLog
  cases isLog

end

/-- The sink when a flush has written its buffer. -/
def written (sink : LogSink) : LogSink := (writeBuffer.run sink).2

/-- A flush leaves the longest end of the log that fits, and nothing else goes. -/
structure KeepsNewest (sink : LogSink) : Prop where
  longest : Suffix.Longest (Fits sink.options) (logFiles sink.written.entries)
    (logFiles (flush.run sink).2.entries)
  others : ∀ entry, isLogFile entry = false →
    (entry ∈ (flush.run sink).2.entries ↔ entry ∈ sink.written.entries)

theorem ensures_enforceRetention {entries : List DirectoryEntry}
    (bounded : totalSize (logFiles entries) < 2 ^ 64) :
    Ensures (fun sink => sink.options = limits ∧ sink.entries = entries) enforceRetention
      (Ends (fun _ _ => True) fun _ sink => ∃ gone kept, logFiles entries = gone ++ kept ∧
        Suffix.Longest (Fits limits) (logFiles entries) kept ∧
        sink.entries = without gone entries) := by
  refine Ensures.get_bind ?_
  rintro current ⟨rfl, rfl⟩
  have same : Indifferent fun sink => sink.entries = current.entries :=
    indifferent_entries current.entries
  have enforces : Ensures (fun sink => sink.entries = current.entries)
      (proceed (ask fun cause => { code := .internalFault, message := cause }) fun _ =>
        proceed (scan current.entries) fun files =>
        removeOldest current.options (totalOf files) (files.insertionSort NotAfter))
      (Ends (fun _ _ => True) fun _ sink => ∃ gone kept,
        logFiles current.entries = gone ++ kept ∧
        Suffix.Longest (Fits current.options) (logFiles current.entries) kept ∧
        sink.entries = without gone current.entries) := by
    apply Ensures.proceed (keeps_ask same _).ends fun _ _ _ => trivial
    intro _
    apply Ensures.proceed (ensures_scan same current.entries) fun _ _ _ => trivial
    rintro files sink ⟨rfl, unchanged⟩
    rw [totalOf_map_jsonlFile, insertionSort_map_jsonlFile,
      totalSize_perm (perm_insertionSort ByName (current.entries.filter isLogFile)).symm]
    exact ensures_removeOldest current.options _ current.entries bounded sink unchanged
  exact fun sink equal => enforces sink (congrArg LogSink.entries equal)

theorem keepsNewest_of_flush {sink : LogSink} (sound : Sound limits sink)
    (opened : sink.closed = false) (some : sink.buffer ≠ [])
    (bounded : totalSize (logFiles sink.written.entries) < 2 ^ 64)
    (succeeds : (flush.run sink).1 = .ok ()) : KeepsNewest sink := by
  have both : flush.run sink = (proceed writeBuffer fun _ => enforceRetention).run sink := by
    have flushes : flush.run sink =
        (if sink.closed ∨ sink.buffer = [] then return .ok ()
          else proceed writeBuffer fun _ => enforceRetention : StateM LogSink Result).run sink :=
      rfl
    rw [flushes, if_neg]
    rintro (closed | empty)
    · rw [opened] at closed
      cases closed
    · exact some empty
  have middle : Sound limits sink.written := keeps_writeBuffer sink sound
  rcases writes : writeBuffer.run sink with ⟨result, after⟩
  have isAfter : sink.written = after := congrArg Prod.snd writes
  cases result with
  | error error =>
    rw [both, run_proceed_error writes] at succeeds
    cases succeeds
  | ok value =>
    rw [run_proceed_ok writes, ← isAfter] at both
    have retains := ensures_enforceRetention bounded sink.written ⟨rfl, rfl⟩
    rw [both] at succeeds
    rw [succeeds] at retains
    rcases retains with ⟨gone, kept, split, longest, left⟩
    constructor
    case longest =>
      rw [both, left, logFiles_without middle.distinct split, sound.options, ← middle.options]
      exact longest
    case others =>
      intro entry foreign
      rw [both, left]
      exact mem_without middle.distinct split foreign

/-- Nothing is written to a file that was removed, for every file that is written to is listed
under the name of its date, and whenever a flush succeeds that had something to write, what is left
of the log is its longest end within the limits. -/
theorem log_keeps_newest {Event : Type} (format : Sink.Format Text Event) (limits : JsonlOptions)
    (entries : List DirectoryEntry) (fresh : ℕ) (distinct : (entries.map (·.name)).Nodup)
    (numbered : ∀ entry ∈ entries, entry.file < fresh)
    (actions : List (Action Event × List Reply)) {sink : LogSink}
    (reached : run format { options := limits, entries, fresh } actions = sink) :
    (∀ date file listed, .wrote date file listed ∈ sink.deeds → listed = true) ∧
      sink.deeds.Pairwise Outlived ∧
      ∀ buffer replies, sink.closed = false → buffer ≠ [] →
        totalSize (logFiles (written { sink with buffer, replies }).entries) < 2 ^ 64 →
        (flush.run { sink with buffer, replies }).1 = .ok () →
        KeepsNewest { sink with buffer, replies } := by
  have starts : Sound limits { options := limits, entries, fresh } :=
    { options := rfl
      distinct := distinct
      numbered := numbered
      opened := fun _ isOpen => by cases isOpen
      wrote := fun _ _ _ deed => by cases deed
      removed := fun _ _ deed => by cases deed
      outlived := List.Pairwise.nil }
  have sound := starts.run format actions
  rw [reached] at sound
  refine ⟨sound.wrote, sound.outlived, ?_⟩
  intro buffer replies opened some bounded succeeds
  exact keepsNewest_of_flush (sound.of_same rfl rfl rfl (.inl rfl) rfl) opened some bounded succeeds

/-- An event that is its date and its line. -/
def dated : Sink.Format Text (Text × Bytes) where
  dateFromTimestamp event := .ok event.1
  serializeLine event := .ok event.2

def firstDay : Text := Path.ascii "2024-01-01"

def secondDay : Text := Path.ascii "2024-01-02"

/-- One file of the log and a line for the next day, where one file may stay. -/
def nextDay : LogSink where
  options := { maxFiles := 1 }
  entries := [{ name := nameForDate firstDay, file := 0, size := 5 }]
  fresh := 1

theorem log_keeps_newest_nextDay :
    KeepsNewest { nextDay with buffer := [{ date := secondDay, line := [33] }], replies := [] } :=
  (log_keeps_newest dated nextDay.options nextDay.entries 1 (by decide) (by decide) []
    rfl).2.2 _ _ rfl (cons_ne_nil _ _) (by decide +kernel) (by decide +kernel)

/-- A flush without lines leaves a file where none may stay. -/
def idle : LogSink where
  options := { maxFiles := 0 }
  entries := [{ name := nameForDate firstDay, file := 0, size := 5 }]
  fresh := 1

/-- The sizes of two files wrap around: no end with both of them fits, and both stay. -/
def crowded : LogSink where
  buffer := [{ date := secondDay, line := [33] }]
  entries :=
    [{ name := nameForDate firstDay, file := 0, size := 2 ^ 63 },
      { name := nameForDate secondDay, file := 1, size := 2 ^ 63 }]
  fresh := 2

theorem flushes_keep_more :
    ((flush.run idle).1 = .ok () ∧
        ¬Suffix.Longest (Fits idle.options) (logFiles idle.written.entries)
          (logFiles (flush.run idle).2.entries)) ∧
      (flush.run crowded).1 = .ok () ∧
        ¬Suffix.Longest (Fits crowded.options) (logFiles crowded.written.entries)
          (logFiles (flush.run crowded).2.entries) := by
  refine ⟨⟨rfl, ?_⟩, by decide +kernel, ?_⟩
  · intro longest
    have few : (logFiles (flush.run idle).2.entries).length ≤ 0 := longest.holds.1
    have many : ¬(logFiles (flush.run idle).2.entries).length ≤ 0 := by decide +kernel
    exact many few
  intro longest
  have small := longest.holds.2
  have large : ¬totalSize (logFiles (flush.run crowded).2.entries) ≤
      crowded.options.maxDiskMb * Sink.bytesPerMegabyte := by decide +kernel
  exact large small

end Grab.Storage.LogSink

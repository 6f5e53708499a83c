import Grab.Sequence.Seat.Runner

/-!
# What a seat log says about holds

A hold is pending when its last press call has no release call after it, and
retired when a step of the document lifted it and nothing pressed it since.
`Grows` bounds what a piece of seat work may leave pending; it is closed under
sequencing, so each command is covered by its few calls on buttons and keys.
-/

namespace Grab.Kernel

open Grab.Sequence List

/-! ## Calls on holds -/

/-- The hold a call takes. -/
def SeatCall.takes : SeatCall → Option Hold
  | .button code true => some (.button code)
  | .keyByName name true => some (.key name)
  | .overlayGrab => some .capture
  | _ => none

/-- The hold a call lifts. -/
def SeatCall.lifts : SeatCall → Option Hold
  | .button code false => some (.button code)
  | .keyByName name false => some (.key name)
  | .overlayRelease => some .capture
  | _ => none

namespace Record

def takes : Record → Option Hold
  | .call _ request _ => request.takes
  | .lifted _ => none

def lifts : Record → Option Hold
  | .call _ request _ => request.lifts
  | .lifted _ => none

def origin : Record → Option Origin
  | .call origin _ _ => some origin
  | .lifted _ => none

def failed : Record → Bool
  | .call _ _ succeeded => !succeeded
  | .lifted _ => false

end Record

/-- The commands that press and release within one step and keep no flag. -/
def isTransient (command : Command) : Bool :=
  match command with
  | .click _ | .clickAt _ _ | .scroll _ _ | .key _ => true
  | _ => false

/-- A press call of a click, a scroll or a key tap that the seat refused. -/
def Record.refusedTap : Record → Bool
  | .call (.step _ step) request succeeded =>
    !succeeded && request.takes.isSome && isTransient step.command
  | _ => false

/-- No tap of the log was refused its press. -/
def Clean (log : List Record) : Prop := ∀ record ∈ log, record.refusedTap = false

variable {first second : List Record}

theorem Clean.append_left (clean : Clean (first ++ second)) : Clean first :=
  fun record member => clean record (mem_append_left _ member)

theorem Clean.append_right (clean : Clean (first ++ second)) : Clean second :=
  fun record member => clean record (mem_append_right _ member)

/-! ## Pending holds -/

/-- Follow one hold through one record. -/
def trackHold (hold : Hold) (pending : Bool) (record : Record) : Bool :=
  if record.takes = some hold then true
  else if record.lifts = some hold then false
  else pending

def pendingFrom (hold : Hold) (pending : Bool) (log : List Record) : Bool :=
  log.foldl (trackHold hold) pending

/-- Is the last press call on a hold without a release call after it? -/
def pendingIn (hold : Hold) (log : List Record) : Bool := pendingFrom hold false log

theorem pendingFrom_append (hold : Hold) (pending : Bool) (first second : List Record) :
    pendingFrom hold pending (first ++ second) =
      pendingFrom hold (pendingFrom hold pending first) second :=
  foldl_append

theorem pendingIn_append (hold : Hold) (first second : List Record) :
    pendingIn hold (first ++ second) = pendingFrom hold (pendingIn hold first) second :=
  pendingFrom_append hold false first second

variable {hold : Hold} {log : List Record} {pending : Bool}

/-- What is pending at the end was pending before or was pressed since. -/
theorem pendingFrom_cases (isPending : pendingFrom hold pending log = true) :
    pending = true ∨ pendingFrom hold false log = true := by
  cases pending with
  | true => exact .inl rfl
  | false => exact .inr isPending

/-- Records that do not touch a hold leave it as it is. -/
theorem pendingFrom_quiet
    (quiet : ∀ record ∈ log, record.takes ≠ some hold ∧ record.lifts ≠ some hold) :
    pendingFrom hold pending log = pending := by
  induction log with
  | nil => rfl
  | cons record rest ih =>
    obtain ⟨noTake, noLift⟩ := quiet record mem_cons_self
    have unchanged : trackHold hold pending record = pending := by
      rw [trackHold, if_neg noTake, if_neg noLift]
    rw [pendingFrom, foldl_cons, unchanged]
    exact ih fun other member => quiet other (mem_cons_of_mem _ member)

variable (untaken : ∀ record ∈ log, record.takes ≠ some hold)

include untaken

/-- Records without a press leave nothing pending that was not. -/
theorem pendingFrom_untaken : pendingFrom hold false log = false := by
  induction log with
  | nil => rfl
  | cons record rest ih =>
    obtain ⟨noTake, restUntaken⟩ := forall_mem_cons.mp untaken
    have stays : trackHold hold false record = false := by
      rw [trackHold, if_neg noTake, ite_self]
    rw [pendingFrom, foldl_cons, stays]
    exact ih restUntaken

/-- One release call among records without a press lifts the hold. -/
theorem pendingFrom_lifted {record : Record} (member : record ∈ log)
    (lifts : record.lifts = some hold) (pending : Bool) : pendingFrom hold pending log = false := by
  obtain ⟨front, back, rfl⟩ := append_of_mem member
  have lowered : trackHold hold (pendingFrom hold pending front) record = false := by
    rw [trackHold, if_neg (untaken record member), if_pos lifts]
  rw [pendingFrom_append, pendingFrom, foldl_cons, lowered]
  exact pendingFrom_untaken fun other inBack =>
    untaken other (mem_append_right _ (mem_cons_of_mem _ inBack))

omit untaken

/-- Every press call on a hold has a release call after it. -/
def Released (hold : Hold) (log : List Record) : Prop :=
  ∀ before record after, log = before ++ record :: after → record.takes = some hold →
    ∃ later ∈ after, later.lifts = some hold

theorem released_of_not_pending (notPending : pendingIn hold log = false) : Released hold log := by
  intro before record after logEq taken
  by_contra noneLater
  have lifts : ∀ later ∈ after, later.lifts ≠ some hold :=
    fun later member isLift => noneLater ⟨later, member, isLift⟩
  have stays : ∀ rest : List Record, (∀ later ∈ rest, later.lifts ≠ some hold) →
      pendingFrom hold true rest = true := by
    intro rest
    induction rest with
    | nil => exact fun _ => rfl
    | cons next rest ih =>
      intro noLifts
      have kept : trackHold hold true next = true := by
        rw [trackHold, if_neg (noLifts next mem_cons_self), ite_self]
      rw [pendingFrom, foldl_cons, kept]
      exact ih fun later member => noLifts later (mem_cons_of_mem _ member)
  have pressed : trackHold hold (pendingIn hold before) record = true := by
    rw [trackHold, if_pos taken]
  rw [logEq, pendingIn_append, pendingFrom, foldl_cons, pressed] at notPending
  rw [← pendingFrom, stays after lifts] at notPending
  cases notPending

/-! ## Retired holds -/

/-- Follow the completions of release steps through one record. -/
def trackRetired (hold : Hold) (retired : Bool) (record : Record) : Bool :=
  if record = .lifted hold then true
  else if record.takes = some hold then false
  else retired

/-- Has a step of the document lifted a hold that nothing pressed since? -/
def retiredIn (hold : Hold) (log : List Record) : Bool := log.foldl (trackRetired hold) false

theorem retiredIn_append (hold : Hold) (first second : List Record) :
    retiredIn hold (first ++ second) = second.foldl (trackRetired hold) (retiredIn hold first) :=
  foldl_append

/-- Calls alone retire nothing, and a press ends the retirement. -/
theorem retiredIn_calls {log records : List Record}
    (calls : ∀ record ∈ records, record.origin ≠ none)
    (retired : retiredIn hold (log ++ records) = true) :
    retiredIn hold log = true ∧ ∀ record ∈ records, record.takes ≠ some hold := by
  rw [retiredIn_append] at retired
  induction records generalizing log with
  | nil => exact ⟨retired, by simp⟩
  | cons record rest ih =>
    have isCall : record ≠ .lifted hold := by
      rintro rfl
      exact calls _ mem_cons_self rfl
    have restCalls : ∀ other ∈ rest, other.origin ≠ none :=
      fun other member => calls other (mem_cons_of_mem _ member)
    have stepEq : retiredIn hold (log ++ [record]) =
        trackRetired hold (retiredIn hold log) record := by
      rw [retiredIn_append]
      rfl
    rw [foldl_cons, ← stepEq] at retired
    obtain ⟨before, noneLater⟩ := ih restCalls retired
    rw [stepEq, trackRetired, if_neg isCall] at before
    split at before
    · cases before
    · rename_i noTake
      exact ⟨before, forall_mem_cons.mpr ⟨noTake, noneLater⟩⟩

/-! ## Growth of the log under seat work -/

/-- The log grew by calls of one origin, and without a refused tap only `holds`
may be left pending by them. -/
def Grows {σ : Type} (origin : Origin) (holds : Hold → Prop) (before after : Wire σ) : Prop :=
  ∃ records, after.log = before.log ++ records ∧
    (∀ record ∈ records, record.origin = some origin) ∧
    (Clean records → ∀ hold, pendingFrom hold false records = true → holds hold)

section

variable {σ : Type} {origin : Origin} {holds : Hold → Prop} {before middle after : Wire σ}
  {first second : Attempt σ}

theorem Grows.refl (wire : Wire σ) : Grows origin holds wire wire :=
  ⟨[], (append_nil _).symm, by simp, by simp [pendingFrom]⟩

theorem Grows.trans (first : Grows origin holds before middle)
    (second : Grows origin holds middle after) : Grows origin holds before after := by
  obtain ⟨firstRecords, firstLog, firstOrigin, firstHolds⟩ := first
  obtain ⟨secondRecords, secondLog, secondOrigin, secondHolds⟩ := second
  refine ⟨firstRecords ++ secondRecords, ?_, ?_, ?_⟩
  · rw [secondLog, firstLog, append_assoc]
  · intro record member
    rcases mem_append.mp member with inFirst | inSecond
    · exact firstOrigin record inFirst
    · exact secondOrigin record inSecond
  intro clean hold isPending
  rw [pendingFrom_append] at isPending
  rcases pendingFrom_cases isPending with inFirst | inSecond
  · exact firstHolds clean.append_left hold inFirst
  · exact secondHolds clean.append_right hold inSecond

/-- One recorded call. -/
theorem grows_seatCall (seat : Seat σ) (request : SeatCall) (wire : Wire σ)
    (taken : ∀ hold, request.takes = some hold → holds hold) :
    Grows origin holds wire (seatCall seat origin request wire).2 := by
  refine ⟨[_], rfl, by simp [Record.origin], ?_⟩
  intro _ hold isPending
  apply taken
  simp only [pendingFrom, foldl_cons, foldl_nil, trackHold] at isPending
  split at isPending
  · rename_i isTake
    exact isTake
  · split at isPending <;> cases isPending

theorem grows_andThen (firstGrows : ∀ wire, Grows origin holds wire (first wire).2)
    (secondGrows : ∀ wire, Grows origin holds wire (second wire).2) (wire : Wire σ) :
    Grows origin holds wire (first.andThen second wire).2 := by
  rw [Attempt.andThen]
  split
  · exact (firstGrows wire).trans (secondGrows _)
  · exact firstGrows wire

/-! ## Taps -/

/-- Seat work that leaves nothing pending and was refused no press, or that ended in a press it was
refused. -/
def Tidy (origin : Origin) (attempt : Attempt σ) : Prop :=
  ∀ wire, ∃ records, (attempt wire).2.log = wire.log ++ records ∧
    (∀ record ∈ records, record.origin = some origin) ∧
    (Clean records ∧ (∀ hold, pendingFrom hold false records = false) ∨
      (attempt wire).1 = false ∧ ∃ front last hold, records = front ++ [last] ∧
        last.takes = some hold ∧ last.refusedTap = true)

theorem Tidy.grows {attempt : Attempt σ} (tidy : Tidy origin attempt) (wire : Wire σ) :
    Grows origin holds wire (attempt wire).2 := by
  rcases tidy wire with
    ⟨records, logEq, made, ⟨_, settled⟩ | ⟨_, front, last, hold, rfl, _, refused⟩⟩
  · refine ⟨records, logEq, made, fun _ hold isPending => ?_⟩
    rw [settled hold] at isPending
    cases isPending
  refine ⟨_, logEq, made, fun clean => ?_⟩
  have granted := clean last (mem_append_right _ mem_cons_self)
  rw [refused] at granted
  cases granted

theorem Tidy.andThen (firstTidy : Tidy origin first) (secondTidy : Tidy origin second) :
    Tidy origin (first.andThen second) := by
  intro wire
  rcases firstTidy wire with ⟨front, frontLog, frontMade, frontEnds⟩
  rw [Attempt.andThen]
  split
  · rename_i succeeded
    rcases frontEnds with ⟨frontClean, frontSettled⟩ | ⟨failed, _⟩
    · rcases secondTidy (first wire).2 with ⟨back, backLog, backMade, backEnds⟩
      refine ⟨front ++ back, by rw [backLog, frontLog, append_assoc], ?_, ?_⟩
      · intro record member
        exact (mem_append.mp member).elim (frontMade record) (backMade record)
      rcases backEnds with ⟨backClean, backSettled⟩ | ⟨failed, before, last, hold, rfl, ends⟩
      · refine .inl ⟨?_, fun hold => ?_⟩
        · intro record member
          exact (mem_append.mp member).elim (frontClean record) (backClean record)
        · rw [pendingFrom_append, frontSettled, backSettled]
      · exact .inr ⟨failed, front ++ before, last, hold, (append_assoc _ _ _).symm, ends⟩
    · rw [succeeded] at failed
      cases failed
  · rename_i failed
    rw [Bool.not_eq_true] at failed
    refine ⟨front, frontLog, frontMade, frontEnds.imp_right fun ends => ⟨rfl, ends.2⟩⟩

theorem tidy_done : Tidy origin (Attempt.done : Attempt σ) :=
  fun _ => ⟨[], (append_nil _).symm, by simp, .inl ⟨by simp [Clean], fun _ => rfl⟩⟩

theorem tidy_refuse : Tidy origin (Attempt.refuse : Attempt σ) :=
  fun _ => ⟨[], (append_nil _).symm, by simp, .inl ⟨by simp [Clean], fun _ => rfl⟩⟩

/-- A call that takes no hold. -/
theorem tidy_seatCall (seat : Seat σ) {request : SeatCall} (noTake : request.takes = none) :
    Tidy origin (seatCall seat origin request) := by
  intro wire
  refine ⟨[_], rfl, by simp [Record.origin], .inl ⟨?_, fun hold => ?_⟩⟩
  · intro record member
    rw [mem_singleton.mp member]
    cases origin with
    | step _ _ => simp [Record.refusedTap, noTake]
    | outstanding => rfl
  apply pendingFrom_untaken
  intro record member
  rw [mem_singleton.mp member]
  simp [Record.takes, noTake]

end

end Grab.Kernel

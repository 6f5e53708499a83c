import Grab.Storage.JsonlSink

/-!
# Every event once

A flush that fails keeps the whole buffer, also when some of it is in the files already.  The
files are right after the next successful flush exactly when no flush has failed behind a
`write` that accepted a byte.
-/

namespace Grab.Storage

open List

namespace Sink

variable {Date Event : Type}

/-! ## What should be in the files -/

def contents (sink : Sink Date) (date : Date) : Bytes := (sink.files date).getD []

theorem flatMap_filter_cons {α : Type} (keep : α → Bool) (body : α → Bytes) (first : α)
    (rest : List α) : ((first :: rest).filter keep).flatMap body =
      (if keep first then body first else []) ++ (rest.filter keep).flatMap body := by
  rw [filter_cons]
  split <;> rfl

section

variable [DecidableEq Date]

/-- The lines of a date, in order. -/
def expected (lines : List (BufferedLine Date)) (date : Date) : Bytes :=
  (lines.filter fun line => line.date = date).flatMap fun line => ended line.line

/-- The batches of a date, in order. -/
def batched (runs : List (Date × Bytes)) (date : Date) : Bytes :=
  (runs.filter fun batch => batch.1 = date).flatMap Prod.snd

theorem expected_cons (line : BufferedLine Date) (rest : List (BufferedLine Date)) (date : Date) :
    expected (line :: rest) date =
      (if line.date = date then ended line.line else []) ++ expected rest date := by
  unfold expected
  rw [flatMap_filter_cons]
  simp only [decide_eq_true_eq]

theorem expected_append (first second : List (BufferedLine Date)) (date : Date) :
    expected (first ++ second) date = expected first date ++ expected second date := by
  unfold expected
  rw [filter_append, flatMap_append]

theorem batched_cons (batch : Date × Bytes) (rest : List (Date × Bytes)) (date : Date) :
    batched (batch :: rest) date =
      (if batch.1 = date then batch.2 else []) ++ batched rest date := by
  unfold batched
  rw [flatMap_filter_cons]
  simp only [decide_eq_true_eq]

/-- Cutting the buffer into batches loses and reorders nothing. -/
theorem batched_batches (lines : List (BufferedLine Date)) (date : Date) :
    batched (batches lines) date = expected lines date := by
  induction lines with
  | nil => rfl
  | cons line rest later =>
    rw [expected_cons, ← later, batches]
    cases batches rest with
    | nil => rw [batched_cons]
    | cons batch runs =>
      dsimp only
      by_cases same : batch.1 = line.date
      · rw [if_pos same, batched_cons, batched_cons, same]
        by_cases here : line.date = date
        · simp only [if_pos here, append_assoc]
        · simp only [if_neg here, nil_append]
      · rw [if_neg same, batched_cons]

end

/-! ## The system calls of a flush -/

/-- A `write` that took at least one byte. -/
def accepts : Call × Reply → Bool
  | (.write, .wrote count) => count ≠ 0
  | _ => false

/-- A system call whose failure stops the flush with the buffer kept. -/
def fails : Call × Reply → Bool
  | (.scan, _) => false
  | (_, .failed _) => true
  | _ => false

/-- No system call fails behind a `write` that accepted a byte. -/
def Clean (calls : List (Call × Reply)) : Prop :=
  calls.Pairwise fun earlier later => ¬(accepts earlier = true ∧ fails later = true)

/-- Only the last call fails, and it does so when there is an error. -/
def Ends (result : Result) (calls : List (Call × Reply)) : Prop :=
  match result with
  | .ok _ => ∀ call ∈ calls, fails call = false
  | .error _ => ∃ earlier last, calls = earlier ++ [last] ∧ fails last = true ∧
      ∀ call ∈ earlier, fails call = false

variable {call : Call × Reply} {first second : Date → Bytes} {reached : Sink Date × Result}
  {next : Sink Date → Sink Date × Result} {sink : Sink Date} {calls : List (Call × Reply)}
  {before after : Sink Date} {target : Date → Bytes} {result : Result} {error : Error}

theorem accepts_eq_false_of_fails (failing : fails call = true) : accepts call = false := by
  rcases call with ⟨kind, reply⟩
  cases kind <;> cases reply <;> first | rfl | cases failing

theorem clean_of_ok (ends : Ends (.ok ()) calls) : Clean calls := by
  unfold Clean
  rw [pairwise_iff_forall_sublist]
  intro earlier later pair
  have member : later ∈ calls := pair.subset (by simp)
  rintro ⟨_, failing⟩
  rw [ends later member] at failing
  cases failing

theorem clean_iff_of_error (ends : Ends (.error error) calls) :
    Clean calls ↔ ∀ call ∈ calls, accepts call = false := by
  rcases ends with ⟨earlier, last, rfl, failing, calm⟩
  unfold Clean
  rw [pairwise_append]
  constructor
  · rintro ⟨_, _, pairs⟩ call member
    rcases mem_append.mp member with before | atEnd
    · have apart := pairs call before last (mem_singleton_self last)
      cases accepting : accepts call with
      | false => rfl
      | true => exact absurd ⟨accepting, failing⟩ apart
    · rw [mem_singleton.mp atEnd]
      exact accepts_eq_false_of_fails failing
  · intro silent
    refine ⟨?_, pairwise_singleton _ _, ?_⟩
    · apply clean_of_ok
      exact calm
    · rintro call before _ _ ⟨accepting, _⟩
      rw [silent call (mem_append_left _ before)] at accepting
      cases accepting

theorem Ends.append {made further : List (Call × Reply)} (ends : Ends result further)
    (calm : ∀ call ∈ made, fails call = false) : Ends result (made ++ further) := by
  cases result with
  | ok value =>
    intro call member
    rcases mem_append.mp member with before | behind
    · exact calm call before
    · exact ends call behind
  | error error =>
    rcases ends with ⟨earlier, last, rfl, failing, quiet⟩
    refine ⟨made ++ earlier, last, (append_assoc ..).symm, failing, ?_⟩
    intro call member
    rcases mem_append.mp member with before | behind
    · exact calm call before
    · exact quiet call behind

/-! ## What one operation does -/

/-- An operation appends `grown` to the files with the system calls `made`; when it succeeds it
has appended all of `target`. -/
structure Effect (before : Sink Date) (reached : Sink Date × Result) (target : Date → Bytes)
    (grown : Date → Bytes) (made : List (Call × Reply)) : Prop where
  contents : ∀ date, reached.1.contents date = before.contents date ++ grown date
  calls : reached.1.calls = before.calls ++ made
  quiet : (∀ date, grown date = []) ↔ ∀ call ∈ made, accepts call = false
  ends : Ends reached.2 made
  complete : reached.2 = .ok () → grown = target
  buffer : reached.1.buffer = before.buffer
  closed : reached.1.closed = before.closed
  bufferLimit : reached.1.bufferLimit = before.bufferLimit

def Effects (before : Sink Date) (reached : Sink Date × Result) (target : Date → Bytes) : Prop :=
  ∃ grown made, Effect before reached target grown made

/-- Nothing is appended. -/
def nothing : Date → Bytes := fun _ => []

theorem effects_refl (sink : Sink Date) : Effects sink (sink, .ok ()) nothing := by
  refine ⟨nothing, [], ?_⟩
  constructor
  case contents => exact fun _ => (append_nil _).symm
  case calls => exact (append_nil _).symm
  case quiet => exact ⟨fun _ _ member => absurd member not_mem_nil, fun _ _ => rfl⟩
  case ends => exact forall_mem_nil _
  case complete => exact fun _ => rfl
  case buffer => rfl
  case closed => rfl
  case bufferLimit => rfl

/-- An operation that succeeds and another one. -/
theorem Effects.trans {before middle : Sink Date}
    (effects : Effects before (middle, .ok ()) first) (later : Effects middle reached second) :
    Effects before reached fun date => first date ++ second date := by
  rcases effects with ⟨grown, made, effect⟩
  rcases later with ⟨more, further, next⟩
  refine ⟨fun date => grown date ++ more date, made ++ further, ?_⟩
  constructor
  case contents =>
    intro date
    rw [next.contents, effect.contents, append_assoc]
  case calls => rw [next.calls, effect.calls, append_assoc]
  case quiet =>
    simp only [append_eq_nil_iff, mem_append, or_imp, forall_and, effect.quiet, next.quiet]
  case ends =>
    have calm : ∀ call ∈ made, fails call = false := effect.ends
    exact next.ends.append calm
  case complete =>
    intro ok
    rw [effect.complete rfl, next.complete ok]
  case buffer => exact next.buffer.trans effect.buffer
  case closed => exact next.closed.trans effect.closed
  case bufferLimit => exact next.bufferLimit.trans effect.bufferLimit

/-- What an operation should have appended does not matter once it has failed. -/
theorem Effects.of_error (effects : Effects before (after, .error error) first) :
    Effects before (after, .error error) second := by
  rcases effects with ⟨grown, made, effect⟩
  exact ⟨grown, made, { effect with complete := fun ok => by cases ok }⟩

/-- The second operation is only reached when the first one succeeds. -/
theorem Effects.andThen (effects : Effects before reached first)
    (later : ∀ sink, reached = (sink, .ok ()) → Effects sink (next sink) second) :
    Effects before (Sink.andThen reached next) fun date => first date ++ second date := by
  rcases reached with ⟨sink, result⟩
  cases result with
  | error error =>
    exact effects.of_error
  | ok value => exact effects.trans (later sink rfl)

/-- An operation of one system call that appends nothing. -/
theorem effects_call (call : Call × Reply)
    (contents : ∀ date, after.contents date = before.contents date)
    (calls : after.calls = before.calls ++ [call]) (silent : accepts call = false)
    (ends : Ends result [call]) (buffer : after.buffer = before.buffer)
    (closed : after.closed = before.closed) (bufferLimit : after.bufferLimit = before.bufferLimit) :
    Effects before (after, result) nothing := by
  refine ⟨nothing, [call], ?_⟩
  constructor
  case contents =>
    intro date
    rw [contents]
    exact (append_nil _).symm
  case calls => exact calls
  case quiet =>
    constructor
    · intro _ other member
      rw [mem_singleton.mp member]
      exact silent
    · exact fun _ _ => rfl
  case ends => exact ends
  case complete => exact fun _ => rfl
  case buffer => exact buffer
  case closed => exact closed
  case bufferLimit => exact bufferLimit

theorem ends_ok (calm : fails call = false) : Ends (.ok ()) [call] := by
  intro other member
  rw [mem_singleton.mp member]
  exact calm

theorem ends_error (error : Error) (failing : fails call = true) : Ends (.error error) [call] :=
  ⟨[], call, rfl, failing, forall_mem_nil _⟩

/-- A call other than the directory scan, of which only success or failure matters. -/
theorem effects_ask (sink : Sink Date) {call : Call} (failure : String → Error)
    (notWrite : call ≠ .write) (notScan : call ≠ .scan) :
    Effects sink (sink.ask call failure) nothing := by
  have silent : ∀ reply, accepts (call, reply) = false := by
    intro reply
    cases call <;> first | rfl | exact absurd rfl notWrite
  unfold ask
  split
  · refine effects_call (call, .done) (fun _ => rfl) rfl (silent .done) (ends_ok ?_) rfl rfl rfl
    cases call <;> rfl
  rename_i reply rest _
  cases reply with
  | failed cause =>
    refine effects_call (call, .failed cause) (fun _ => rfl) rfl (silent _) (ends_error _ ?_)
      rfl rfl rfl
    cases call <;> first | rfl | exact absurd rfl notScan
  | done =>
    refine effects_call (call, .done) (fun _ => rfl) rfl (silent _) (ends_ok ?_) rfl rfl rfl
    cases call <;> rfl
  | wrote count =>
    refine effects_call (call, .wrote count) (fun _ => rfl) rfl (silent _) (ends_ok ?_) rfl rfl rfl
    cases call <;> rfl
  | interrupted =>
    refine effects_call (call, .interrupted) (fun _ => rfl) rfl (silent _) (ends_ok ?_) rfl rfl rfl
    cases call <;> rfl

/-- What an operation appends does not depend on the fields it is not about. -/
theorem Effects.congr {before other : Sink Date} (effects : Effects other reached target)
    (contents : ∀ date, other.contents date = before.contents date)
    (calls : other.calls = before.calls) (buffer : other.buffer = before.buffer)
    (closed : other.closed = before.closed) (bufferLimit : other.bufferLimit = before.bufferLimit) :
    Effects before reached target := by
  rcases effects with ⟨grown, made, effect⟩
  refine ⟨grown, made, ?_⟩
  constructor
  case contents =>
    intro date
    rw [effect.contents, contents]
  case calls => rw [effect.calls, calls]
  case quiet => exact effect.quiet
  case ends => exact effect.ends
  case complete => exact effect.complete
  case buffer => exact effect.buffer.trans buffer
  case closed => exact effect.closed.trans closed
  case bufferLimit => exact effect.bufferLimit.trans bufferLimit

/-- Operations that append nothing, one after the other. -/
theorem Effects.andThen_nothing (effects : Effects before reached nothing)
    (later : ∀ sink, reached = (sink, .ok ()) → Effects sink (next sink) target) :
    Effects before (Sink.andThen reached next) target :=
  effects.andThen later

theorem ask_files (sink : Sink Date) (call : Call) (failure : String → Error) :
    (sink.ask call failure).1.files = sink.files := by
  unfold ask
  split <;> rfl

theorem ask_calls (sink : Sink Date) (call : Call) (failure : String → Error) :
    ∃ reply, (sink.ask call failure).1.calls = sink.calls ++ [(call, reply)] := by
  unfold ask
  split <;> exact ⟨_, rfl⟩

theorem ask_frame (sink : Sink Date) (call : Call) (failure : String → Error) :
    (sink.ask call failure).1.buffer = sink.buffer ∧
      (sink.ask call failure).1.closed = sink.closed := by
  unfold ask
  split <;> exact ⟨rfl, rfl⟩

theorem effects_closeCurrentFile (sink : Sink Date) :
    Effects sink sink.closeCurrentFile nothing := by
  unfold closeCurrentFile
  split
  · exact effects_refl sink
  · exact (effects_ask _ _ (by decide) (by decide)).congr (fun _ => rfl) rfl rfl rfl rfl

section

variable [DecidableEq Date] {date : Date}

/-- A file that did not exist is as good as an empty one. -/
theorem contents_create (missing : sink.files date = none) (other : Date) :
    Sink.contents { sink with files := Function.update sink.files date (some []) } other =
      sink.contents other := by
  unfold contents
  by_cases same : other = date
  · subst same
    simp [missing]
  · simp [same]

theorem effects_writeAtomic (missing : sink.files date = none) :
    Effects sink (sink.writeAtomic date) nothing := by
  unfold writeAtomic
  apply (effects_ask sink _ (by decide) (by decide)).andThen_nothing
  intro asked reached
  have sameFiles : asked.files date = none := by
    rw [← missing, ← ask_files sink .create, reached]
  exact (effects_ask _ _ (by decide) (by decide)).congr (contents_create sameFiles) rfl rfl rfl rfl

theorem effects_ensureFileExists (sink : Sink Date) (date : Date) :
    Effects sink (sink.ensureFileExists date) nothing := by
  unfold ensureFileExists
  apply (effects_ask sink _ (by decide) (by decide)).andThen_nothing
  intro asked _
  split
  · exact effects_refl asked
  · rename_i missing
    rw [Option.not_isSome_iff_eq_none] at missing
    exact effects_writeAtomic missing

theorem effects_openForDate (sink : Sink Date) (date : Date) :
    Effects sink (sink.openForDate date) nothing := by
  unfold openForDate
  split
  · exact effects_refl sink
  apply (effects_closeCurrentFile sink).andThen_nothing
  intro closed _
  apply (effects_ensureFileExists closed date).andThen_nothing
  intro ensured _
  apply (effects_ask ensured _ (by decide) (by decide)).andThen_nothing
  intro opened _
  exact (effects_refl { opened with currentDate := some date }).congr (fun _ => rfl) rfl rfl rfl rfl

/-- Bytes for the file of one date. -/
def only (date : Date) (bytes : Bytes) : Date → Bytes :=
  fun other => if other = date then bytes else []

theorem contents_append (sink : Sink Date) (date : Date) (bytes : Bytes) (other : Date) :
    (sink.append date bytes).contents other = sink.contents other ++ only date bytes other := by
  unfold append contents only
  by_cases same : other = date
  · subst same
    simp
  · simp [same]

theorem only_append (date : Date) (first second : Bytes) (other : Date) :
    only date first other ++ only date second other = only date (first ++ second) other := by
  unfold only
  split <;> rfl

theorem effects_done (date : Date) (sink : Sink Date) (replies : List Reply) :
    Effects sink ({ sink with replies := replies }, .ok ()) (only date []) := by
  have same : only date [] = nothing := by
    funext other
    exact ite_self []
  rw [same]
  exact (effects_refl { sink with replies := replies }).congr (fun _ => rfl) rfl rfl rfl rfl

/-- One `write` that takes the given bytes. -/
theorem effects_write (sink : Sink Date) (date : Date) {bytes : Bytes} (some : bytes ≠ []) :
    Effects sink ((sink.append date bytes).answer .write (.wrote bytes.length), .ok ())
      (only date bytes) := by
  have positive : bytes.length ≠ 0 := by
    rw [Ne, length_eq_zero_iff]
    exact some
  refine ⟨only date bytes, [(.write, .wrote bytes.length)], ?_⟩
  constructor
  case contents => exact contents_append sink date bytes
  case calls => rfl
  case quiet =>
    constructor
    · intro silent
      have here := silent date
      rw [only, if_pos rfl] at here
      exact absurd here some
    · intro silent
      have accepted := silent _ (mem_singleton_self _)
      simp [accepts, some] at accepted
  case ends => exact ends_ok rfl
  case complete => exact fun _ => rfl
  case buffer => rfl
  case closed => rfl
  case bufferLimit => rfl

theorem effects_writeAllFrom (date : Date) (replies : List Reply) (bytes : Bytes)
    (sink : Sink Date) : Effects sink (writeAllFrom date replies bytes sink) (only date bytes) := by
  induction replies generalizing bytes sink with
  | nil =>
    cases bytes with
    | nil => exact effects_done date sink []
    | cons byte more =>
      exact (effects_write { sink with replies := [] } date (cons_ne_nil _ _)).congr
        (fun _ => rfl) rfl rfl rfl rfl
  | cons reply rest later =>
    cases bytes with
    | nil => exact effects_done date sink (reply :: rest)
    | cons byte more =>
      -- One `write` takes the first part and the loop goes on with the second.
      have taken : ∀ count, count ≠ 0 → count ≤ (byte :: more).length → Effects sink
          (writeAllFrom date rest ((byte :: more).drop count)
            ((sink.append date ((byte :: more).take count)).answer .write (.wrote count)))
          (only date (byte :: more)) := by
        intro count positive fits
        have length : ((byte :: more).take count).length = count := length_take_of_le fits
        have some : (byte :: more).take count ≠ [] := by
          rw [Ne, take_eq_nil_iff]
          simp [positive]
        have both := (effects_write sink date some).trans (later ((byte :: more).drop count) _)
        simp only [only_append, take_append_drop, length] at both
        exact both
      cases reply with
      | interrupted =>
        have first : Effects sink (sink.answer .write .interrupted, .ok ()) nothing :=
          effects_call (.write, .interrupted) (fun _ => rfl) rfl rfl (ends_ok rfl) rfl rfl rfl
        exact first.trans (later (byte :: more) _)
      | failed cause =>
        have failed : Effects sink ({ sink with replies := rest }.answer .write
            (.failed cause), .error (deviceInaccessible "write" cause)) nothing :=
          effects_call (.write, .failed cause) (fun _ => rfl) rfl rfl (ends_error _ rfl) rfl rfl rfl
        exact failed.of_error
      | done =>
        apply taken (min (byte :: more).length bytesPerMegabyte)
        · simp [bytesPerMegabyte]
        · exact Nat.min_le_left _ _
      | wrote accepted =>
        unfold writeAllFrom
        dsimp only
        split
        · have failed : Effects sink ({ sink with replies := rest }.answer .write
              (.failed "wrote zero bytes"), .error
              { code := .internalFault, message := "write: wrote zero bytes" }) nothing :=
            effects_call (.write, .failed _) (fun _ => rfl) rfl rfl (ends_error _ rfl) rfl rfl rfl
          exact failed.of_error
        · rename_i positive
          apply taken _ positive
          exact Nat.le_trans (Nat.min_le_right _ _) (Nat.min_le_left _ _)

theorem effects_writeAll (sink : Sink Date) (date : Date) (bytes : Bytes) :
    Effects sink (sink.writeAll date bytes) (only date bytes) :=
  effects_writeAllFrom date sink.replies bytes sink

end

theorem effects_fsyncFrom (replies : List Reply) (sink : Sink Date) :
    Effects sink (fsyncFrom replies sink) nothing := by
  induction replies generalizing sink with
  | nil =>
    exact effects_call (.fsync, .done) (fun _ => rfl) rfl rfl (ends_ok rfl) rfl rfl rfl
  | cons reply rest later =>
    cases reply with
    | interrupted =>
      have first : Effects sink (sink.answer .fsync .interrupted, .ok ()) nothing :=
        effects_call (.fsync, .interrupted) (fun _ => rfl) rfl rfl (ends_ok rfl) rfl rfl rfl
      exact first.trans (later _)
    | failed cause =>
      exact effects_call (.fsync, .failed cause) (fun _ => rfl) rfl rfl (ends_error _ rfl)
        rfl rfl rfl
    | done =>
      exact effects_call (.fsync, .done) (fun _ => rfl) rfl rfl (ends_ok rfl) rfl rfl rfl
    | wrote count =>
      exact effects_call (.fsync, .wrote count) (fun _ => rfl) rfl rfl (ends_ok rfl) rfl rfl rfl

section

variable [DecidableEq Date]

/-- The batches of a flush, one after the other. -/
theorem effects_flushBatches (runs : List (Date × Bytes)) (sink : Sink Date) :
    Effects sink (flushBatches runs sink) (batched runs) := by
  induction runs generalizing sink with
  | nil => exact effects_refl sink
  | cons batch rest later =>
    rcases batch with ⟨date, bytes⟩
    have target : batched ((date, bytes) :: rest) =
        fun other => only date bytes other ++ batched rest other := by
      funext other
      rw [batched_cons]
      simp only [only, eq_comm]
    rw [target]
    apply (effects_openForDate sink date).andThen_nothing
    intro opened _
    apply (effects_writeAll opened date bytes).andThen
    intro written _
    apply (effects_fsyncFrom written.replies written).andThen_nothing
    intro synced _
    exact later synced

end

/-! ## One call of the sink -/

/-- A call begins with the answers its system calls will get. -/
def enter (sink : Sink Date) (replies : List Reply) : Sink Date :=
  { sink with replies := replies, calls := [] }

section

variable [DecidableEq Date]

/-- A flush has written the buffer and emptied it, or it has failed and kept all of it. -/
inductive Flushed (before : Sink Date) (reached : Sink Date × Result) : Prop
  | emptied (buffer : reached.1.buffer = [])
      (contents : ∀ date, reached.1.contents date =
        before.contents date ++ expected before.buffer date)
      (clean : Clean reached.1.calls)
  | failed (grown : Date → Bytes) (buffer : reached.1.buffer = before.buffer)
      (contents : ∀ date, reached.1.contents date = before.contents date ++ grown date)
      (error : Error) (result : reached.2 = .error error)
      (clean : Clean reached.1.calls ↔ ∀ date, grown date = [])

theorem flush_closed (sink : Sink Date) : sink.flush.1.closed = sink.closed := by
  unfold flush
  split
  · rfl
  rcases effects_flushBatches (batches sink.buffer) sink with ⟨grown, made, effect⟩
  unfold andThen
  split
  · refine (ask_frame _ _ _).2.trans ?_
    exact effect.closed
  · exact effect.closed

theorem flushed_flush (opened : sink.closed = false) (entered : sink.calls = []) :
    Flushed sink sink.flush := by
  unfold flush
  by_cases empty : sink.closed ∨ sink.buffer = []
  · have noBuffer : sink.buffer = [] := by simpa [opened] using empty
    rw [if_pos empty]
    apply Flushed.emptied noBuffer
    · intro date
      rw [noBuffer]
      exact (append_nil _).symm
    · rw [entered]
      exact List.Pairwise.nil
  rw [if_neg empty]
  rcases effects_flushBatches (batches sink.buffer) sink with ⟨grown, made, effect⟩
  have calls : (flushBatches (batches sink.buffer) sink).1.calls = made := by
    rw [effect.calls, entered, nil_append]
  have ends := effect.ends
  unfold andThen
  cases result : (flushBatches (batches sink.buffer) sink).2 with
  | error error =>
    rw [result] at ends
    refine Flushed.failed grown effect.buffer effect.contents error rfl ?_
    change Clean (flushBatches (batches sink.buffer) sink).1.calls ↔ _
    rw [calls, effect.quiet]
    exact clean_iff_of_error ends
  | ok value =>
    rw [result] at ends
    have written : grown = batched (batches sink.buffer) := effect.complete result
    rcases ask_calls { (flushBatches (batches sink.buffer) sink).1 with buffer := [] } .scan
      (deviceInaccessible "is_regular_file") with ⟨reply, asked⟩
    apply Flushed.emptied
    · exact (ask_frame _ _ _).1
    · intro date
      refine Eq.trans ?_ (effect.contents date |>.trans ?_)
      · unfold contents
        rw [show (enforceRetention _).1.files = _ from ask_files _ _ _]
      · rw [written, batched_batches]
    change Clean (Sink.calls (ask _ _ _).1)
    rw [asked]
    apply clean_of_ok
    intro call member
    rcases mem_append.mp member with before | scanned
    · rw [calls] at before
      exact ends call before
    · rw [mem_singleton.mp scanned]
      rfl

/-! ## Runs -/

/-- A call of the sink, with what its system calls answer. -/
inductive Action (Event : Type) where
  | write (event : Event) (replies : List Reply)
  | flush (replies : List Reply)

variable (format : Format Date Event)

def step (sink : Sink Date) : Action Event → Sink Date × Result
  | .write event replies => (sink.enter replies).write format event
  | .flush replies => (sink.enter replies).flush

def run (sink : Sink Date) (actions : List (Action Event)) : Sink Date :=
  actions.foldl (fun sink action => (sink.step format action).1) sink

/-- The line a call adds to the buffer. -/
def accepts? : Action Event → Option (BufferedLine Date)
  | .write event _ => (format.buffered event).toOption
  | .flush _ => none

/-- The lines the sink has taken, in order. -/
def accepted (actions : List (Action Event)) : List (BufferedLine Date) :=
  actions.filterMap (accepts? format)

/-- In no call of a run a system call fails behind a `write` that accepted a byte. -/
def RunsClean : Sink Date → List (Action Event) → Prop
  | _, [] => True
  | sink, action :: rest =>
    Clean (sink.step format action).1.calls ∧ RunsClean (sink.step format action).1 rest

/-- Every line taken is in the files or in the buffer; beyond that the files hold bytes exactly
when a call was not clean. -/
structure Account (clean : Prop) (taken flushed : List (BufferedLine Date)) (sink : Sink Date) :
    Prop where
  opened : sink.closed = false
  split : taken = flushed ++ sink.buffer
  atLeast : ∀ date, (expected flushed date).length ≤ (sink.contents date).length
  exact : clean → ∀ date, sink.contents date = expected flushed date
  more : ¬clean → ∃ date, (expected flushed date).length < (sink.contents date).length

variable {clean : Prop} {taken flushed : List (BufferedLine Date)}
  (account : Account clean taken flushed sink)

include account

theorem Account.flush (entered : sink.calls = []) :
    ∃ flushed, Account (clean ∧ Clean sink.flush.1.calls) taken flushed sink.flush.1 := by
  have opened : sink.flush.1.closed = false := (flush_closed sink).trans account.opened
  cases flushed_flush account.opened entered with
  | emptied buffer contents isClean =>
    refine ⟨flushed ++ sink.buffer, ?_⟩
    constructor
    case opened => exact opened
    case split => rw [buffer, append_nil, account.split]
    case atLeast =>
      intro date
      have atLeast := account.atLeast date
      rw [contents, expected_append, length_append, length_append]
      omega
    case exact =>
      intro both date
      rw [contents, expected_append, account.exact both.1 date]
    case more =>
      intro notBoth
      have notClean : ¬clean := fun isClean' => notBoth ⟨isClean', isClean⟩
      rcases account.more notClean with ⟨date, more⟩
      refine ⟨date, ?_⟩
      rw [contents, expected_append, length_append, length_append]
      omega
  | failed grown buffer contents error result isClean =>
    refine ⟨flushed, ?_⟩
    have length : ∀ date, (sink.flush.1.contents date).length =
        (sink.contents date).length + (grown date).length := by
      intro date
      rw [contents, length_append]
    constructor
    case opened => exact opened
    case split => rw [buffer, account.split]
    case atLeast =>
      intro date
      have atLeast := account.atLeast date
      rw [length]
      omega
    case exact =>
      intro both date
      rw [contents, isClean.mp both.2 date, append_nil, account.exact both.1 date]
    case more =>
      intro notBoth
      by_cases before : clean
      · -- The first bytes too many.
        have some : ¬∀ date, grown date = [] := fun none => notBoth ⟨before, isClean.mpr none⟩
        rw [not_forall] at some
        rcases some with ⟨date, grownHere⟩
        refine ⟨date, ?_⟩
        have positive : 0 < (grown date).length := length_pos_iff.mpr grownHere
        rw [length, account.exact before date]
        omega
      · rcases account.more before with ⟨date, more⟩
        refine ⟨date, ?_⟩
        rw [length]
        omega

/-- A call that leaves the files alone is clean and may take a line. -/
theorem Account.take (lines : List (BufferedLine Date)) :
    Account clean (taken ++ lines) flushed { sink with buffer := sink.buffer ++ lines } where
  opened := account.opened
  split := by rw [account.split, append_assoc]
  atLeast := account.atLeast
  exact := account.exact
  more := account.more

theorem Account.enter (replies : List Reply) : Account clean taken flushed (sink.enter replies) :=
  ⟨account.opened, account.split, account.atLeast, account.exact, account.more⟩

theorem Account.of_iff {other : Prop} (same : clean ↔ other) : Account other taken flushed sink :=
  ⟨account.opened, account.split, account.atLeast, fun holds => account.exact (same.mpr holds),
    fun fails => account.more (mt same.mp fails)⟩

theorem Account.step (action : Action Event) :
    ∃ flushed, Account (clean ∧ Clean (sink.step format action).1.calls)
      (taken ++ (accepts? format action).toList) flushed (sink.step format action).1 := by
  cases action with
  | flush replies =>
    rw [show (accepts? format (.flush replies)).toList = [] from rfl, append_nil]
    exact (account.enter replies).flush rfl
  | write event replies =>
    have quiet : clean ↔ clean ∧ Clean ([] : List (Call × Reply)) :=
      ⟨fun holds => ⟨holds, List.Pairwise.nil⟩, And.left⟩
    have entered := account.enter replies
    change ∃ flushed, Account (clean ∧ Clean ((sink.enter replies).write format event).1.calls)
      (taken ++ (format.buffered event).toOption.toList) flushed
      ((sink.enter replies).write format event).1
    have notClosed : ¬(sink.enter replies).closed = true := by
      rw [entered.opened]
      exact Bool.false_ne_true
    unfold write
    rw [if_neg notClosed]
    cases format.buffered event with
    | error error =>
      refine ⟨flushed, ?_⟩
      change Account _ (taken ++ []) flushed (sink.enter replies)
      rw [append_nil]
      exact entered.of_iff quiet
    | ok line =>
      dsimp only
      split
      · exact (entered.take [line]).flush rfl
      · exact ⟨flushed, (entered.take [line]).of_iff quiet⟩

theorem Account.run (actions : List (Action Event)) :
    ∃ flushed, Account (clean ∧ RunsClean format sink actions)
      (taken ++ accepted format actions) flushed (sink.run format actions) := by
  induction actions generalizing clean taken flushed sink with
  | nil =>
    refine ⟨flushed, ?_⟩
    rw [show accepted format [] = [] from rfl, append_nil]
    exact account.of_iff (and_true clean).to_iff.symm
  | cons action rest later =>
    rcases account.step format action with ⟨_, stepped⟩
    rcases later stepped with ⟨final, ran⟩
    refine ⟨final, ?_⟩
    have lines : accepted format (action :: rest) =
        (accepts? format action).toList ++ accepted format rest := by
      unfold accepted
      rw [filterMap_cons]
      cases accepts? format action <;> rfl
    rw [lines, ← append_assoc]
    exact ran.of_iff and_assoc

omit account

theorem account_start (bufferLimit : Nat) :
    Account True [] [] ({ bufferLimit := bufferLimit } : Sink Date) where
  opened := rfl
  split := rfl
  atLeast _ := Nat.le_refl _
  exact _ _ := rfl
  more untrue := absurd trivial untrue

/-- After a flush that succeeds, the file of each date holds the lines taken for it, each once,
complete and in order, and nothing else, exactly when no call before it had a system call fail
behind a `write` that accepted a byte. -/
theorem log_exact_iff_clean (bufferLimit : Nat)
    (actions : List (Action Event)) (replies : List Reply)
    (succeeded : ((run format { bufferLimit := bufferLimit } actions).step format
      (.flush replies)).2 = .ok ()) :
    (∀ date, (((run format { bufferLimit := bufferLimit } actions).step format
        (.flush replies)).1.contents date) = expected (accepted format actions) date) ↔
      RunsClean format { bufferLimit := bufferLimit } actions := by
  rcases (account_start bufferLimit).run format actions with ⟨flushed, account⟩
  have entered := account.enter replies
  have isClean : RunsClean format { bufferLimit := bufferLimit } actions ↔
      True ∧ RunsClean format { bufferLimit := bufferLimit } actions := (true_and _).to_iff.symm
  change _ = Except.ok () at succeeded
  cases flushed_flush entered.opened rfl with
  | failed grown buffer contents error result clean =>
    rw [show (Sink.step format _ (.flush replies)).2 = _ from result] at succeeded
    cases succeeded
  | emptied buffer contents clean =>
    have whole : accepted format actions = flushed ++
        (run format { bufferLimit := bufferLimit } actions).buffer := account.split
    have after : ∀ date, ((run format { bufferLimit := bufferLimit } actions).step format
        (.flush replies)).1.contents date =
        (run format { bufferLimit := bufferLimit } actions).contents date ++
          expected (run format { bufferLimit := bufferLimit } actions).buffer date := contents
    simp only [after, whole, expected_append]
    constructor
    · intro same
      by_contra notClean
      rcases account.more (mt isClean.mpr notClean) with ⟨date, more⟩
      have equal := same date
      rw [append_cancel_right_eq] at equal
      rw [equal] at more
      exact Nat.lt_irrefl _ more
    · intro holds date
      rw [account.exact (isClean.mp holds) date]

end

/-- Two key presses on two days, as lines of one and two bytes. -/
def twoDays : Format Nat (Nat × Bytes) where
  dateFromTimestamp event := .ok event.1
  serializeLine event := .ok event.2

/-- The file cannot be opened at first; then both lines are written. -/
def unopenedRun : List (Action (Nat × Bytes)) :=
  [ .write (1, [65]) [], .write (2, [66, 67]) [],
    .flush [.done, .done, .done, .failed "Permission denied"] ]

theorem log_exact_iff_clean_unopened :
    RunsClean twoDays { bufferLimit := 100 } unopenedRun ∧
      ∀ date, (((run twoDays { bufferLimit := 100 } unopenedRun).step twoDays
        (.flush [])).1.contents date) = expected (accepted twoDays unopenedRun) date := by
  have first : Clean (run twoDays { bufferLimit := 100 } (unopenedRun.take 1)).calls := by
    unfold Clean
    decide +kernel
  have second : Clean (run twoDays { bufferLimit := 100 } (unopenedRun.take 2)).calls := by
    unfold Clean
    decide +kernel
  have third : Clean (run twoDays { bufferLimit := 100 } unopenedRun).calls := by
    unfold Clean
    decide +kernel
  have succeeded : ((run twoDays { bufferLimit := 100 } unopenedRun).step twoDays
      (.flush [])).2 = .ok () := rfl
  have clean : RunsClean twoDays { bufferLimit := 100 } unopenedRun :=
    ⟨first, second, third, trivial⟩
  exact ⟨clean, (log_exact_iff_clean twoDays 100 unopenedRun [] succeeded).mpr clean⟩

/-- The line of the first day is written; the file of the second day cannot be synced. -/
def unsyncedRun : List (Action (Nat × Bytes)) :=
  [ .write (1, [65]) [], .write (2, [66, 67]) [],
    .flush [.done, .done, .done, .done, .done, .done, .done, .done, .done, .done, .done, .done,
      .failed "Input/output error"] ]

/-- The next flush succeeds and writes both lines once more. -/
theorem log_written_twice :
    ((run twoDays { bufferLimit := 100 } unsyncedRun).step twoDays (.flush [])).2 = .ok () ∧
      ((run twoDays { bufferLimit := 100 } unsyncedRun).step twoDays
        (.flush [])).1.contents 1 = [65, 10, 65, 10] ∧
      expected (accepted twoDays unsyncedRun) 1 = [65, 10] :=
  ⟨rfl, by decide +kernel, by decide +kernel⟩

end Sink

end Grab.Storage

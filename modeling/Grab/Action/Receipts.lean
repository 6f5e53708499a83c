import Grab.Action.Transaction

/-!
# What a receipt tells

A transaction tries routes until one is reserved, arms the barriers of that reservation, and then
commits, settles and verifies it.  `Executed` lists the ways this can end, with the calls that were
made, the status in the receipt and the result; everything a receipt tells is read off it.
-/

namespace Grab.Kernel.Action

open Grab Grab.Lib Grab.Kernel.Query List

variable {σ ρ τ : Type}

/-! ## Calls -/

namespace Call

/-- What a call tells about a route. -/
def attempt : Call ρ → Option RouteAttempt
  | .reserve descriptor answer => some (routeAttempt descriptor answer)
  | _ => none

def isCommit : Call ρ → Bool
  | .commit _ _ => true
  | _ => false

def committed : Call ρ → Bool
  | .commit _ (.ok _) => true
  | _ => false

def settled : Call ρ → Bool
  | .settle _ (.ok _) => true
  | _ => false

def verified : Call ρ → Bool
  | .verify _ (.ok _) => true
  | _ => false

/-- A settling or a verification that failed. -/
def failedLater : Call ρ → Bool
  | .settle _ (.error _) | .verify _ (.error _) => true
  | _ => false

/-- A reservation or a commit that failed and may have committed. -/
def possiblyCommitted : Call ρ → Bool
  | .reserve _ (some (.error error)) | .commit _ (.error error) =>
    error.code = .possiblyCommitted
  | _ => false

/-- A commit that failed in another way. -/
def failedBeforeCommit : Call ρ → Bool
  | .commit _ (.error error) => error.code ≠ .possiblyCommitted
  | _ => false

def asksSeat : Call ρ → Bool
  | .inputSeat _ => true
  | _ => false

def ofSeat : Call ρ → Bool
  | .inputSeat _ | .neutralize _ => true
  | _ => false

def foundSeat : Call ρ → Bool
  | .inputSeat found => found
  | _ => false

def isNeutralize : Call ρ → Bool
  | .neutralize _ => true
  | _ => false

def failedNeutralize : Call ρ → Bool
  | .neutralize (.error _) => true
  | _ => false

/-- A route that is not reserved and has not committed. -/
def rejected : Call ρ → Bool
  | .reserve _ none => true
  | .reserve _ (some (.error error)) => error.code ≠ .possiblyCommitted
  | _ => false

/-- What may be called before the commit. -/
def prepares : Call ρ → Bool
  | .reserve _ (some (.error error)) => error.code ≠ .possiblyCommitted
  | .reserve _ _ | .barriers _ _ | .arm _ _ _ => true
  | _ => false

end Call

/-- The calls up to the commit: the routes that were turned down, the one that was selected, and
all barriers of its reservation, armed. -/
def preparation (tried : List (Call ρ)) (descriptor : RouteDescriptor) (reservation : ρ)
    (names : List String) : List (Call ρ) :=
  tried ++ .reserve descriptor (some (.ok reservation)) :: .barriers reservation names ::
    names.map fun barrier => .arm reservation barrier (.ok ())

/-- All that a transaction does before the seat is neutralized. -/
inductive Executed : List (Call ρ) → CommitStatus → Answer PUnit → Prop where
  | unreserved {tried : List (Call ρ)} (error : TransactionError)
      (rejected : tried.all Call.rejected) :
      Executed tried .failedBeforeCommit (.error error)
  | crossed {tried : List (Call ρ)} {error : TransactionError} (rejected : tried.all Call.rejected)
      (descriptor : RouteDescriptor) (possibly : error.code = .possiblyCommitted) :
      Executed (tried ++ [.reserve descriptor (some (.error error))]) .possiblyCommitted
        (.error error)
  | unarmed {tried : List (Call ρ)} (rejected : tried.all Call.rejected)
      (descriptor : RouteDescriptor) (reservation : ρ) (names armed : List String)
      (barrier : String) (error : TransactionError) :
      Executed
        (tried ++ .reserve descriptor (some (.ok reservation)) :: .barriers reservation names ::
          (armed.map (fun barrier => .arm reservation barrier (.ok ())) ++
            [.arm reservation barrier (.error error)]))
        .failedBeforeCommit (.error error)
  | crossing {tried : List (Call ρ)} (rejected : tried.all Call.rejected)
      (descriptor : RouteDescriptor) (reservation : ρ) (names : List String)
      {error : TransactionError} (possibly : error.code = .possiblyCommitted) :
      Executed
        (preparation tried descriptor reservation names ++ [.commit reservation (.error error)])
        .possiblyCommitted (.error error)
  | uncommitted {tried : List (Call ρ)} (rejected : tried.all Call.rejected)
      (descriptor : RouteDescriptor) (reservation : ρ) (names : List String)
      {error : TransactionError} (before : error.code ≠ .possiblyCommitted) :
      Executed
        (preparation tried descriptor reservation names ++ [.commit reservation (.error error)])
        .failedBeforeCommit (.error error)
  | unsettled {tried : List (Call ρ)} (rejected : tried.all Call.rejected)
      (descriptor : RouteDescriptor) (reservation : ρ) (names : List String)
      (error : TransactionError) :
      Executed
        (preparation tried descriptor reservation names ++
          [.commit reservation (.ok ()), .settle reservation (.error error)])
        .committed (.error error)
  | unverified {tried : List (Call ρ)} (rejected : tried.all Call.rejected)
      (descriptor : RouteDescriptor) (reservation : ρ) (names : List String)
      (settled : List BarrierOutcome) (error : TransactionError) :
      Executed
        (preparation tried descriptor reservation names ++
          [.commit reservation (.ok ()), .settle reservation (.ok settled),
            .verify reservation (.error error)])
        .committed (.error error)
  | verified {tried : List (Call ρ)} (rejected : tried.all Call.rejected)
      (descriptor : RouteDescriptor) (reservation : ρ) (names : List String)
      (settled : List BarrierOutcome) :
      Executed
        (preparation tried descriptor reservation names ++
          [.commit reservation (.ok ()), .settle reservation (.ok settled),
            .verify reservation (.ok ())])
        .verified (.ok ⟨⟩)

/-! ## Steps -/

/-- Where a runner stands: the calls it made, the status it tells, and no error so far. -/
structure Stands (made : List (Call ρ)) (status : CommitStatus) (runner : Runner σ ρ τ) :
    Prop where
  calls : runner.calls = made
  commit : runner.receipt.commit = status
  routes : runner.receipt.routes = made.filterMap Call.attempt
  error : runner.error = none

/-- The end of an execution. -/
def Finished (result : Answer PUnit) (runner : Runner σ ρ τ) : Prop :=
  ∃ calls commit, Executed calls commit result ∧ Stands calls commit runner

variable {tried : List (Call ρ)} {error : Option TransactionError}

section

variable {α β : Type} {calls : List (Call ρ)} {commit : CommitStatus}

theorem keeps_consult (question : StateM σ α) :
    Keeps (Stands (σ := σ) (τ := τ) calls commit) (consult question) :=
  fun _ stands => ⟨stands.calls, stands.commit, stands.routes, stands.error⟩

theorem keeps_report {change : Receipt τ → Receipt τ}
    (same : ∀ receipt, (change receipt).commit = receipt.commit ∧
      (change receipt).routes = receipt.routes) :
    Keeps (Stands (σ := σ) calls commit) (report change) :=
  fun runner stands =>
    ⟨stands.calls, (same runner.receipt).1.trans stands.commit,
      (same runner.receipt).2.trans stands.routes, stands.error⟩

theorem ensures_status (status : CommitStatus) :
    Ensures (Stands (σ := σ) (τ := τ) calls commit)
      (report fun receipt => { receipt with commit := status })
      fun _ => Stands calls status :=
  fun _ stands => ⟨stands.calls, rfl, stands.routes, stands.error⟩

theorem ensures_call {question : StateM σ α} {entry : α → Call ρ}
    (apart : ∀ answer, (entry answer).attempt = none) :
    Ensures (Stands (τ := τ) calls commit) (call question entry)
      fun answer => Stands (calls ++ [entry answer]) commit := by
  intro runner stands
  constructor
  case calls => exact congrArg (· ++ _) stands.calls
  case commit => exact stands.commit
  case routes =>
    rw [filterMap_append, filterMap_cons_none (apart _)]
    exact stands.routes.trans (append_nil _).symm
  case error => exact stands.error

/-! ## Before a route is reserved -/

variable {observe : StateM (Runner σ ρ τ) (Answer (Option α))} {post : β → Runner σ ρ τ → Prop}
  {result : Answer PUnit}

theorem keeps_observeUntil (keeps : Keeps (Stands calls commit) observe)
    (ending : TransactionError) (turns : ℕ) :
    Keeps (Stands calls commit) (observeUntil observe ending turns) := by
  induction turns with
  | zero => exact Keeps.pure _
  | succ turns ih =>
    apply Keeps.proceed keeps
    intro observed
    cases observed with
    | some value => exact Keeps.pure _
    | none => exact ih

theorem keeps_waitFor (runtime : Runtime σ ρ τ) (keeps : Keeps (Stands calls commit) observe) :
    Keeps (Stands calls commit) (waitFor runtime observe) := by
  apply Keeps.proceed (keeps_consult _)
  intro _
  apply (keeps_consult _).bind
  intro patience
  apply (keeps_observeUntil keeps _ _).bind
  intro result
  apply (keeps_consult _).bind
  intro disabled
  exact Keeps.pure _

variable (transaction : Transaction σ ρ τ) (action : Action) (options : ActionOptions)

theorem keeps_resolveOnce :
    Keeps (Stands calls commit) (resolveOnce transaction action options) := by
  apply (keeps_consult _).bind
  intro source
  cases source with
  | none => exact Keeps.pure _
  | some snapshot =>
    cases targetOf action with
    | locator locator =>
      apply (keeps_consult _).bind
      intro answer
      exact Keeps.pure _
    | found found =>
      apply Keeps.ite (Keeps.pure _)
      apply (keeps_consult _).bind
      intro answer
      exact Keeps.pure _

theorem keeps_observeTarget :
    Keeps (Stands calls commit) (observeTarget transaction action options) := by
  apply Keeps.bind
  · exact keeps_report fun _ => ⟨rfl, rfl⟩
  intro _
  apply (keeps_resolveOnce transaction action options).bind
  intro retried
  exact Keeps.pure _

theorem keeps_resolveTarget :
    Keeps (Stands calls commit) (resolveTarget transaction action options) := by
  apply (keeps_resolveOnce transaction action options).bind
  intro first
  cases first with
  | ok found => exact Keeps.pure _
  | error error =>
    apply Keeps.ite (Keeps.pure _)
    apply (keeps_consult _).bind
    intro hasEvents
    cases hasEvents with
    | false => exact Keeps.pure _
    | true => exact keeps_waitFor _ (keeps_observeTarget transaction action options)

theorem keeps_refreshMapping (target : Match) :
    Keeps (Stands calls commit) (refreshMapping transaction target) := by
  unfold refreshMapping
  cases transaction.mappingRefresh with
  | none => exact Keeps.pure _
  | some hook =>
    apply Keeps.proceed (keeps_consult _)
    intro transforms
    apply Keeps.bind
    · exact keeps_report fun _ => ⟨rfl, rfl⟩
    · intro _
      exact Keeps.pure _

theorem keeps_observeActionable : Keeps (Stands (σ := σ) (τ := τ) calls commit) observeActionable :=
  fun _ stands => ⟨stands.calls, stands.commit, stands.routes, stands.error⟩

theorem keeps_actionability (target : Match) :
    Keeps (Stands calls commit) (actionability transaction options target) := by
  apply Keeps.ite (Keeps.pure _)
  apply (keeps_consult _).bind
  intro hasEvents
  cases hasEvents with
  | false => exact Keeps.pure _
  | true =>
    apply (keeps_consult _).bind
    intro answers
    apply Keeps.bind
    · exact fun _ stands => ⟨stands.calls, stands.commit, stands.routes, stands.error⟩
    · intro _
      exact keeps_waitFor _ keeps_observeActionable

/-! ## The route -/

/-- A route is reserved: the last one that was tried. -/
def Selected (reservation : ρ) (runner : Runner σ ρ τ) : Prop :=
  ∃ tried descriptor, tried.all Call.rejected ∧
    Stands (tried ++ [.reserve descriptor (some (.ok reservation))]) .failedBeforeCommit runner

/-- A call to reserve a route and the report of it. -/
theorem ensures_attempt {next : Option (Answer ρ) → StateM (Runner σ ρ τ) β}
    (question : StateM σ (Option (Answer ρ))) (descriptor : RouteDescriptor)
    (goes : ∀ answer, Ensures (Stands (tried ++ [.reserve descriptor answer]) commit)
      (next answer) post) :
    Ensures (Stands tried commit)
      (do
        let answer ← call question (.reserve descriptor)
        report fun receipt =>
          { receipt with routes := receipt.routes ++ [routeAttempt descriptor answer] }
        next answer)
      post := by
  intro runner stands
  apply goes
  constructor
  case calls => exact congrArg (· ++ _) stands.calls
  case commit => exact stands.commit
  case routes =>
    rw [filterMap_append]
    exact congrArg (· ++ _) stands.routes
  case error => exact stands.error

theorem ensures_rejectRoute (rejected : tried.all Call.rejected) {descriptor : RouteDescriptor}
    {error : TransactionError} {next : StateM (Runner σ ρ τ) (Answer ρ)}
    (goes : error.code ≠ .possiblyCommitted →
      Ensures (Stands (tried ++ [.reserve descriptor (some (.error error))]) .failedBeforeCommit)
        next (Ends (fun error => Finished (.error error)) Selected)) :
    Ensures (Stands (tried ++ [.reserve descriptor (some (.error error))]) .failedBeforeCommit)
      (rejectRoute error next) (Ends (fun error => Finished (.error error)) Selected) := by
  unfold rejectRoute
  split
  case isTrue possibly =>
    refine Ensures.bind (fun _ => Stands _ .possiblyCommitted) (ensures_status _) ?_
    intro _
    apply Ensures.fail
    intro runner stands
    exact ⟨_, _, .crossed rejected descriptor possibly, stands⟩
  case isFalse before => exact goes before

theorem ensures_reserveAmong (request : ActionRequest) (order : List (RouteDescriptor × ℕ))
    (rejected : tried.all Call.rejected) :
    Ensures (Stands tried .failedBeforeCommit) (reserveAmong transaction options request order)
      (Ends (fun error => Finished (.error error)) Selected) := by
  induction order generalizing tried with
  | nil =>
    intro runner stands
    exact ⟨tried, _, .unreserved _ rejected, stands⟩
  | cons route rest ih =>
    apply ensures_attempt
    intro answer
    cases answer with
    | none =>
      apply ih
      rw [all_append, rejected]
      rfl
    | some answer =>
      cases answer with
      | error error =>
        apply ensures_rejectRoute rejected
        intro before
        apply ih
        rw [all_append, rejected]
        exact (Bool.and_true _).trans (decide_eq_true before)
      | ok reservation =>
        refine Ensures.bind (fun _ => Stands _ .failedBeforeCommit)
          (keeps_report fun _ => ⟨rfl, rfl⟩) ?_
        intro _
        apply Ensures.done
        intro runner stands
        exact ⟨tried, route.1, rejected, stands⟩

theorem ensures_reserveRoute (target : Match) :
    Ensures (Stands [] .failedBeforeCommit) (reserveRoute transaction action options target)
      (Ends (fun error => Finished (.error error)) Selected) := by
  refine Ensures.bind (fun _ => Stands [] .failedBeforeCommit) (keeps_consult _) ?_
  intro descriptors
  exact ensures_reserveAmong transaction options _ _ rfl

/-! ## The reservation -/

section

variable (rejected : tried.all Call.rejected) (descriptor : RouteDescriptor) (reservation : ρ)
  (names : List String)

include rejected

variable (runtime : Runtime σ ρ τ)

theorem ensures_armBarriers (armed rest : List String) :
    Ensures
      (Stands
        (tried ++ .reserve descriptor (some (.ok reservation)) :: .barriers reservation names ::
          armed.map fun barrier => .arm reservation barrier (.ok ()))
        .failedBeforeCommit)
      (armBarriers runtime reservation rest)
      (Ends (fun error => Finished (.error error)) fun _ =>
        Stands
          (tried ++ .reserve descriptor (some (.ok reservation)) :: .barriers reservation names ::
            (armed ++ rest).map fun barrier => .arm reservation barrier (.ok ()))
          .failedBeforeCommit) := by
  induction rest generalizing armed with
  | nil =>
    rw [append_nil]
    exact Ensures.done fun _ stands => stands
  | cons barrier rest ih =>
    refine Ensures.bind _ (keeps_report fun _ => ⟨rfl, rfl⟩) ?_
    intro _
    refine Ensures.bind _ (ensures_call fun _ => rfl) ?_
    intro answer
    cases answer with
    | error error =>
      apply Ensures.fail
      intro runner stands
      have ended := Executed.unarmed rejected descriptor reservation names armed barrier error
      rw [append_assoc] at stands
      exact ⟨_, _, ended, stands⟩
    | ok done =>
      have step := ih (armed ++ [barrier])
      rw [append_assoc, map_append, singleton_append] at step
      rw [append_assoc]
      exact step

theorem ensures_settleReserved :
    Ensures
      (Stands (preparation tried descriptor reservation names ++ [.commit reservation (.ok ())])
        .committed)
      (settleReserved runtime reservation)
      (Ends (fun error => Finished (.error error)) fun _ => Finished (.ok ⟨⟩)) := by
  refine Ensures.bind _ (ensures_call fun _ => rfl) ?_
  intro answer
  rw [append_assoc]
  cases answer with
  | error error =>
    refine Ensures.bind _ (keeps_report ?_) ?_
    · intro receipt
      unfold timeOut
      split <;> exact ⟨rfl, rfl⟩
    intro _
    apply Ensures.fail
    intro runner stands
    exact ⟨_, _, .unsettled rejected descriptor reservation names error, stands⟩
  | ok settled =>
    refine Ensures.bind _ (keeps_report fun _ => ⟨rfl, rfl⟩) ?_
    intro _
    refine Ensures.bind _ (ensures_call fun _ => rfl) ?_
    intro answer
    rw [append_assoc]
    cases answer with
    | error error =>
      apply Ensures.fail
      intro runner stands
      exact ⟨_, _, .unverified rejected descriptor reservation names settled error, stands⟩
    | ok done =>
      refine Ensures.bind _ (ensures_status .verified) ?_
      intro _
      apply Ensures.done
      intro runner stands
      exact ⟨_, _, .verified rejected descriptor reservation names settled, stands⟩

theorem ensures_commitReserved :
    Ensures (Stands (preparation tried descriptor reservation names) .failedBeforeCommit)
      (commitReserved runtime reservation)
      (Ends (fun error => Finished (.error error)) fun _ => Finished (.ok ⟨⟩)) := by
  refine Ensures.bind _ (ensures_status .possiblyCommitted) ?_
  intro _
  refine Ensures.bind _ (ensures_call fun _ => rfl) ?_
  intro answer
  cases answer with
  | error error =>
    by_cases possibly : error.code = .possiblyCommitted
    · refine Ensures.bind (fun _ => Stands _ .possiblyCommitted) (keeps_report ?_) ?_
      · intro receipt
        rw [failCommit, if_neg (not_not_intro possibly)]
        exact ⟨rfl, rfl⟩
      · intro _
        apply Ensures.fail
        intro runner stands
        exact ⟨_, _, .crossing rejected descriptor reservation names possibly, stands⟩
    · have failed : failCommit (τ := τ) error = fun receipt =>
          { receipt with commit := .failedBeforeCommit } :=
        funext fun receipt => if_pos possibly
      refine Ensures.bind (fun _ => Stands (preparation tried descriptor reservation names ++
        [.commit reservation (.error error)]) .failedBeforeCommit) ?_ ?_
      · rw [failed]
        exact ensures_status _
      intro _
      apply Ensures.fail
      intro runner stands
      exact ⟨_, _, .uncommitted rejected descriptor reservation names possibly, stands⟩
  | ok done =>
    refine Ensures.bind _ (ensures_status .committed) ?_
    intro _
    exact ensures_settleReserved rejected descriptor reservation names runtime

theorem ensures_executeReserved :
    Ensures
      (Stands (tried ++ [.reserve descriptor (some (.ok reservation))]) .failedBeforeCommit)
      (executeReserved runtime reservation)
      (Ends (fun error => Finished (.error error)) fun _ => Finished (.ok ⟨⟩)) := by
  refine Ensures.bind _ (ensures_call fun _ => rfl) ?_
  intro names
  rw [append_assoc]
  apply Ensures.proceed (ensures_armBarriers rejected descriptor reservation names runtime [] names)
  · exact fun _ _ finished => finished
  · intro _
    exact ensures_commitReserved rejected descriptor reservation names runtime

end

/-! ## The whole transaction -/

/-- A part that comes before the route is reserved. -/
theorem ensures_before {first : StateM (Runner σ ρ τ) (Answer α)}
    {next : α → StateM (Runner σ ρ τ) (Answer β)}
    (keeps : Keeps (Stands [] .failedBeforeCommit) first)
    (goes : ∀ value, Ensures (Stands [] .failedBeforeCommit) (next value)
      (Ends (fun error => Finished (.error error)) post)) :
    Ensures (Stands [] .failedBeforeCommit) (proceed first next)
      (Ends (fun error => Finished (.error error)) post) :=
  Ensures.proceed keeps.ends (fun error _ stands => ⟨[], _, .unreserved error rfl, stands⟩) goes

theorem ensures_execute :
    Ensures (Stands [] .failedBeforeCommit) (execute transaction action options) Finished := by
  have executes : Ensures (Stands [] .failedBeforeCommit) (execute transaction action options)
      (Ends (fun error => Finished (.error error)) fun _ => Finished (.ok ⟨⟩)) := by
    apply ensures_before (keeps_consult _)
    intro _
    apply ensures_before (keeps_resolveTarget transaction action options)
    intro target
    apply ensures_before
    · apply Keeps.bind
      · exact keeps_report fun _ => ⟨rfl, rfl⟩
      · exact fun _ => Keeps.pure _
    intro _
    apply ensures_before (keeps_refreshMapping transaction target)
    intro _
    apply ensures_before (keeps_actionability transaction options target)
    intro _
    apply Ensures.proceed (ensures_reserveRoute transaction action options target)
    · exact fun _ _ finished => finished
    · rintro reservation runner ⟨tried, descriptor, rejected, stands⟩
      exact ensures_executeReserved rejected descriptor reservation _ runner stands
  refine executes.weaken ?_
  intro result runner finished
  cases result with
  | error error | ok value => exact finished

/-- The error that a result stands for. -/
def errorOf : Answer PUnit → Option TransactionError
  | .ok _ => none
  | .error error => some error

/-- The calls about the seat, and the error that is left after a result. -/
inductive Neutralized (result : Answer PUnit) : List (Call ρ) → Option TransactionError → Prop where
  | seatless : Neutralized result [.inputSeat false] (errorOf result)
  | neutralized (outcome : NeutralizationOutcome) :
      Neutralized result [.inputSeat true, .neutralize (.ok outcome)] (errorOf result)
  | failed (error last : TransactionError) :
      Neutralized result [.inputSeat true, .neutralize (.error error)] (some last)

/-- A runner that has told its result, with the calls it made since. -/
structure Told (calls : List (Call ρ)) (result : Answer PUnit) (since : List (Call ρ))
    (runner : Runner σ ρ τ) : Prop where
  executed : Executed calls runner.receipt.commit result
  routes : runner.receipt.routes = calls.filterMap Call.attempt
  error : runner.error = errorOf result
  made : runner.calls = calls ++ since

/-- A runner whose transaction is over. -/
def Performed (runner : Runner σ ρ τ) : Prop :=
  ∃ calls result seat, Executed calls runner.receipt.commit result ∧
    runner.receipt.routes = calls.filterMap Call.attempt ∧
    Neutralized result seat runner.error ∧ runner.calls = calls ++ seat

theorem ensures_noteResult (result : Answer PUnit) :
    Ensures (Finished (σ := σ) (ρ := ρ) (τ := τ) result) (modify (noteResult result))
      fun _ runner => ∃ calls, Told calls result [] runner := by
  rintro runner ⟨calls, commit, executed, stands⟩
  rcases stands with ⟨made, rfl, routes, error⟩
  rw [← append_nil calls] at made
  cases result with
  | error error => exact ⟨calls, executed, routes, rfl, made⟩
  | ok value => exact ⟨calls, executed, routes, error, made⟩

theorem ensures_seatCall {calls since : List (Call ρ)} (question : StateM σ α)
    (entry : α → Call ρ) :
    Ensures (Told (τ := τ) calls result since) (call question entry)
      fun answer => Told calls result (since ++ [entry answer]) := by
  intro runner told
  refine { told with made := ?made }
  case made =>
    rw [← append_assoc]
    exact congrArg (· ++ _) told.made

theorem performed_noteNeutralization (answer : Answer NeutralizationOutcome) {runner : Runner σ ρ τ}
    (told : Told calls result [.inputSeat true, .neutralize answer] runner) :
    Performed (noteNeutralization answer runner) := by
  cases answer with
  | ok outcome =>
    refine ⟨calls, result, _, told.executed, told.routes, ?_, told.made⟩
    rw [noteNeutralization, told.error]
    exact .neutralized outcome
  | error error =>
    refine ⟨calls, result, _, told.executed, told.routes, ?_, told.made⟩
    rw [noteNeutralization, told.error]
    cases result with
    | error first => exact .failed error first
    | ok value => exact .failed error _

theorem ensures_neutralize (runtime : Runtime σ ρ τ) :
    Ensures (Told calls result []) (neutralize runtime) fun _ => Performed := by
  refine Ensures.bind _ (ensures_seatCall _ _) ?_
  intro found
  cases found with
  | false =>
    intro runner told
    refine ⟨calls, result, _, told.executed, told.routes, ?_, told.made⟩
    have same : runner.error = errorOf result := told.error
    exact same ▸ .seatless
  | true =>
    refine Ensures.bind _ (ensures_seatCall _ _) ?_
    intro answer
    exact fun runner told => performed_noteNeutralization answer told

theorem performed_performed (world : σ) :
    Performed (performed transaction action options world) := by
  have runs : Ensures (Stands [] .failedBeforeCommit) (run transaction action options)
      fun _ => Performed := by
    refine Ensures.bind _ (ensures_execute transaction action options) ?_
    intro result
    refine Ensures.bind _ (ensures_noteResult result) ?_
    rintro _ runner ⟨calls, told⟩
    exact ensures_neutralize transaction.runtime runner told
  exact runs _ ⟨rfl, rfl, rfl, rfl⟩

end

/-! ## Reading a receipt -/

section

variable {calls before : List (Call ρ)} {commit : CommitStatus} {result : Answer PUnit}
  {check : Call ρ → Bool}

theorem prepares_of_rejected {call : Call ρ} (rejected : call.rejected) : call.prepares := by
  rcases call with ⟨_, _ | (_ | _)⟩ | _ | _ | _ | _ | _ | _ | _ <;>
    first | exact rejected | cases rejected

variable (rejected : tried.all Call.rejected)

include rejected

theorem all_prepares : tried.all Call.prepares := by
  rw [all_eq_true] at *
  exact fun call tries => prepares_of_rejected (rejected call tries)

variable (descriptor : RouteDescriptor) (reservation : ρ)

theorem prepares_preparation (names : List String) :
    (preparation tried descriptor reservation names).all Call.prepares := by
  rw [preparation, all_append, all_prepares rejected, all_cons, all_cons, all_map]
  exact all_eq_true.mpr fun _ _ => rfl

theorem prepares_armed (names armed : List String) (barrier : String) (error : TransactionError) :
    (tried ++ Call.reserve descriptor (some (.ok reservation)) :: .barriers reservation names ::
      (armed.map (fun barrier => .arm reservation barrier (.ok ())) ++
        [.arm reservation barrier (.error error)])).all Call.prepares := by
  have arms : armed.all (Call.prepares ∘ fun barrier => .arm reservation barrier (.ok ())) :=
    all_eq_true.mpr fun _ _ => rfl
  rw [all_append, all_prepares rejected, all_cons, all_cons, all_append, all_map, arms]
  rfl

omit rejected

/-- How the calls of an execution end, from the first that does not prepare a commit. -/
inductive Ending : List (Call ρ) → CommitStatus → Answer PUnit → Prop where
  | nothing (error : TransactionError) : Ending [] .failedBeforeCommit (.error error)
  | crossed (descriptor : RouteDescriptor) {error : TransactionError}
      (possibly : error.code = .possiblyCommitted) :
      Ending [.reserve descriptor (some (.error error))] .possiblyCommitted (.error error)
  | crossing (reservation : ρ) {error : TransactionError}
      (possibly : error.code = .possiblyCommitted) :
      Ending [.commit reservation (.error error)] .possiblyCommitted (.error error)
  | uncommitted (reservation : ρ) {error : TransactionError}
      (before : error.code ≠ .possiblyCommitted) :
      Ending [.commit reservation (.error error)] .failedBeforeCommit (.error error)
  | unsettled (reservation : ρ) (error : TransactionError) :
      Ending [.commit reservation (.ok ()), .settle reservation (.error error)] .committed
        (.error error)
  | unverified (reservation : ρ) (settled : List BarrierOutcome) (error : TransactionError) :
      Ending [.commit reservation (.ok ()), .settle reservation (.ok settled),
        .verify reservation (.error error)] .committed (.error error)
  | verified (reservation : ρ) (settled : List BarrierOutcome) :
      Ending [.commit reservation (.ok ()), .settle reservation (.ok settled),
        .verify reservation (.ok ())] .verified (.ok ⟨⟩)

theorem ending_of_executed (executed : Executed calls commit result) :
    ∃ before ending, before.all Call.prepares ∧ Ending ending commit result ∧
      calls = before ++ ending := by
  cases executed with
  | unreserved error rejected =>
    exact ⟨calls, [], all_prepares rejected, .nothing error, (append_nil _).symm⟩
  | crossed rejected descriptor possibly =>
    exact ⟨_, _, all_prepares rejected, .crossed descriptor possibly, rfl⟩
  | unarmed rejected descriptor reservation names armed barrier error =>
    exact ⟨_, [], prepares_armed rejected descriptor reservation names armed barrier error,
      .nothing error, (append_nil _).symm⟩
  | crossing rejected descriptor reservation names possibly =>
    exact ⟨_, _, prepares_preparation rejected descriptor reservation names,
      .crossing reservation possibly, rfl⟩
  | uncommitted rejected descriptor reservation names before =>
    exact ⟨_, _, prepares_preparation rejected descriptor reservation names,
      .uncommitted reservation before, rfl⟩
  | unsettled rejected descriptor reservation names error =>
    exact ⟨_, _, prepares_preparation rejected descriptor reservation names,
      .unsettled reservation error, rfl⟩
  | unverified rejected descriptor reservation names settled error =>
    exact ⟨_, _, prepares_preparation rejected descriptor reservation names,
      .unverified reservation settled error, rfl⟩
  | verified rejected descriptor reservation names settled =>
    exact ⟨_, _, prepares_preparation rejected descriptor reservation names,
      .verified reservation settled, rfl⟩

/-- What no preparation and no call about the seat is. -/
structure Decisive (check : Call ρ → Bool) : Prop where
  prepares : ∀ call : Call ρ, call.prepares → check call = false
  seat : ∀ found, check (.inputSeat found) = false
  neutralize : ∀ answer, check (.neutralize answer) = false

/-- The checks about the commit and what comes after it. -/
def decisions : List (Call ρ → Bool) :=
  [Call.isCommit, Call.committed, Call.settled, Call.verified, Call.failedLater,
    Call.failedBeforeCommit, Call.possiblyCommitted]

theorem decisive_of_mem (member : check ∈ decisions) : Decisive check := by
  constructor
  case prepares =>
    intro call prepares
    simp only [decisions, mem_cons, not_mem_nil, or_false] at member
    rcases call with ⟨_, _ | (_ | _)⟩ | _ | _ | _ | _ | _ | _ | _
    case reserve.some.error descriptor error =>
      have before : error.code ≠ .possiblyCommitted := of_decide_eq_true prepares
      rcases member with rfl | rfl | rfl | rfl | rfl | rfl | rfl
      case inr.inr.inr.inr.inr.inr => exact decide_eq_false before
      all_goals rfl
    all_goals
      rcases member with rfl | rfl | rfl | rfl | rfl | rfl | rfl <;> first | rfl | cases prepares
  case seat =>
    intro found
    simp only [decisions, mem_cons, not_mem_nil, or_false] at member
    rcases member with rfl | rfl | rfl | rfl | rfl | rfl | rfl <;> rfl
  case neutralize =>
    intro answer
    simp only [decisions, mem_cons, not_mem_nil, or_false] at member
    rcases member with rfl | rfl | rfl | rfl | rfl | rfl | rfl <;> rfl

variable (decisive : Decisive check)

include decisive

theorem any_seat {seat : List (Call ρ)} (neutralized : Neutralized result seat error) :
    seat.any check = false := by
  cases neutralized <;> simp [decisive.seat, decisive.neutralize]

theorem any_prepared (prepared : before.all Call.prepares) : before.any check = false := by
  rw [all_eq_true] at prepared
  rw [any_eq_false]
  intro call member
  rw [decisive.prepares call (prepared call member)]
  exact Bool.false_ne_true

theorem any_executed {seat ending : List (Call ρ)} (neutralized : Neutralized result seat error)
    (prepared : before.all Call.prepares) :
    (before ++ ending ++ seat).any check = ending.any check := by
  rw [any_append, any_append, any_prepared decisive prepared,
    any_seat decisive neutralized, Bool.false_or, Bool.or_false]

end

/-- What the calls of a transaction and its outcome have to do with each other. -/
structure Truthful (calls : List (Call ρ)) (outcome : TransactionOutcome τ) : Prop where
  /-- A commit is the only one, on the one reservation marked selected, after all its barriers
  were armed and with no route before it that may have committed. -/
  ordered : calls.any Call.isCommit → ∃ tried descriptor reservation names answer rest,
    calls = preparation tried descriptor reservation names ++ .commit reservation answer :: rest ∧
      tried.all Call.rejected ∧ rest.any Call.isCommit = false ∧
      outcome.receipt.routes.filter (·.selected) =
        [routeAttempt descriptor (some (.ok reservation))]
  verified : outcome.receipt.commit = .verified ↔
    calls.any Call.committed ∧ calls.any Call.settled ∧ calls.any Call.verified
  committed : outcome.receipt.commit = .committed ↔
    calls.any Call.committed ∧ calls.any Call.failedLater
  possiblyCommitted : outcome.receipt.commit = .possiblyCommitted ↔ calls.any Call.possiblyCommitted
  failedBeforeCommit : outcome.receipt.commit = .failedBeforeCommit ↔
    calls.any Call.failedBeforeCommit ∨ ¬calls.any Call.isCommit ∧ ¬calls.any Call.possiblyCommitted
  seat : calls.countP Call.asksSeat = 1
  neutralized : calls.countP Call.isNeutralize = calls.countP Call.foundSeat
  /-- Without an error the action is verified, and no neutralization returned an error. -/
  succeeded : outcome.error = none →
    outcome.receipt.commit = .verified ∧ ¬calls.any Call.failedNeutralize
  /-- A verified action leaves no error where nothing is left held. -/
  errorless : outcome.receipt.commit = .verified →
    (∀ answer, .neutralize answer ∈ calls → ∃ left, answer = .ok left ∧ left ≠ .failed) →
      outcome.error = none

section

variable {calls : List (Call ρ)} {outcome : TransactionOutcome τ} {result : Answer PUnit}
  {seat : List (Call ρ)} {commit : CommitStatus}

theorem filter_attempts (rejected : tried.all Call.rejected) :
    (tried.filterMap Call.attempt).filter (·.selected) = [] := by
  rw [filter_eq_nil_iff]
  intro attempt member
  rcases mem_filterMap.mp member with ⟨call, tries, tells⟩
  have turned := all_eq_true.mp rejected call tries
  rcases call with ⟨_, _ | (_ | _)⟩ | _ | _ | _ | _ | _ | _ | _
  case reserve.some.ok => cases turned
  all_goals
    cases tells
    try exact Bool.false_ne_true

theorem routes_preparation {tried rest : List (Call ρ)} (rejected : tried.all Call.rejected)
    (descriptor : RouteDescriptor) (reservation : ρ) (names : List String)
    (silent : rest.filterMap Call.attempt = []) :
    ((preparation tried descriptor reservation names ++ rest).filterMap Call.attempt).filter
        (·.selected) = [routeAttempt descriptor (some (.ok reservation))] := by
  have arms : (names.map fun barrier => Call.arm reservation barrier (.ok ())).filterMap
      Call.attempt = [] := by
    rw [filterMap_map]
    exact filterMap_eq_nil_iff.mpr fun _ _ => rfl
  rw [filterMap_append, silent, append_nil, preparation, filterMap_append,
    filter_append, filter_attempts rejected, nil_append]
  have chosen : (Call.reserve descriptor (some (.ok reservation)) ::
      Call.barriers reservation names ::
        names.map fun barrier => Call.arm reservation barrier (.ok ())).filterMap Call.attempt =
      [routeAttempt descriptor (some (.ok reservation))] :=
    congrArg (routeAttempt descriptor (some (.ok reservation)) :: ·) arms
  rw [chosen]
  rfl

theorem ordered_of_executed (executed : Executed calls commit result)
    (commits : calls.any Call.isCommit) :
    ∃ tried descriptor reservation names answer rest,
      calls = preparation tried descriptor reservation names ++ .commit reservation answer :: rest ∧
        tried.all Call.rejected ∧ rest.any Call.isCommit = false ∧
        (calls.filterMap Call.attempt).filter (·.selected) =
          [routeAttempt descriptor (some (.ok reservation))] := by
  have decisive : Decisive (Call.isCommit : Call ρ → Bool) := decisive_of_mem mem_cons_self
  cases executed with
  | unreserved error rejected =>
    rw [any_prepared decisive (all_prepares rejected)] at commits
    cases commits
  | crossed rejected descriptor possibly =>
    rw [any_append, any_prepared decisive (all_prepares rejected)] at commits
    cases commits
  | unarmed rejected descriptor reservation names armed barrier error =>
    rw [any_prepared decisive
      (prepares_armed rejected descriptor reservation names armed barrier error)] at commits
    cases commits
  | crossing rejected descriptor reservation names possibly
  | uncommitted rejected descriptor reservation names before
  | unsettled rejected descriptor reservation names error
  | unverified rejected descriptor reservation names settled error
  | verified rejected descriptor reservation names settled =>
    exact ⟨_, descriptor, reservation, names, _, _, rfl, rejected, rfl,
      routes_preparation rejected descriptor reservation names rfl⟩

theorem ofSeat_of_prepares {call : Call ρ} (prepares : call.prepares) : call.ofSeat = false := by
  cases call <;> first | rfl | cases prepares

theorem any_ofSeat (executed : Executed calls commit result) : calls.any Call.ofSeat = false := by
  rcases ending_of_executed executed with ⟨before, ending, prepared, ends, rfl⟩
  rw [all_eq_true] at prepared
  have apart : before.any Call.ofSeat = false := by
    rw [any_eq_false]
    intro call member
    rw [ofSeat_of_prepares (prepared call member)]
    exact Bool.false_ne_true
  rw [any_append, apart, Bool.false_or]
  cases ends <;> rfl

/-- A check that only calls about the seat pass. -/
theorem filter_executed (executed : Executed calls commit result) {check : Call ρ → Bool}
    (narrow : ∀ call : Call ρ, check call → call.ofSeat) :
    (calls ++ seat).filter check = seat.filter check := by
  have none : calls.filter check = [] := by
    rw [filter_eq_nil_iff]
    intro call member passes
    exact any_eq_false.mp (any_ofSeat executed) call member (narrow call passes)
  rw [filter_append, none, nil_append]

/-! ### The endings -/

variable {ending : List (Call ρ)} (ends : Ending ending commit result)

include ends

theorem Ending.verified_iff :
    commit = .verified ↔
      ending.any Call.committed ∧ ending.any Call.settled ∧ ending.any Call.verified := by
  cases ends <;> simp [Call.committed, Call.settled, Call.verified]

theorem Ending.committed_iff :
    commit = .committed ↔ ending.any Call.committed ∧ ending.any Call.failedLater := by
  cases ends <;> simp [Call.committed, Call.failedLater]

theorem Ending.possiblyCommitted_iff :
    commit = .possiblyCommitted ↔ ending.any Call.possiblyCommitted := by
  cases ends <;> simp_all [Call.possiblyCommitted]

theorem Ending.failedBeforeCommit_iff :
    commit = .failedBeforeCommit ↔
      ending.any Call.failedBeforeCommit ∨
        ¬ending.any Call.isCommit ∧ ¬ending.any Call.possiblyCommitted := by
  cases ends <;> simp_all [Call.failedBeforeCommit, Call.isCommit, Call.possiblyCommitted]

omit ends

theorem Neutralized.asksSeat (neutralized : Neutralized result seat error) :
    seat.countP Call.asksSeat = 1 ∧ seat.countP Call.isNeutralize = seat.countP Call.foundSeat := by
  cases neutralized <;> exact ⟨rfl, rfl⟩

variable (executed : Executed calls commit result)

include executed

/-- Only a verified action has no error of its own. -/
theorem errorOf_eq_none_iff : errorOf result = none ↔ commit = .verified := by
  cases executed <;> simp [errorOf]

theorem any_failedNeutralize (neutralized : Neutralized result seat error) :
    error = none ↔ commit = .verified ∧ ¬(calls ++ seat).any Call.failedNeutralize := by
  have unrelated : calls.any Call.failedNeutralize = false := by
    rw [any_eq_false]
    intro call member failed
    apply any_eq_false.mp (any_ofSeat executed) call member
    rcases call with _ | _ | _ | _ | _ | _ | _ | (_ | _) <;> first | rfl | cases failed
  rw [any_append, unrelated, Bool.false_or, ← errorOf_eq_none_iff executed]
  cases neutralized <;> simp [Call.failedNeutralize]

end

/-- The receipt of an action tells what the calls about it came to, whatever the runtime answers. -/
theorem perform_truthful (transaction : Transaction σ ρ τ) (action : Action)
    (options : ActionOptions) (world : σ) :
    Truthful (performed transaction action options world).calls
      (perform transaction action options world) := by
  rcases performed_performed transaction action options world with
    ⟨calls, result, seat, executed, routes, neutralized, made⟩
  rcases ending_of_executed executed with ⟨before, ending, prepared, ends, split⟩
  have read : ∀ check ∈ decisions,
      (performed transaction action options world).calls.any check = ending.any check := by
    intro check member
    rw [made, split]
    exact any_executed (decisive_of_mem member) neutralized prepared
  have filtered : ∀ check : Call ρ → Bool, (∀ call : Call ρ, check call → call.ofSeat) →
      (performed transaction action options world).calls.countP check = seat.countP check := by
    intro check narrow
    rw [made, countP_eq_length_filter, filter_executed executed narrow, countP_eq_length_filter]
  have errors := any_failedNeutralize executed neutralized
  rw [← made] at errors
  constructor
  case ordered =>
    intro commits
    rw [made, any_append,
      any_seat (decisive_of_mem mem_cons_self) neutralized, Bool.or_false] at commits
    rcases ordered_of_executed executed commits with
      ⟨tried, descriptor, reservation, names, answer, rest, whole, rejected, once, selected⟩
    refine ⟨tried, descriptor, reservation, names, answer, rest ++ seat, ?_, rejected, ?_, ?_⟩
    · rw [made, whole, append_assoc, cons_append]
    · rw [any_append, once, any_seat (decisive_of_mem mem_cons_self) neutralized]
      rfl
    · exact (congrArg _ routes).trans selected
  case verified =>
    rw [read Call.committed (by simp [decisions]), read Call.settled (by simp [decisions]),
      read Call.verified (by simp [decisions])]
    exact ends.verified_iff
  case committed =>
    rw [read Call.committed (by simp [decisions]), read Call.failedLater (by simp [decisions])]
    exact ends.committed_iff
  case possiblyCommitted =>
    rw [read Call.possiblyCommitted (by simp [decisions])]
    exact ends.possiblyCommitted_iff
  case failedBeforeCommit =>
    rw [read Call.failedBeforeCommit (by simp [decisions]),
      read Call.isCommit (by simp [decisions]), read Call.possiblyCommitted (by simp [decisions])]
    exact ends.failedBeforeCommit_iff
  case seat =>
    rw [filtered]
    · exact neutralized.asksSeat.1
    · intro call asks
      cases call <;> first | rfl | cases asks
  case neutralized =>
    rw [filtered, filtered]
    · exact neutralized.asksSeat.2
    · intro call found
      cases call <;> first | rfl | cases found
    · intro call found
      cases call <;> first | rfl | cases found
  case succeeded => exact fun none => errors.mp none
  case errorless =>
    intro verified released
    apply errors.mpr
    refine ⟨verified, ?_⟩
    intro failed
    rcases any_eq_true.mp failed with ⟨call, member, fails⟩
    rcases call with _ | _ | _ | _ | _ | _ | _ | (error | outcome)
    case neutralize.error =>
      rcases released _ member with ⟨left, answers, _⟩
      cases answers
    all_goals cases fails

/-- A runtime that is cancelled before anything is asked of it. -/
def cancelledRuntime : Runtime Unit Unit Unit where
  check := return fail .cancelled "operation cancelled"
  treeSource := return none
  hasEvents := return false
  enable := return .ok ()
  disable := return .ok ()
  patience := return (0, ⟨.cancelled, "operation cancelled", "", []⟩)
  observations _ := return fun _ => none
  routes := return []
  reserve _ _ := return none
  barriers _ := return []
  armBarrier _ _ := return .ok ()
  commit _ := return .ok ()
  settle _ := return .ok []
  verify _ := return .ok ()
  inputSeat := return false
  neutralize := return .ok .nothingHeld

def cancelledTransaction : Transaction Unit Unit Unit where
  runtime := cancelledRuntime
  tree := 1
  library := { dump := fun _ => "", parse := fun _ => .ok .null }

def someMatch : Match where
  ref := ⟨⟨1⟩, 1, ⟨1⟩, 1, ⟨1⟩⟩
  mode := .live
  snapshotRevision := 17
  matchedPredicates := []
  provenance := ⟨"", "", ⟨1⟩, 17⟩

/-- The status of a receipt begins as that of a failed commit: an action that is cancelled has it
without a commit that failed. -/
theorem cancelled_failedBeforeCommit :
    ¬((perform cancelledTransaction (.click (.found someMatch)) {} ()).receipt.commit =
        .failedBeforeCommit ↔
      (performed cancelledTransaction (.click (.found someMatch)) {} ()).calls.any
        Call.failedBeforeCommit) := by
  intro same
  have failed := same.mp rfl
  cases failed

end Grab.Kernel.Action

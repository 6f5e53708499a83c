import Mathlib.Data.List.Basic

/-!
# Open windows

`drivers/desktop/x11/window_tracker.cpp` and `kernel/graph/state_manager.cpp`.  The tracker knows a
window by its X id and reads its application, process and title when it is created and when it is
polled as the active one.  The state manager sees only events, and knows a window by its application
and title.

Times and durations are left out.  What is read of a window is given with each step.
-/

namespace Grab.Desktop

open List Function Bool

abbrev Window := UInt32

def windowNone : Window := 0

/-- Process ids; not positive ones are unknown. -/
abbrev Pid := Int

structure WindowRecord where
  app : String := ""
  pid : Pid := 0
  title : String := ""
  deriving DecidableEq

/-- The pair a state manager tells windows apart by. -/
def WindowRecord.identity (record : WindowRecord) : String × String := (record.app, record.title)

/-! ## Events -/

structure WindowChange where
  app : String := ""
  pid : Pid := 0
  title : String := ""
  prevTitle : String := ""
  deriving DecidableEq

inductive WindowEvent where
  | created (change : WindowChange)
  | closed (change : WindowChange)
  | focusChanged (change : WindowChange)
  | titleChanged (change : WindowChange)
  | activeChildChanged (previousActive currentActive : Window)
  deriving DecidableEq

/-! ## The state manager -/

structure StateManager where
  openWindows : List WindowRecord := []
  focused : WindowRecord := {}
  hasFocusedWindow : Bool := false
  deriving DecidableEq

namespace StateManager

def isEmptyWindow (change : WindowChange) : Bool :=
  change.app = "" && !decide (0 < change.pid) && change.title = ""

def sameIdentity (change : WindowChange) (record : WindowRecord) : Bool :=
  record.app == change.app && record.title == change.title

def makeRecord (change : WindowChange) : WindowRecord where
  app := change.app
  pid := change.pid
  title := change.title

/-- Overwrite the first record of the identity, or add one. -/
def upsert (change : WindowChange) : List WindowRecord → List WindowRecord
  | [] => [makeRecord change]
  | record :: rest =>
    if sameIdentity change record then makeRecord change :: rest
    else record :: upsert change rest

def observe (manager : StateManager) : WindowEvent → StateManager
  | .created change => { manager with openWindows := upsert change manager.openWindows }
  | .closed change =>
    let remaining :=
      { manager with
        openWindows := manager.openWindows.filter fun record => !sameIdentity change record }
    if manager.hasFocusedWindow && sameIdentity change manager.focused then
      { remaining with focused := {}, hasFocusedWindow := false }
    else remaining
  | .focusChanged change =>
    if isEmptyWindow change then { manager with focused := {}, hasFocusedWindow := false }
    else { manager with focused := makeRecord change, hasFocusedWindow := true }
  | .titleChanged _ => manager
  | .activeChildChanged _ _ => manager

def openWindowCount (manager : StateManager) : Nat := manager.openWindows.length

end StateManager

/-! ## The tracker -/

/-- What the properties of a window say; an unset class is empty. -/
structure Reading where
  wmClassApp : String
  pid : Pid
  title : String
  deriving DecidableEq

def windowIdString (window : Window) : String := toString window.toNat

def readWindowInfo (window : Window) (reading : Reading) : WindowRecord where
  app := if reading.wmClassApp = "" then windowIdString window else reading.wmClassApp
  pid := reading.pid
  title := reading.title

def makeWindowChange (info : WindowRecord) : WindowChange where
  app := info.app
  pid := info.pid
  title := info.title

structure WindowTracker where
  hasPolledActive : Bool := false
  activeWindow : Window := windowNone
  /-- The vector of tracked windows, by id. -/
  tracked : Window → Option WindowRecord := fun _ => none

namespace WindowTracker

def track (tracker : WindowTracker) (window : Window) (info : WindowRecord) : WindowTracker :=
  { tracker with tracked := Function.update tracker.tracked window (some info) }

def handleCreate (tracker : WindowTracker) (window : Window) (reading : Reading) :
    WindowTracker × List WindowEvent :=
  let info := readWindowInfo window reading
  (tracker.track window info, [.created (makeWindowChange info)])

/-- What is told of a window that closes. -/
def closingChange (tracker : WindowTracker) (window : Window) : WindowChange :=
  match tracker.tracked window with
  | none => { app := windowIdString window }
  | some info => makeWindowChange info

def handleDestroy (tracker : WindowTracker) (window : Window) : WindowTracker × List WindowEvent :=
  ({ tracker with tracked := Function.update tracker.tracked window none },
    [.closed (tracker.closingChange window)])

/-- A poll that finds another active window than the last. -/
def pollChanged (tracker : WindowTracker) (active : Window) (reading : Reading) :
    WindowTracker × List WindowEvent :=
  let polled := { tracker with hasPolledActive := true, activeWindow := active }
  let info := readWindowInfo active reading
  let switched : List WindowEvent :=
    if tracker.hasPolledActive then [.activeChildChanged tracker.activeWindow active] else []
  if active = windowNone then (polled, .focusChanged {} :: switched)
  else (polled.track active info, .focusChanged (makeWindowChange info) :: switched)

/-- A poll that finds the same active window. -/
def pollSame (tracker : WindowTracker) (active : Window) (reading : Reading) :
    WindowTracker × List WindowEvent :=
  if active = windowNone then (tracker, [])
  else
    match tracker.tracked active with
    | none => (tracker.track active (readWindowInfo active reading), [])
    | some info =>
      if reading.title ≠ "" ∧ reading.title ≠ info.title then
        let renamed := { info with title := reading.title }
        (tracker.track active renamed,
          [.titleChanged { makeWindowChange renamed with prevTitle := info.title }])
      else (tracker, [])

def handlePoll (tracker : WindowTracker) (active : Window) (reading : Reading) :
    WindowTracker × List WindowEvent :=
  if !tracker.hasPolledActive || active != tracker.activeWindow then
    tracker.pollChanged active reading
  else tracker.pollSame active reading

end WindowTracker

/-! ## Runs -/

/-- A notification of the server or a poll, with what is read of the window. -/
inductive Step where
  | create (window : Window) (reading : Reading)
  | destroy (window : Window)
  | poll (active : Window) (reading : Reading)
  deriving DecidableEq

/-- Tracker and state manager, with what the server did as far as it was reported. -/
structure WindowState where
  tracker : WindowTracker := {}
  manager : StateManager := {}
  /-- Windows created and not destroyed, with what was reported at their creation. -/
  opened : List (Window × WindowRecord) := []
  /-- Windows destroyed and not created again. -/
  closed : List Window := []
  /-- The window of the last event of the focus. -/
  focusedWindow : Option Window := none

namespace WindowState

def publish (desktop : WindowState) (published : WindowTracker × List WindowEvent) : WindowState :=
  { desktop with
    tracker := published.1
    manager := published.2.foldl StateManager.observe desktop.manager }

def step (desktop : WindowState) : Step → WindowState
  | .create window reading =>
    { desktop.publish (desktop.tracker.handleCreate window reading) with
      opened := desktop.opened.filter (fun entry => entry.1 != window) ++
        [(window, readWindowInfo window reading)]
      closed := desktop.closed.filter fun other => other != window }
  | .destroy window =>
    { desktop.publish (desktop.tracker.handleDestroy window) with
      opened := desktop.opened.filter fun entry => entry.1 != window
      closed := window :: desktop.closed }
  | .poll active reading =>
    { desktop.publish (desktop.tracker.handlePoll active reading) with
      focusedWindow :=
        if !desktop.tracker.hasPolledActive || active != desktop.tracker.activeWindow then
          if active = windowNone then none else some active
        else desktop.focusedWindow }

def run (desktop : WindowState) (steps : List Step) : WindowState := steps.foldl step desktop

/-- The state manager shows the open windows, one entry for each, and no closed one as focused. -/
structure Matches (desktop : WindowState) : Prop where
  windows : desktop.manager.openWindows = desktop.opened.map Prod.snd
  focus : desktop.manager.hasFocusedWindow = true →
    ∃ window, desktop.focusedWindow = some window ∧ window ∉ desktop.closed

/-- The window is shown, as open or as the focused one. -/
def Shown (desktop : WindowState) (window : Window) (record : WindowRecord) : Prop :=
  (window, record) ∈ desktop.opened ∨
    desktop.manager.hasFocusedWindow = true ∧ desktop.focusedWindow = some window ∧
      desktop.manager.focused = record

/-- A step after which the identity of every window that is shown is still the one it has. -/
def Careful (desktop : WindowState) : Step → Prop
  | .create window reading =>
    (∀ entry ∈ desktop.opened, entry.1 ≠ window ∧
      entry.2.identity ≠ (readWindowInfo window reading).identity) ∧
    ∀ record, desktop.Shown window record →
      (readWindowInfo window reading).identity = record.identity
  | .destroy window =>
    ∀ entry ∈ desktop.opened, entry.1 ≠ window →
      entry.2.identity ≠ (StateManager.makeRecord (desktop.tracker.closingChange window)).identity
  | .poll active reading =>
    if !desktop.tracker.hasPolledActive || active != desktop.tracker.activeWindow then
      active ∉ desktop.closed ∧
        ∀ record, (active, record) ∈ desktop.opened →
          (readWindowInfo active reading).identity = record.identity
    else
      ∀ record, desktop.Shown active record → reading.title = "" ∨ reading.title = record.title

def CarefulRun (desktop : WindowState) : List Step → Prop
  | [] => True
  | step :: rest => desktop.Careful step ∧ CarefulRun (desktop.step step) rest

/-! ## What careful runs keep -/

structure Sound (desktop : WindowState) : Prop where
  windows : desktop.manager.openWindows = desktop.opened.map Prod.snd
  tracked : ∀ window record, desktop.Shown window record →
    ∃ info, desktop.tracker.tracked window = some info ∧ info.identity = record.identity
  focus : desktop.manager.hasFocusedWindow = true →
    ∃ window, desktop.focusedWindow = some window ∧ window ∉ desktop.closed

theorem observe_focusChanged (manager : StateManager) (change : WindowChange) :
    manager.observe (.focusChanged change) =
      if StateManager.isEmptyWindow change then
        { manager with focused := {}, hasFocusedWindow := false }
      else { manager with
        focused := StateManager.makeRecord change
        hasFocusedWindow := true } :=
  rfl

variable {change : WindowChange}

theorem sameIdentity_iff {record : WindowRecord} :
    StateManager.sameIdentity change record = true ↔
      record.identity = (StateManager.makeRecord change).identity := by
  unfold StateManager.sameIdentity WindowRecord.identity StateManager.makeRecord
  rw [and_eq_true, beq_iff_eq, beq_iff_eq, Prod.mk.injEq]

theorem upsert_of_new {records : List WindowRecord}
    (new : ∀ record ∈ records, record.identity ≠ (StateManager.makeRecord change).identity) :
    StateManager.upsert change records = records ++ [StateManager.makeRecord change] := by
  induction records with
  | nil => rfl
  | cons record rest later =>
    have different : ¬StateManager.sameIdentity change record = true := fun same =>
      new record mem_cons_self (sameIdentity_iff.mp same)
    rw [StateManager.upsert, if_neg different,
      later fun other isRest => new other (mem_cons_of_mem _ isRest)]
    rfl

namespace Sound

variable {desktop : WindowState}
  (sound : desktop.Sound) {reading : Reading} {window : Window} {active : Window}

include sound

theorem create (careful : desktop.Careful (.create window reading)) :
    (desktop.step (.create window reading)).Sound := by
  have ⟨new, same⟩ := careful
  have kept : desktop.opened.filter (fun entry => entry.1 != window) = desktop.opened := by
    rw [filter_eq_self]
    intro entry member
    exact bne_iff_ne.mpr (new entry member).1
  constructor
  case windows =>
    change StateManager.upsert _ desktop.manager.openWindows = _
    rw [upsert_of_new, sound.windows]
    · change _ = (desktop.opened.filter _ ++ _).map Prod.snd
      rw [kept, map_append]
      rfl
    intro record member
    rw [sound.windows] at member
    rcases mem_map.mp member with ⟨entry, isOpen, rfl⟩
    exact (new entry isOpen).2
  case tracked =>
    intro other record shown
    change ∃ info, Function.update desktop.tracker.tracked window _ other = some info ∧ _
    by_cases isWindow : other = window
    · rw [isWindow, update_self]
      refine ⟨_, rfl, ?_⟩
      rcases shown with isOpen | ⟨hasFocus, isFocused, focused⟩
      · rcases mem_append.mp isOpen with old | last
        · rw [kept] at old
          exact absurd isWindow (new _ old).1
        · rw [(Prod.mk.injEq ..).mp (mem_singleton.mp last) |>.2]
      · rw [isWindow] at isFocused
        exact same record (.inr ⟨hasFocus, isFocused, focused⟩)
    · rw [update_of_ne isWindow]
      apply sound.tracked other record
      rcases shown with isOpen | isFocused
      · rcases mem_append.mp isOpen with old | last
        · rw [kept] at old
          exact .inl old
        · exact absurd ((Prod.mk.injEq ..).mp (mem_singleton.mp last) |>.1) isWindow
      · exact .inr isFocused
  case focus =>
    intro hasFocus
    rcases sound.focus hasFocus with ⟨focused, isFocused, stillOpen⟩
    exact ⟨focused, isFocused, fun member => stillOpen (mem_of_mem_filter member)⟩

theorem destroy (careful : desktop.Careful (.destroy window)) :
    (desktop.step (.destroy window)).Sound := by
  -- What is told of the window is what is shown of it.
  have told : ∀ record, desktop.Shown window record → record.identity =
      (StateManager.makeRecord (desktop.tracker.closingChange window)).identity := by
    intro record shown
    rcases sound.tracked window record shown with ⟨info, isTracked, same⟩
    unfold WindowTracker.closingChange
    rw [isTracked]
    exact same.symm
  have windows : desktop.manager.openWindows.filter (fun record =>
      !StateManager.sameIdentity (desktop.tracker.closingChange window) record) =
      (desktop.opened.filter fun entry => entry.1 != window).map Prod.snd := by
    rw [sound.windows, filter_map]
    congr 1
    apply filter_congr
    intro entry member
    change (!StateManager.sameIdentity _ entry.2) = _
    by_cases isWindow : entry.1 = window
    · have shown : desktop.Shown window entry.2 := .inl (by rw [← isWindow]; exact member)
      rw [sameIdentity_iff.mpr (told entry.2 shown), isWindow, bne_self_eq_false, Bool.not_true]
    have different : StateManager.sameIdentity (desktop.tracker.closingChange window) entry.2 =
        false := by
      rw [← not_eq_true, sameIdentity_iff]
      exact careful entry member isWindow
    rw [different, bne_iff_ne.mpr isWindow, Bool.not_false]
  have open_ : ∀ other record,
      (other, record) ∈ desktop.opened.filter (fun entry => entry.1 != window) →
      ∃ info, Function.update desktop.tracker.tracked window none other = some info ∧
        info.identity = record.identity := by
    intro other record isOpen
    have ⟨old, different⟩ := mem_filter.mp isOpen
    rw [update_of_ne (bne_iff_ne.mp different)]
    exact sound.tracked other record (.inl old)
  have managed : (desktop.step (.destroy window)).manager =
      if desktop.manager.hasFocusedWindow && StateManager.sameIdentity
          (desktop.tracker.closingChange window) desktop.manager.focused then
        { openWindows := (desktop.opened.filter fun entry => entry.1 != window).map Prod.snd }
      else { desktop.manager with
        openWindows := (desktop.opened.filter fun entry => entry.1 != window).map Prod.snd } := by
    rw [← windows]
    rfl
  constructor
  case windows =>
    rw [managed]
    split <;> rfl
  case tracked =>
    intro other record shown
    change ∃ info, Function.update desktop.tracker.tracked window none other = some info ∧ _
    rcases shown with isOpen | ⟨hasFocus, isFocused, focused⟩
    · exact open_ other record isOpen
    rw [managed] at hasFocus focused
    split at hasFocus
    · cases hasFocus
    rename_i different
    rw [if_neg different] at focused
    have shown : desktop.Shown other record := .inr ⟨hasFocus, isFocused, focused⟩
    rw [update_of_ne]
    · exact sound.tracked other record shown
    rintro rfl
    apply different
    rw [hasFocus, Bool.true_and]
    change desktop.manager.focused = record at focused
    rw [sameIdentity_iff, focused]
    exact told record shown
  case focus =>
    intro hasFocus
    rw [managed] at hasFocus
    split at hasFocus
    · cases hasFocus
    rename_i different
    rcases sound.focus hasFocus with ⟨focused, isFocused, stillOpen⟩
    refine ⟨focused, isFocused, ?_⟩
    intro member
    rcases mem_cons.mp member with rfl | old
    · apply different
      change desktop.manager.hasFocusedWindow = true at hasFocus
      rw [hasFocus, Bool.true_and, sameIdentity_iff]
      exact told _ (.inr ⟨hasFocus, isFocused, rfl⟩)
    · exact stillOpen old

theorem pollChanged
    (changed : (!desktop.tracker.hasPolledActive || active != desktop.tracker.activeWindow) = true)
    (careful : desktop.Careful (.poll active reading)) :
    (desktop.step (.poll active reading)).Sound := by
  unfold Careful at careful
  dsimp only at careful
  rw [if_pos changed] at careful
  have ⟨stillOpen, same⟩ := careful
  have stepped : desktop.step (.poll active reading) =
      { desktop.publish (desktop.tracker.pollChanged active reading) with
        focusedWindow := if active = windowNone then none else some active } := by
    unfold WindowState.step WindowTracker.handlePoll
    dsimp only
    rw [if_pos changed, if_pos changed]
  -- The second event is not for the manager.
  have switched : ∀ (manager : StateManager) (event : WindowEvent),
      (event :: if desktop.tracker.hasPolledActive then
        [.activeChildChanged desktop.tracker.activeWindow active] else []).foldl
          StateManager.observe manager = manager.observe event := by
    intro manager event
    split <;> rfl
  rw [stepped]
  unfold publish WindowTracker.pollChanged
  dsimp only
  by_cases nothing : active = windowNone
  · rw [if_pos nothing, if_pos nothing]
    dsimp only
    rw [switched]
    constructor
    case windows => exact sound.windows
    case tracked =>
      intro window record shown
      rcases shown with isOpen | ⟨hasFocus, _⟩
      · exact sound.tracked window record (.inl isOpen)
      · cases hasFocus
    case focus => exact nofun
  · rw [if_neg nothing, if_neg nothing]
    dsimp only
    rw [switched]
    have windows : (desktop.manager.observe (.focusChanged (makeWindowChange
        (readWindowInfo active reading)))).openWindows = desktop.manager.openWindows := by
      rw [observe_focusChanged]
      split <;> rfl
    have focused : (desktop.manager.observe (.focusChanged (makeWindowChange
        (readWindowInfo active reading)))).hasFocusedWindow = true →
        (desktop.manager.observe (.focusChanged (makeWindowChange
          (readWindowInfo active reading)))).focused = readWindowInfo active reading := by
      rw [observe_focusChanged]
      split
      · exact nofun
      · exact fun _ => rfl
    constructor
    case windows => exact windows.trans sound.windows
    case tracked =>
      intro window record shown
      change ∃ info, Function.update desktop.tracker.tracked active _ window = some info ∧ _
      rcases shown with isOpen | ⟨hasFocus, isFocused, isRecord⟩
      · by_cases isActive : window = active
        · rw [isActive, update_self]
          exact ⟨_, rfl, same record (isActive ▸ isOpen)⟩
        · rw [update_of_ne isActive]
          exact sound.tracked window record (.inl isOpen)
      cases isFocused
      rw [update_self]
      refine ⟨_, rfl, ?_⟩
      rw [← isRecord]
      exact congrArg _ (focused hasFocus).symm
    case focus => exact fun _ => ⟨active, rfl, stillOpen⟩

theorem pollSame (unchanged :
      ¬(!desktop.tracker.hasPolledActive || active != desktop.tracker.activeWindow) = true)
    (careful : desktop.Careful (.poll active reading)) :
    (desktop.step (.poll active reading)).Sound := by
  unfold Careful at careful
  dsimp only at careful
  rw [if_neg unchanged] at careful
  have stepped : desktop.step (.poll active reading) =
      desktop.publish (desktop.tracker.pollSame active reading) := by
    unfold WindowState.step WindowTracker.handlePoll
    dsimp only
    rw [if_neg unchanged, if_neg unchanged]
    rfl
  -- A window that is not shown may be tracked in any way.
  have hidden : ∀ info, (∀ record, ¬desktop.Shown active record) →
      { desktop with tracker := desktop.tracker.track active info : WindowState }.Sound := by
    intro info unseen
    refine { sound with tracked := fun window record shown => ?_ }
    change ∃ info, Function.update desktop.tracker.tracked active _ window = some info ∧ _
    have different : window ≠ active := by
      rintro rfl
      exact unseen record shown
    rw [update_of_ne different]
    exact sound.tracked window record shown
  rw [stepped]
  unfold WindowTracker.pollSame
  split
  · exact sound
  split
  · rename_i untracked
    apply hidden
    intro record shown
    rcases sound.tracked active record shown with ⟨info, isTracked, _⟩
    rw [untracked] at isTracked
    cases isTracked
  rename_i info isInfo
  split
  · rename_i renamed
    apply hidden
    intro record shown
    rcases sound.tracked active record shown with ⟨other, isTracked, same⟩
    cases isInfo.symm.trans isTracked
    have title : info.title = record.title := congrArg Prod.snd same
    rcases careful record shown with empty | old
    · exact renamed.1 empty
    · exact renamed.2 (old.trans title.symm)
  · exact sound

theorem step (step : Step) (careful : desktop.Careful step) : (desktop.step step).Sound := by
  cases step with
  | create window reading => exact sound.create careful
  | destroy window => exact sound.destroy careful
  | poll active reading =>
    by_cases changed :
        (!desktop.tracker.hasPolledActive || active != desktop.tracker.activeWindow) = true
    · exact sound.pollChanged changed careful
    · exact sound.pollSame changed careful

omit sound

theorem run (steps : List Step) (sound : desktop.Sound) (careful : desktop.CarefulRun steps) :
    (desktop.run steps).Sound := by
  induction steps generalizing desktop with
  | nil => exact sound
  | cons step rest later => exact later (sound.step step careful.1) careful.2

end Sound

theorem careful_take (steps : List Step) {desktop : WindowState}
    (careful : desktop.CarefulRun steps) (made : Nat) : desktop.CarefulRun (steps.take made) := by
  induction steps generalizing desktop made with
  | nil =>
    rw [take_nil]
    trivial
  | cons step rest later =>
    cases made with
    | zero => trivial
    | succ made => exact ⟨careful.1, later careful.2 made⟩

/-- In every state of a run in which no window that is shown changes its identity and no two open
windows share one, the state manager shows exactly the open windows, and no closed one as
focused. -/
theorem state_matches (steps : List Step) (careful : WindowState.CarefulRun {} steps) (made : Nat) :
    let desktop := WindowState.run {} (steps.take made)
    desktop.Matches ∧ (desktop.opened = [] → desktop.manager.openWindowCount = 0) := by
  intro desktop
  have fresh : WindowState.Sound {} := by
    constructor
    case windows => rfl
    case tracked =>
      rintro window record (isOpen | ⟨hasFocus, _⟩)
      · cases isOpen
      · cases hasFocus
    case focus => exact nofun
  have sound : desktop.Sound := fresh.run _ (careful_take steps careful made)
  refine ⟨⟨sound.windows, sound.focus⟩, fun none_ => ?_⟩
  unfold StateManager.openWindowCount
  rw [sound.windows, none_]
  rfl

/-- A terminal whose title stays. -/
def terminal : Reading where
  wmClassApp := "xterm"
  pid := 41
  title := "shell"

theorem state_matches_terminal :
    let desktop := WindowState.run {}
      ([.create 7 terminal, .poll 7 terminal, .poll 7 terminal, .destroy 7].take 4)
    desktop.Matches ∧ (desktop.opened = [] → desktop.manager.openWindowCount = 0) := by
  apply state_matches
  refine ⟨⟨nofun, ?_⟩, ⟨nofun, ?_⟩, ?_, ?_, trivial⟩
  · rintro record (impossible | ⟨impossible, _⟩)
    · cases impossible
    · cases impossible
  · intro record isOpen
    rw [(Prod.mk.injEq ..).mp (mem_singleton.mp isOpen) |>.2]
  · rintro record (isOpen | ⟨_, _, isRecord⟩)
    · rw [(Prod.mk.injEq ..).mp (mem_singleton.mp isOpen) |>.2]
      exact .inr rfl
    · rw [← isRecord]
      exact .inr rfl
  · intro entry isOpen different
    rw [mem_singleton.mp isOpen] at different
    exact absurd rfl different

/-- A window gets its title after it was created.  When it closes, its entry stays. -/
theorem state_keeps_closed :
    let desktop := WindowState.run {}
      [.create 7 { wmClassApp := "", pid := 0, title := "" }, .poll 7 terminal, .destroy 7]
    desktop.opened = [] ∧ desktop.manager.openWindowCount = 1 := by
  decide +kernel

end WindowState

end Grab.Desktop

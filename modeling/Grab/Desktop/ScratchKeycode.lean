import Mathlib.Data.List.Nodup

/-!
# Scratch keycodes

`drivers/desktop/x11/x11_input_correctness.cpp`.  A keysym that no key has is typed through a
keycode whose row of the keyboard map is empty: the pool puts the keysym in front of the row, and
puts the row back when the last lease of the keysym is gone.

The server is asked through a backend whose calls may fail.  A replace that succeeds sets the row,
one that fails leaves it, and a fence leaves every row.  Each operation is given the answers to its
calls.
-/

namespace Grab.Desktop

abbrev Keycode := UInt8

abbrev Keysym := UInt32

abbrev Row := List Keysym

structure ScratchKeycodeMapping where
  keycode : Keycode
  keysyms : Row
  deriving DecidableEq

structure Keyboard where
  /-- The keycodes, as `mappings` lists them. -/
  keycodes : List Keycode
  rows : Keycode → Row

def Keyboard.mappings (keyboard : Keyboard) : List ScratchKeycodeMapping :=
  keyboard.keycodes.map fun keycode => { keycode, keysyms := keyboard.rows keycode }

/-- The row has columns, and no keysym in any of them. -/
def Row.Empty (row : Row) : Prop := row ≠ [] ∧ ∀ symbol ∈ row, symbol = 0

instance (row : Row) : Decidable row.Empty :=
  inferInstanceAs (Decidable (_ ∧ _))

namespace ScratchKeycodePool

structure Lease where
  /-- Whether the lease has its pool still. -/
  pool : Bool := false
  keysym : Keysym := 0
  keycode : Keycode := 0
  deriving DecidableEq

structure Entry where
  keysym : Keysym
  keycode : Keycode
  references : Nat
  original : Row
  deriving DecidableEq

/-- Whether the calls of one operation succeed.  The last is the replace that takes one back. -/
structure Answers where
  mappings : Bool := true
  replace : Bool := true
  fence : Bool := true
  takeBack : Bool := true
  deriving DecidableEq

inductive AcquireError where
  | backend
  | capabilityUnavailable (message : String)
  deriving DecidableEq

end ScratchKeycodePool

open ScratchKeycodePool

structure ScratchKeycodePool where
  keyboard : Keyboard
  entries : List Entry := []
  /-- Every keycode that was chosen, with the row it had then. -/
  chosen : List (Keycode × Row) := []
  /-- Every keycode whose row was set. -/
  replaced : List Keycode := []
  /-- Whether every replace and fence since the last acquire succeeded. -/
  faultless : Bool := true

namespace ScratchKeycodePool

def replace (pool : ScratchKeycodePool) (answer : Bool) (keycode : Keycode) (row : Row) :
    ScratchKeycodePool :=
  if answer then
    { pool with
      keyboard := { pool.keyboard with rows := Function.update pool.keyboard.rows keycode row }
      replaced := keycode :: pool.replaced }
  else { pool with faultless := false }

def fence (pool : ScratchKeycodePool) (answer : Bool) : ScratchKeycodePool :=
  { pool with faultless := pool.faultless && answer }

/-- The mapping has an unused keycode that no entry of the pool has. -/
def selects (pool : ScratchKeycodePool) (mapping : ScratchKeycodeMapping) : Bool :=
  (pool.entries.find? fun entry => entry.keycode == mapping.keycode).isNone &&
    mapping.keycode != 0 && !mapping.keysyms.isEmpty &&
    mapping.keysyms.all fun symbol => symbol == 0

/-- Set the row of a keycode that was selected. -/
def install (pool : ScratchKeycodePool) (keysym : Keysym) (answers : Answers)
    (selected : ScratchKeycodeMapping) : ScratchKeycodePool × Except AcquireError Lease :=
  let chosen :=
    { pool with chosen := (selected.keycode, pool.keyboard.rows selected.keycode) :: pool.chosen }
  let replacement := selected.keysyms.set 0 keysym
  let replaced := chosen.replace answers.replace selected.keycode replacement
  if !answers.replace then (replaced, .error .backend)
  else
    let fenced := replaced.fence answers.fence
    if !answers.fence then
      -- The second fence changes nothing, and its answer is not looked at.
      (fenced.replace answers.takeBack selected.keycode selected.keysyms, .error .backend)
    else
      let entry : Entry :=
        { keysym, keycode := selected.keycode, references := 1, original := selected.keysyms }
      ({ fenced with entries := fenced.entries ++ [entry] },
        .ok { pool := true, keysym, keycode := entry.keycode })

def acquire (pool : ScratchKeycodePool) (keysym : Keysym) (answers : Answers) :
    ScratchKeycodePool × Except AcquireError Lease :=
  let pool := { pool with faultless := true }
  match pool.entries.find? fun entry => entry.keysym == keysym with
  | some existing =>
    ({ pool with
      entries := pool.entries.replace existing
        { existing with references := existing.references + 1 } },
      .ok { pool := true, keysym, keycode := existing.keycode })
  | none =>
    if !answers.mappings then (pool, .error .backend)
    else
      match pool.keyboard.mappings.find? pool.selects with
      | none =>
        (pool, .error (.capabilityUnavailable "No unused X11 scratch keycode is available"))
      | some selected => pool.install keysym answers selected

/-- The pool afterwards, and whether the release succeeded. -/
def release (pool : ScratchKeycodePool) (keysym : Keysym) (keycode : Keycode) (answers : Answers) :
    ScratchKeycodePool × Bool :=
  match pool.entries.find? fun entry => entry.keysym == keysym && entry.keycode == keycode with
  | none => (pool, true)
  | some entry =>
    if 1 < entry.references then
      ({ pool with
        entries := pool.entries.replace entry
          { entry with references := entry.references - 1 } }, true)
    else
      let replaced := pool.replace answers.replace entry.keycode entry.original
      if !answers.replace then (replaced, false)
      else
        let fenced := replaced.fence answers.fence
        if !answers.fence then (fenced, false)
        else ({ fenced with entries := fenced.entries.erase entry }, true)

namespace Lease

def restore (lease : Lease) (pool : ScratchKeycodePool) (answers : Answers) :
    ScratchKeycodePool × Lease :=
  if !lease.pool then (pool, lease)
  else
    let released := pool.release lease.keysym lease.keycode answers
    (released.1, if released.2 then { lease with pool := false } else lease)

/-- What a lease does to its pool when it is destroyed, or gets another lease moved into it. -/
def drop (lease : Lease) (pool : ScratchKeycodePool) (answers : Answers) : ScratchKeycodePool :=
  if !lease.pool then pool
  else (pool.release lease.keysym lease.keycode answers).1

end Lease

/-! ## Runs -/

inductive Step where
  | acquire (keysym : Keysym) (answers : Answers)
  | restore (lease : Nat) (answers : Answers)
  | destroy (lease : Nat) (answers : Answers)
  | moveConstruct (source : Nat)
  | moveAssign (target source : Nat) (answers : Answers)
  deriving DecidableEq

/-- A pool with all leases there ever were.  One that was destroyed is left without a pool. -/
structure Leasing where
  pool : ScratchKeycodePool
  leases : List Lease := []

namespace Leasing

def step (leasing : Leasing) : Step → Leasing
  | .acquire keysym answers =>
    match leasing.pool.acquire keysym answers with
    | (pool, .ok lease) => { pool, leases := leasing.leases ++ [lease] }
    | (pool, .error _) => { leasing with pool }
  | .restore index answers =>
    match leasing.leases[index]? with
    | none => leasing
    | some lease =>
      let restored := lease.restore leasing.pool answers
      { pool := restored.1, leases := leasing.leases.set index restored.2 }
  | .destroy index answers =>
    match leasing.leases[index]? with
    | none => leasing
    | some lease =>
      { pool := lease.drop leasing.pool answers, leases := leasing.leases.set index {} }
  | .moveConstruct source =>
    match leasing.leases[source]? with
    | none => leasing
    | some lease => { leasing with leases := leasing.leases.set source {} ++ [lease] }
  | .moveAssign target source answers =>
    match leasing.leases[target]?, leasing.leases[source]? with
    | some overwritten, some lease =>
      if target = source then leasing
      else
        { pool := overwritten.drop leasing.pool answers
          leases := (leasing.leases.set target lease).set source {} }
    | _, _ => leasing

def run (leasing : Leasing) (steps : List Step) : Leasing := steps.foldl step leasing

/-- A pool that has given no lease yet. -/
def start (before : Keyboard) : Leasing where
  pool := { keyboard := before }

structure Correct (before : Keyboard) (leasing : Leasing) : Prop where
  /-- The keycode of every live lease types the keysym of the lease. -/
  types : ∀ lease ∈ leasing.leases, lease.pool = true →
    (leasing.pool.keyboard.rows lease.keycode).head? = some lease.keysym
  distinct : ∀ first ∈ leasing.leases, first.pool = true →
    ∀ second ∈ leasing.leases, second.pool = true →
      first.keysym ≠ second.keysym → first.keycode ≠ second.keycode
  /-- Only keycodes that were chosen with an empty row are changed. -/
  chosen : (∀ choice ∈ leasing.pool.chosen, Row.Empty choice.2) ∧
    (∀ keycode ∈ leasing.pool.replaced, keycode ∈ leasing.pool.chosen.map Prod.fst) ∧
    ∀ keycode ∉ leasing.pool.replaced, leasing.pool.keyboard.rows keycode = before.rows keycode
  restored : (∀ lease ∈ leasing.leases, lease.pool = false) → leasing.pool.faultless = true →
    ∀ keycode, leasing.pool.keyboard.rows keycode = before.rows keycode

/-- The step neither asks for a lease while a row is left changed that no live lease has, or for one
of a keysym whose row was put back already, nor has a restore that puts the row back and fails
after. -/
def Careful (before : Keyboard) (leasing : Leasing) : Step → Prop
  | .acquire keysym _ =>
    (∀ entry ∈ leasing.pool.entries, entry.keysym = keysym →
      leasing.pool.keyboard.rows entry.keycode = entry.original.set 0 keysym) ∧
    ∀ keycode, leasing.pool.keyboard.rows keycode ≠ before.rows keycode →
      ∃ lease ∈ leasing.leases, lease.pool = true ∧ lease.keycode = keycode
  | .restore index answers =>
    ∀ lease, leasing.leases[index]? = some lease → lease.pool = true → lease.keysym ≠ 0 →
      ∀ entry ∈ leasing.pool.entries, entry.keysym = lease.keysym → entry.references ≤ 1 →
        answers.replace = true → answers.fence = true
  | _ => True

def CarefulRun (before : Keyboard) (leasing : Leasing) : List Step → Prop
  | [] => True
  | step :: rest => leasing.Careful before step ∧ CarefulRun before (leasing.step step) rest

end Leasing

end ScratchKeycodePool

end Grab.Desktop

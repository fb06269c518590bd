import Mathlib.Data.Rat.Floor
import BananaChat.Foundation.Machine
import BananaChat.Foundation.SlidingWindow
import BananaChat.Foundation.Text

namespace BananaChat.SignIn

open Foundation

/-!
# Budgets of attempts

`rate_limit_hits` keeps one row for each event, with its second.
-/

/-- A row of `rate_limit_hits`. -/
structure HitRow where
  id : ℕ
  key : Text
  hitAt : ℤ
deriving DecidableEq

/-- The table; ids are never given twice. -/
structure HitTable where
  rows : List HitRow
  lastId : ℕ

/-- `db.now`: the second of the clock. -/
def stamp (now : ℚ) : ℤ := ⌊now⌋

/-- `db.now` of a time before. -/
def since (now : ℚ) (window : ℤ) : ℤ := ⌊now - window⌋

section

variable (table : HitTable)

def countHits (key : Text) (since : ℤ) : ℕ := table.rows.countP (fun row => row.key = key /\ since < row.hitAt)

/-- Whether a key has no room: `limit <= 0`, or the rows since a second reach it. -/
def reached (key : Text) (limit since : ℤ) : Bool := limit <= 0 \/ limit <= countHits table key since

def HitTable.insert (rows : List HitRow) : HitTable := ⟨table.rows ++ rows, table.lastId + rows.length⟩

/-- The row that `hit` records. -/
def hitRow (key : Text) (now : ℚ) : HitRow := ⟨table.lastId + 1, key, stamp now⟩

/-- `hit`; the window is measured from when the call began, before it has the lock. -/
def hit (key : Text) (limit window : ℤ) (record : Bool) (began now : ℚ) : HitTable × Bool :=
  if reached table key limit (since began window) then (table, false)
  else (if record then table.insert [hitRow table key now] else table, true)

end

/-- A `(key, limit)` pair or a `(key, limit, window)` triple. -/
structure KeyLimit where
  key : Text
  limit : ℤ
  window : Option ℤ

def reading (clock : List ℚ) (place : ℕ) : ℚ := clock.getD place 0

def Forward (clock : List ℚ) (readings : ℕ) : Prop := clock.length = readings /\ clock.Pairwise (· <= ·)

instance decidableForward (clock : List ℚ) (readings : ℕ) : Decidable (Forward clock readings) :=
  inferInstanceAs (Decidable (_ /\ _))

/-- Whether `reserve` finds a limit reached; each check reads the clock. -/
def anyReached (table : HitTable) (windowSeconds : ℤ) (clock : List ℚ) : ℕ -> List KeyLimit -> Bool
  | _, [] => false
  | place, entry :: rest =>
    reached table entry.key entry.limit (since (reading clock place) (entry.window.getD windowSeconds)) ||
      anyReached table windowSeconds clock (place + 1) rest

/-- The rows that `reserve` records; each insertion reads the clock. -/
def reservedRows (lastId : ℕ) (clock : List ℚ) : ℕ -> List KeyLimit -> List HitRow
  | _, [] => []
  | place, entry :: rest =>
    ⟨lastId + 1, entry.key, stamp (reading clock place)⟩ :: reservedRows (lastId + 1) clock (place + 1) rest

def reserve (table : HitTable) (limits : List KeyLimit) (windowSeconds : ℤ) (clock : List ℚ) : HitTable × Option (List ℕ) :=
  if anyReached table windowSeconds clock 0 limits then (table, none)
  else
    let rows := reservedRows table.lastId clock limits.length limits
    (table.insert rows, some (rows.map HitRow.id))

def release (table : HitTable) (ids : List ℕ) : HitTable := { table with rows := table.rows.filter (·.id ∉ ids) }

structure Budgets where
  limitOf : Text -> ℤ
  windowOf : Text -> ℤ

namespace Budgets

variable (budgets : Budgets)

def Agrees (limits : List KeyLimit) (windowSeconds : ℤ) : Prop :=
  ∀ entry ∈ limits,
    entry.limit = budgets.limitOf entry.key /\ entry.window.getD windowSeconds = budgets.windowOf entry.key

instance decidableAgrees (limits : List KeyLimit) (windowSeconds : ℤ) : Decidable (budgets.Agrees limits windowSeconds) :=
  inferInstanceAs (Decidable (∀ entry ∈ limits, _))

end Budgets

inductive HitAction
  | hit (key : Text) (limit window : ℤ) (record : Bool) (began now : ℚ)
  | reserve (limits : List KeyLimit) (windowSeconds : ℤ) (clock : List ℚ)
  | release (ids : List ℕ)

inductive HitReport
  | recorded (row : HitRow)
  | released (id : ℕ)

def HitAction.records (table : HitTable) : HitAction -> List HitRow
  | .hit key limit window record began now =>
    if reached table key limit (since began window) = false /\ record then [hitRow table key now] else []
  | .reserve limits windowSeconds clock =>
    if anyReached table windowSeconds clock 0 limits then [] else reservedRows table.lastId clock limits.length limits
  | .release _ => []

/-- What the callers keep to: constant limits, a key once in a reservation, and a clock that does not go back
during a call. -/
def HitAction.Proper (budgets : Budgets) : HitAction -> Prop
  | .hit key limit window _ began now => budgets.Agrees [⟨key, limit, some window⟩] window /\ began <= now
  | .reserve limits windowSeconds clock =>
    budgets.Agrees limits windowSeconds /\ (limits.map KeyLimit.key).Nodup /\ Forward clock (2 * limits.length)
  | .release _ => True

def HitAction.next (table : HitTable) : HitAction -> HitTable
  | .hit key limit window record began now => (SignIn.hit table key limit window record began now).1
  | .reserve limits windowSeconds clock => (SignIn.reserve table limits windowSeconds clock).1
  | .release ids => SignIn.release table ids

def hitMachine (budgets : Budgets) : Machine HitTable HitAction where
  initial := fun table => table = ⟨[], 0⟩
  enabled := fun _ action => action.Proper budgets
  next := fun table action => action.next table

def hitReport (table : HitTable) (action : HitAction) : List HitReport :=
  match action with
  | .release ids => ids.map HitReport.released
  | _ => (action.records table).map HitReport.recorded

def recordedOf (past : List HitReport) : List HitRow :=
  past.filterMap (fun report =>
    match report with
    | .recorded row => some row
    | .released _ => none)

def releasedOf (past : List HitReport) : List ℕ :=
  past.filterMap (fun report =>
    match report with
    | .recorded _ => none
    | .released id => some id)

def unreleasedOf (past : List HitReport) : List HitRow := (recordedOf past).filter (·.id ∉ releasedOf past)

def countInSpan (budgets : Budgets) (rows : List HitRow) (key : Text) (start : ℤ) : ℕ :=
  rows.countP (fun row => (row.key = key) && SlidingWindow.inSpan start (budgets.windowOf key) row.hitAt)

def confirmFailures : ℤ := 10

def confirmFailureWindow : ℤ := 15 * 60

def confirmFailuresPerDay : ℤ := 50

def daySeconds : ℤ := 86400

def confirmKey (account : Text) : Text := Text.ofString "confirm-fail:" ++ account

def confirmDayKey (account : Text) : Text := Text.ofString "confirm-fail-day:" ++ account

/-- The limits that `confirm_password` reserves. -/
def confirmLimits (account : Text) : List KeyLimit :=
  [⟨confirmKey account, confirmFailures, none⟩, ⟨confirmDayKey account, confirmFailuresPerDay, some daySeconds⟩]

/-- A call of `confirm_password`, with the two rows that it recorded. -/
inductive Confirmation
  | absent
  | counted (first second : HitRow)
  /-- The password was right; the rows are not released yet. -/
  | right (first second : HitRow)
  /-- It returned `True`. -/
  | confirmed (first second : HitRow)
  /-- It returned `False`. -/
  | wrong (first second : HitRow)
  /-- It returned `None`. -/
  | refused
  | killed
deriving DecidableEq

structure ConfirmState where
  table : HitTable
  calls : ℕ -> Confirmation
  /-- The ids that calls of `confirm_password` recorded. -/
  owned : List ℕ

def ConfirmState.start : ConfirmState := ⟨⟨[], 0⟩, fun _ => .absent, []⟩

inductive ConfirmAction
  | reserve (call : ℕ) (clock : List ℚ)
  /-- `verify_password` answers at a moment. -/
  | verify (call : ℕ) (correct : Bool) (now : ℚ)
  | release (call : ℕ)
  | kill (call : ℕ)
  | other (action : HitAction)

structure WrongPassword where
  call : ℕ
  first : HitRow
  second : HitRow
  checkedAt : ℤ

namespace ConfirmState

variable (account : Text) (state : ConfirmState)

def move (call : ℕ) (place : Confirmation) : ConfirmState := { state with calls := Function.update state.calls call place }

def reserve (call : ℕ) (clock : List ℚ) : ConfirmState :=
  if anyReached state.table confirmFailureWindow clock 0 (confirmLimits account) then state.move call .refused
  else
    let first : HitRow := ⟨state.table.lastId + 1, confirmKey account, stamp (reading clock 2)⟩
    let second : HitRow := ⟨state.table.lastId + 2, confirmDayKey account, stamp (reading clock 3)⟩
    { state.move call (.counted first second) with
      table := (SignIn.reserve state.table (confirmLimits account) confirmFailureWindow clock).1
      owned := state.owned ++ [first.id, second.id] }

def step : ConfirmAction -> Option (ConfirmState × List WrongPassword)
  | .reserve call clock => if state.calls call = .absent then some (state.reserve account call clock, []) else none
  | .verify call correct now =>
    match state.calls call with
    | .counted first second =>
      some (if correct then (state.move call (.right first second), [])
        else (state.move call (.wrong first second), [⟨call, first, second, stamp now⟩]))
    | _ => none
  | .release call =>
    match state.calls call with
    | .right first second =>
      some ({ state.move call (.confirmed first second) with
        table := SignIn.release state.table [first.id, second.id] }, [])
    | _ => none
  | .kill call =>
    match state.calls call with
    | .counted _ _ => some (state.move call .killed, [])
    | .right _ _ => some (state.move call .killed, [])
    | _ => none
  | .other action => some ({ state with table := action.next state.table }, [])

end ConfirmState

def ConfirmAction.Proper (budgets : Budgets) (state : ConfirmState) : ConfirmAction -> Prop
  | .reserve _ clock => Forward clock 4
  | .other (.release ids) => ∀ id ∈ ids, id ∉ state.owned
  | .other action => action.Proper budgets
  | _ => True

def confirmMachine (budgets : Budgets) (account : Text) : Machine ConfirmState ConfirmAction where
  initial := fun state => state = .start
  enabled := fun state action => action.Proper budgets state /\ (state.step account action).isSome
  next := fun state action => ((state.step account action).map Prod.fst).getD state

def confirmReport (account : Text) (state : ConfirmState) (action : ConfirmAction) : List WrongPassword :=
  ((state.step account action).map Prod.snd).getD []

end BananaChat.SignIn

import BananaChat.Foundation.Dictionary
import BananaChat.Foundation.Machine
import BananaChat.Subscriptions.Accounts

namespace BananaChat.Subscriptions.Catalog

open Foundation Dictionary

/-!
# The catalogue of subscription models

`sync_catalog` brings the rows of `ai_models` together with what the adapter of a
provider reports: after a selection by an administrator, or as a refresh.
-/

/-- `ENROLLMENTS`. -/
inductive Enrollment
  | new
  | auto
  | reviewed
  | ignored
deriving DecidableEq

inductive Backend
  | subscription (provider : Provider)
  | other (name : String)
deriving DecidableEq

/-- A row of `ai_models`; `missing` says that `missing_at` is set. -/
structure Row where
  backend : Backend
  available : Bool
  missing : Bool
  enrollment : Enrollment
  rolledOut : Bool
  reason : String

/-- `selected_models`, `excluded_models` and `auto_enroll` of a provider, where they are valid. -/
structure Choices where
  selected : Option (List String)
  excluded : Option (List String)
  autoEnroll : Option Bool

/-- The rows by `ollama_name`, and the stored choices. -/
structure State where
  rows : List (String × Row)
  choices : Provider -> Choices

structure Request where
  provider : Provider
  /-- The names that the adapter reports; none if that failed. -/
  report : Option (List String)
  selected : Option (List String)
  background : Bool
  autoEnroll : Option Bool
  policyAutomatic : Bool
  ignored : String -> Bool

/-- `new`, `enabled` and `missing` of what the call returns. -/
structure Outcome where
  new : List String
  enabled : List String
  missing : List String

def maxDiscoveredModels : ℕ := 200

/-- `_WITHDRAWN`. -/
def withdrawnReason : String := "No adapter is connected for this provider; unavailable until one is configured."

def ignoredReason : String := "Matches the ignore list."

def absentReason : String := "Not selected or not reported by the adapter; unavailable until rediscovered."

/-- The models of `discovered_models`, if it is `ok`. -/
def discovered (report : Option (List String)) : Except String (List String) :=
  match report with
  | some names =>
    if names.length <= maxDiscoveredModels /\ names.Nodup then .ok names
    else .error "Model discovery failed. Check the configured adapter."
  | none => .error "Model discovery failed. Check the configured adapter."

/-- `sorted` of a set. -/
def sortedSet (names : List String) : List String := names.dedup.insertionSort (fun first second => first <= second)

/-- `automatic` of the call. -/
def Request.automatic (request : Request) (choices : Choices) : Bool :=
  request.autoEnroll.getD (choices.autoEnroll.getD request.policyAutomatic)

/-- `selection` and `excluded` before the mode counts. -/
def Request.chosen (request : Request) (available : List String) (choices : Choices) :
  Except String (Option (List String) × Option (List String)) :=
  match request.selected with
  | some selected =>
    if selected.length <= maxDiscoveredModels /\ ∀ name ∈ selected, name ∈ available then
      .ok (some (sortedSet selected), some (sortedSet
        ((choices.excluded.getD []).filter (· ∉ available) ++ available.filter (· ∉ selected))))
    else .error "Select only models the configured adapter reports as available."
  | none => .ok (choices.selected, choices.excluded)

def State.existingNames (state : State) (provider : Provider) : List String :=
  (state.rows.filter (·.2.backend = .subscription provider)).map Prod.fst

/-- `selection` and `excluded` in the end. -/
def Request.settled (request : Request) (available existing : List String) (automatic : Bool)
  (selection excluded : Option (List String)) : Option (List String) × Option (List String) :=
  if automatic then
    -- Older selections remain exclusions on the first refresh.
    let excluded := excluded.or (selection.map (fun selection =>
      sortedSet (available.filter (· ∉ selection))))
    (some (sortedSet (available.filter (· ∉ excluded.getD []))), excluded)
  else if selection = none /\ request.background then (some existing, excluded)
  else (selection, excluded)

/-- The names of `wanted`. -/
def wantedOf (available : List String) (selection : Option (List String)) : List String :=
  available.filter (fun name =>
    match selection with
    | none => true
    | some selection => name ∈ selection)

def found (provider : Provider) (ignored : Bool) (row : Option Row) : Except String Row :=
  match row with
  | none =>
    .ok ⟨.subscription provider, true, false, if ignored then .ignored else .new, false,
      if ignored then ignoredReason else "Discovered by the adapter; waiting for review."⟩
  | some row =>
    if row.backend = .subscription provider then
      .ok { row with
        available := true
        missing := false
        reason := if row.reason = withdrawnReason then "Reported by the adapter again." else row.reason }
    else .error "A discovered id conflicts with a different model backend."

/-- The loop over `wanted` for one model. -/
def listed (provider : Provider) (automatic ignored : Bool) (row : Option Row) : Except String Row := do
  let row <- found provider ignored row
  if ignored then return { row with enrollment := .ignored, rolledOut := false, reason := ignoredReason }
  else if automatic /\ row.enrollment = .new then
    return { row with
      enrollment := .auto
      rolledOut := true
      reason := "Enabled automatically with strict model limits; review it." }
  else return row

/-- The loop over `wanted`. -/
def listAll (provider : Provider) (automatic : Bool) (ignored : String -> Bool) :
    List String -> List (String × Row) -> Except String (List (String × Row))
  | [], rows => .ok rows
  | name :: rest, rows => do
      let row <- listed provider automatic (ignored name) (get? name rows)
      listAll provider automatic ignored rest (put name row rows)

section

variable (provider : Provider) (names : List String)

def isAbsent (name : String) (row : Row) : Bool :=
  row.backend = .subscription provider /\ name ∉ names /\ row.missing = false

def marked (name : String) (row : Row) : Row :=
  if isAbsent provider names name row then { row with available := false, missing := true, reason := absentReason }
  else row

def markAll (rows : List (String × Row)) : List (String × Row) :=
  rows.map (fun entry => (entry.1, marked provider names entry.1 entry.2))

end

/-- `new`, `enabled` and `missing`. -/
def outcomeOf (provider : Provider) (automatic : Bool) (ignored : String -> Bool) (wanted : List String)
  (before listed : List (String × Row)) : Outcome where
  new := wanted.filter (fun name => (get? name before).isNone)
  enabled := wanted.filter (fun name => automatic && !ignored name &&
    (get? name before).all (·.enrollment = .new))
  missing := (listed.filter fun entry => isAbsent provider wanted entry.1 entry.2).map Prod.fst

/-- `sync_catalog`. -/
def sync (request : Request) (state : State) : Except String (State × Outcome) := do
  let available <- discovered request.report
  let choices := state.choices request.provider
  let automatic := request.automatic choices
  let chosen <- request.chosen available choices
  let settled := request.settled available (state.existingNames request.provider) automatic chosen.1 chosen.2
  let wanted := wantedOf available settled.1
  let rows <- listAll request.provider automatic request.ignored wanted state.rows
  return (⟨markAll request.provider wanted rows, Function.update state.choices request.provider
        ⟨(request.selected.map sortedSet).or choices.selected, settled.2.or choices.excluded,
          request.autoEnroll.or choices.autoEnroll⟩⟩,
    outcomeOf request.provider automatic request.ignored wanted state.rows rows)

/-- `withdraw`, and the names that it returns. -/
def withdraw (provider : Provider) (state : State) : State × List String :=
  let isOffered (row : Row) : Bool := (row.backend = .subscription provider) && row.available
  ({ state with
      rows := state.rows.map (fun entry =>
        (entry.1, if isOffered entry.2 then { entry.2 with available := false, reason := withdrawnReason } else entry.2)) },
    (state.rows.filter (isOffered ·.2)).map Prod.fst)

inductive Action
  | sync (request : Request)
  | withdraw (provider : Provider)

def perform (state : State) : Action -> State
  | .sync request =>
    match sync request state with
    | .ok result => result.1
    | .error _ => state
  | .withdraw provider => (withdraw provider state).1

/-- Nothing was chosen yet, and no model of a subscription is listed. -/
structure State.Fresh (state : State) : Prop where
  names : (state.rows.map Prod.fst).Nodup
  others : ∀ entry ∈ state.rows, ∀ provider, entry.2.backend ≠ .subscription provider
  choices : ∀ provider, state.choices provider = ⟨none, none, none⟩

/-- Calls of `sync_catalog` and `withdraw` in any order. -/
def machine : Machine State Action where
  initial := State.Fresh
  enabled _ _ := True
  next := perform

end BananaChat.Subscriptions.Catalog

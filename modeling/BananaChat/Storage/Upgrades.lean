import Mathlib.Data.Int.Notation
import BananaChat.Foundation.Machine

namespace BananaChat.Storage

universe u

open Foundation

/-!
# Schema upgrades

Any number of processes initialise one database.
-/

inductive Kind
  | missing
  | file (empty : Bool)
  | link
  | other
deriving DecidableEq

structure Database (Data : Type u) where
  data : Data
  /-- `PRAGMA user_version`. -/
  version : ℤ
  /-- `PRAGMA application_id`. -/
  identity : ℤ

structure Disk (Data : Type u) where
  path : Kind
  /-- The file `.initialized`. -/
  marker : Kind
  /-- Whether there are files of SQLite beside the database. -/
  sidecars : Bool
  database : Database Data
  /-- The migrations that were committed. -/
  applied : List ℕ

/-- `_check_path`; its error, if it raises. -/
def checkPath (path marker : Kind) (sidecars initializing : Bool) : Option String :=
  if path = .link \/ marker = .link then some "Database and initialization marker must be regular files."
  else if path = .other then some "The configured database is not a regular file."
  else if marker = .other then some "The database initialization marker is invalid."
  else if (path = .missing \/ path = .file true) /\ (initializing = false \/ marker ≠ .missing \/ sidecars) then
    some "The database is missing or empty. Preserve its files and restore a verified backup."
  else none

structure Schema (Data : Type u) where
  applicationId : ℤ
  migrations : List (Data -> Data × Bool)
  /-- Whether `PRAGMA foreign_key_check` finds nothing. -/
  sound : Data -> Bool

structure Session (Data : Type u) where
  foreignKeys : Bool
  /-- The open transaction, with what it sees. -/
  work : Option (Database Data)

/-- `PRAGMA foreign_keys`, which does nothing in a transaction. -/
def Session.setForeignKeys {Data : Type u} (session : Session Data) (enforced : Bool) : Session Data :=
  if session.work.isSome then session else { session with foreignKeys := enforced }

inductive Stage
  /-- `boot_lock`. -/
  | waiting
  /-- `_check_path`. -/
  | checking
  /-- `connect`. -/
  | opening
  | journaling
  | tuning
  /-- `apply_migrations`. -/
  | identifying
  | reading (identity : ℤ)
  /-- `schema_transaction`, for the migration of an index. -/
  | disabling (index : ℕ)
  | beginning (index : ℕ)
  | migrating (index : ℕ)
  | naming (index : ℕ)
  | numbering (index : ℕ)
  | verifying (index : ℕ)
  | committing (index : ℕ)
  | enabling (index : ℕ)
  | undoing
  | restoring
  /-- `init_db`. -/
  | closing (failed : Bool)
  | rechecking
  /-- `_mark_initialized`. -/
  | marking
  | syncing
  | releasing (failed : Bool)
  | ended (failed : Bool)
  | killed
deriving DecidableEq

inductive Choice (Data : Type u)
  | works
  /-- It raises; a migration leaves some data. -/
  | fails (left : Data)
  /-- A `COMMIT` fails, and the engine has rolled the transaction back. -/
  | undone

def Choice.raises {Data : Type u} : Choice Data -> Bool
  | .works => false
  | _ => true

structure Process (Data : Type u) where
  stage : Stage
  session : Session Data

/-- `apply_migrations`, before its loop: the index of the first migration that is missing, or its error. -/
def pending {Data : Type u} (schema : Schema Data) (identity version : ℤ) : Except String ℕ :=
  if identity ≠ 0 /\ identity ≠ schema.applicationId then .error "This database belongs to a different BananaSuite application."
  else if ¬ (0 <= version /\ version <= schema.migrations.length) then
    .error ("This database requires newer application code. Restore a matching code/data " ++
      "backup to roll back; do not start older code against a newer schema.")
  else if version ≠ 0 /\ identity ≠ schema.applicationId then
    .error "The database schema version has no matching application identity."
  else .ok version.toNat

section Steps

variable {Data : Type u} (schema : Schema Data) (disk : Disk Data) (session : Session Data) (choice : Choice Data)

def within (change : Database Data -> Database Data) (after : Stage) : Disk Data × Process Data :=
  if choice.raises then (disk, ⟨.undoing, session⟩)
  else (disk, ⟨after, { session with work := session.work.map change }⟩)

def advance : Stage -> Disk Data × Process Data
  | .checking =>
    match checkPath disk.path disk.marker disk.sidecars true with
    | some _ => (disk, ⟨.releasing true, session⟩)
    | none => (disk, ⟨.opening, session⟩)
  | .opening =>
    match checkPath disk.path disk.marker disk.sidecars true, choice.raises with
    | none, false => ({ disk with path := if disk.path = .missing then .file true else disk.path }, ⟨.journaling, session⟩)
    | _, _ => (disk, ⟨.releasing true, session⟩)
  | .journaling =>
    if choice.raises then (disk, ⟨.releasing true, session⟩)
    else ({ disk with path := .file false }, ⟨.tuning, ⟨false, none⟩⟩)
  | .tuning =>
    if choice.raises then (disk, ⟨.releasing true, session⟩) else (disk, ⟨.identifying, session.setForeignKeys true⟩)
  | .identifying =>
    if choice.raises \/ session.work.isSome then (disk, ⟨.closing true, session⟩)
    else (disk, ⟨.reading disk.database.identity, session⟩)
  | .reading identity =>
    match pending schema identity disk.database.version, choice.raises with
    | .ok index, false => (disk, ⟨.disabling index, session⟩)
    | _, _ => (disk, ⟨.closing true, session⟩)
  | .disabling index =>
    if schema.migrations.length <= index then (disk, ⟨.closing false, session⟩)
    else if choice.raises then (disk, ⟨.closing true, session⟩)
    else (disk, ⟨.beginning index, session.setForeignKeys false⟩)
  | .beginning index =>
    if choice.raises then (disk, ⟨.undoing, session⟩)
    else (disk, ⟨.migrating index, { session with work := some disk.database }⟩)
  | .migrating index =>
    match schema.migrations[index]?, session.work, choice with
    | some migration, some work, .works =>
      (disk, ⟨if (migration work.data).2 then .undoing else .naming index,
        { session with work := some { work with data := (migration work.data).1 } }⟩)
    | _, some work, .fails left => (disk, ⟨.undoing, { session with work := some { work with data := left } }⟩)
    | _, _, _ => (disk, ⟨.undoing, session⟩)
  | .naming index => within disk session choice (fun work => { work with identity := schema.applicationId }) (.numbering index)
  | .numbering index => within disk session choice (fun work => { work with version := index + 1 }) (.verifying index)
  | .verifying index =>
    match session.work with
    | none => (disk, ⟨.undoing, session⟩)
    | some work =>
      if choice.raises \/ schema.sound work.data = false then (disk, ⟨.undoing, session⟩)
      else (disk, ⟨.committing index, session⟩)
  | .committing index =>
    match session.work, choice with
    | some work, .works =>
      ({ disk with database := work, applied := disk.applied ++ [index] }, ⟨.enabling index, { session with work := none }⟩)
    | _, .undone => (disk, ⟨.undoing, { session with work := none }⟩)
    | _, _ => (disk, ⟨.undoing, session⟩)
  | .enabling index => (disk, ⟨.disabling (index + 1), session.setForeignKeys true⟩)
  | .undoing => (disk, ⟨.restoring, { session with work := none }⟩)
  | .restoring => (disk, ⟨.closing true, session.setForeignKeys true⟩)
  | .closing failed =>
    (disk, ⟨if failed \/ choice.raises then .releasing true else .rechecking, { session with work := none }⟩)
  | .rechecking =>
    match checkPath disk.path disk.marker disk.sidecars false with
    | some _ => (disk, ⟨.releasing true, session⟩)
    | none => (disk, ⟨.marking, session⟩)
  | .marking =>
    if disk.marker ≠ .missing then (disk, ⟨.releasing false, session⟩)
    else if choice.raises then (disk, ⟨.releasing true, session⟩)
    else ({ disk with marker := .file true }, ⟨.syncing, session⟩)
  | .syncing => (disk, ⟨.releasing choice.raises, session⟩)
  | stage => (disk, ⟨stage, session⟩)

end Steps

structure Upgrade (Data : Type u) where
  disk : Disk Data
  /-- The process that holds the setup lock. -/
  holder : Option ℕ
  processes : List (Process Data)

def Upgrade.start {Data : Type u} (disk : Disk Data) : Upgrade Data := ⟨{ disk with applied := [] }, none, []⟩

inductive Move (Data : Type u)
  | start
  | step (index : ℕ) (choice : Choice Data)
  | kill (index : ℕ)
  /-- SQLite makes or removes its files beside the database. -/
  | sidecars (are : Bool)

namespace Upgrade

variable {Data : Type u} (schema : Schema Data) (state : Upgrade Data)

def step (index : ℕ) (choice : Choice Data) (process : Process Data) : Upgrade Data :=
  match process.stage with
  | .waiting =>
    if choice.raises then { state with processes := state.processes.set index { process with stage := .ended true } }
    else if state.holder = none then
      { state with holder := some index, processes := state.processes.set index { process with stage := .checking } }
    else state
  | .releasing failed =>
    { state with holder := none, processes := state.processes.set index { process with stage := .ended failed } }
  | stage =>
    { state with
      disk := (advance schema state.disk process.session choice stage).1
      processes := state.processes.set index (advance schema state.disk process.session choice stage).2 }

def next : Move Data -> Upgrade Data
  | .start => { state with processes := state.processes ++ [⟨.waiting, ⟨false, none⟩⟩] }
  | .step index choice =>
    match state.processes[index]? with
    | none => state
    | some process => state.step schema index choice process
  | .kill index =>
    { state with
      holder := if state.holder = some index then none else state.holder
      processes := state.processes.set index ⟨.killed, ⟨false, none⟩⟩ }
  | .sidecars are => { state with disk := { state.disk with sidecars := are } }

end Upgrade

def upgradeMachine {Data : Type u} (schema : Schema Data) (disk : Disk Data) : Machine (Upgrade Data) (Move Data) where
  initial := fun state => state = .start disk
  enabled := fun _ _ => True
  next := Upgrade.next schema

end BananaChat.Storage

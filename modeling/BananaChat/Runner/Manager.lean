import Mathlib.Data.Finset.Sort
import BananaChat.Foundation.Machine

namespace BananaChat.Runner

open Foundation

/-!
# The manager of sandboxes

Every thread of the sandbox runner is a job. A part of the code under the state lock is one
step, and so is each command of the container engine.
-/

structure Config where
  maxSandboxes : ℕ
  maxExecs : ℕ
  maxExecsPerSandbox : ℕ

def Config.execShare (config : Config) : ℕ :=
  let share := if config.maxExecsPerSandbox = 0 then max 2 (config.maxExecs / config.maxSandboxes) else config.maxExecsPerSandbox
  max 1 (min share config.maxExecs)

/-- What is done under the cleanup lock, by the names of containers. -/
inductive Work
  /-- `remove`; whether `reconcile` asked for it. -/
  | retire (name : ℕ) (reconciled : Bool)
  /-- `_remove_container`. -/
  | doom (name : ℕ) (reconciled : Bool)
  | rm (name : ℕ) (reconciled : Bool)
  | forget (name : ℕ)
  /-- `reap`. -/
  | survey
  /-- `reconcile`. -/
  | known
  | list (known : List ℕ)
  | compare (known : List ℕ) (listed : List (ℕ × Bool))
  /-- `shutdown`. -/
  | boxes
  | leftovers
deriving DecidableEq

def Work.isCommand : Work -> Bool
  | .rm _ _ | .list _ => true
  | _ => false

inductive Task
  /-- `create`, with the name of its container. -/
  | asking (name : ℕ)
  | admitted (name : ℕ)
  | slotted (name : ℕ)
  | started (name : ℕ)
  | made (name : ℕ)
  | verified (name : ℕ)
  | registering (name : ℕ)
  /-- It removes its container, and holds a slot meanwhile or not. -/
  | failing (name : ℕ) (slot : Bool)
  | leaving (name : ℕ)
  /-- `delete`, `reap`, `reconcile`, or an operation that removes its sandbox. -/
  | passing
  /-- `shutdown`; whether it saw every pending creation end. -/
  | stopping
  | waiting
  | closing (saw : Bool)
  | stopped (saw : Bool)
  | asks (name : ℕ)
  | shares (name : ℕ)
  | works (name : ℕ)
  | returns (name : ℕ)
  | ended
  | broken
deriving DecidableEq

def Task.creates : Task -> Option ℕ
  | .asking name | .admitted name | .slotted name | .started name | .made name | .verified name | .registering name |
      .failing name _ | .leaving name => some name
  | _ => none

/-- The name that a thread has in `_pending`. -/
def Task.pends : Task -> Option ℕ
  | .asking _ => none
  | task => task.creates

def Task.unmade : Task -> Option ℕ
  | .asking name | .admitted name | .slotted name => some name
  | _ => none

def Task.holdsSlot : Task -> Bool
  | .slotted _ | .started _ | .made _ | .verified _ | .failing _ true | .works _ => true
  | _ => false

def Task.holdsShare (name : ℕ) : Task -> Bool
  | .shares other | .works other | .returns other => other = name
  | _ => false

structure Job where
  task : Task
  works : List Work
deriving DecidableEq

inductive Choice
  | go
  | fail
  /-- The command was carried out, but reports an error or is not waited for to its end. -/
  | late
  /-- The command could not be started. -/
  | raise
  /-- The sandboxes that are idle or expired, and the names in `_doomed` in the order of a walk through that set. -/
  | found (boxes doomed : List ℕ)
deriving DecidableEq

structure Books where
  /-- `_sandboxes`, by the names of their containers. -/
  sandboxes : List ℕ
  pending : Finset ℕ
  doomed : Finset ℕ
  /-- The sandboxes with `gone`. -/
  gone : Finset ℕ
  /-- Each time that a sandbox was taken off `_sandboxes`. -/
  unregistered : List ℕ
  stop : Bool
  /-- The containers of the engine with its labels, and whether each runs. -/
  containers : List (ℕ × Bool)
  /-- Every name that a container has or had. -/
  named : List ℕ
  /-- The names that this runner gave. -/
  own : List ℕ

structure Slots where
  /-- The value of `_slots`. -/
  free : ℕ
  /-- `slots` of each sandbox. -/
  shares : ℕ -> ℕ

namespace Books

variable (books : Books)

def present : List ℕ := books.containers.map Prod.fst

def places : ℕ := books.sandboxes.length + (books.pending ∪ books.doomed).card

/-- `remove`, under the state lock; none where there is nothing to do. -/
def retire (name : ℕ) : Option Books :=
  if name ∈ books.gone /\ name ∉ books.doomed then none
  else
    some { books with
      doomed := insert name books.doomed
      sandboxes := books.sandboxes.filter (· ≠ name)
      gone := insert name books.gone
      unregistered := if name ∈ books.sandboxes then books.unregistered ++ [name] else books.unregistered }

def without (name : ℕ) : Books := { books with containers := books.containers.filter (·.1 ≠ name) }

/-- What `reconcile` does about one listed container. -/
def difference (known : List ℕ) (item : ℕ × Bool) : List Work :=
  if item.1 ∈ books.pending then []
  else if item.1 ∈ known then (if item.2 then [] else [.retire item.1 true])
  else if item.1 ∈ books.sandboxes then []
  else [.doom item.1 true]

/-- The removals that `reconcile` finds to be made. -/
def differences (known : List ℕ) (listed : List (ℕ × Bool)) : List Work :=
  listed.flatMap (books.difference known) ++
    (known.filter fun name => name ∉ listed.map Prod.fst /\ name ∉ books.pending).map (.retire · true)

def perform (choice : Choice) : Work -> Option (Books × List Work)
  | .retire name reconciled =>
    match books.retire name with
    | none => some (books, [])
    | some next => some (next, [.doom name reconciled])
  | .doom name reconciled => some ({ books with doomed := insert name books.doomed }, [.rm name reconciled])
  | .rm name _ =>
    match choice with
    | .go => some (books.without name, [.forget name])
    | .late => some (books.without name, [])
    | .fail => some (books, [])
    | _ => none
  | .forget name => some ({ books with doomed := books.doomed.erase name }, [])
  | .survey =>
    match choice with
    | .found boxes doomed =>
      if boxes ⊆ books.sandboxes /\ doomed.toFinset = books.doomed then
        some (books, boxes.map (.retire · false) ++ doomed.map (.doom · false) ++ [.known])
      else none
    | _ => none
  | .known => some (books, [.list books.sandboxes])
  | .list known =>
    match choice with
    | .go => some (books, [.compare known books.containers])
    | .fail | .late => some (books, [])
    | _ => none
  | .compare known listed => some (books, books.differences known listed)
  | .boxes => some (books, books.sandboxes.map (.retire · false))
  | .leftovers =>
    match choice with
    | .found _ doomed =>
      if doomed.toFinset = books.doomed then some (books, doomed.map (.doom · false)) else none
    | _ => none

end Books

def removal (name : ℕ) (slot : Bool) : Job := ⟨.failing name slot, [.doom name false]⟩

def advance (config : Config) (books : Books) (slots : Slots) (choice : Choice) : Task -> Option (Books × Slots × Job)
  | .asking name =>
    if books.stop \/ config.maxSandboxes <= books.places then some (books, slots, ⟨.broken, []⟩)
    else some ({ books with pending := insert name books.pending, own := books.own ++ [name] }, slots, ⟨.admitted name, []⟩)
  | .admitted name =>
    if slots.free = 0 then some (books, slots, ⟨.leaving name, []⟩)
    else some (books, { slots with free := slots.free - 1 }, ⟨.slotted name, []⟩)
  | .slotted name =>
    match choice with
    | .go => some ({ books with containers := books.containers ++ [(name, true)] }, slots, ⟨.started name, []⟩)
    | .late => some ({ books with containers := books.containers ++ [(name, true)] }, slots, removal name true)
    | .fail => some (books, slots, removal name true)
    | .raise => some (books, slots, ⟨.failing name true, []⟩)
    | .found _ _ => none
  | .started name => some (books, slots, if books.stop then removal name true else ⟨.made name, []⟩)
  | .made name => some (books, slots, if choice = .go then ⟨.verified name, []⟩ else removal name true)
  | .verified name => some (books, { slots with free := slots.free + 1 }, ⟨.registering name, []⟩)
  | .registering name =>
    if books.stop then some (books, slots, removal name false)
    else
      some ({ books with sandboxes := books.sandboxes ++ [name], pending := books.pending.erase name }, slots, ⟨.ended, []⟩)
  | .failing name slot => some (books, { slots with free := slots.free + slot.toNat }, ⟨.leaving name, []⟩)
  | .leaving name => some ({ books with pending := books.pending.erase name }, slots, ⟨.broken, []⟩)
  | .passing => some (books, slots, ⟨.ended, []⟩)
  | .stopping => some ({ books with stop := true }, slots, ⟨.waiting, []⟩)
  | .waiting =>
    if books.pending = ∅ then some (books, slots, ⟨.closing true, [.boxes, .leftovers]⟩)
    else if choice = .fail then some (books, slots, ⟨.closing false, [.boxes, .leftovers]⟩)
    else none
  | .closing saw => some (books, slots, ⟨.stopped saw, []⟩)
  | .asks name =>
    if config.execShare <= slots.shares name then some (books, slots, ⟨.broken, []⟩)
    else
      some (books, { slots with shares := Function.update slots.shares name (slots.shares name + 1) }, ⟨.shares name, []⟩)
  | .shares name =>
    if slots.free = 0 then some (books, slots, ⟨.returns name, []⟩)
    else some (books, { slots with free := slots.free - 1 }, ⟨.works name, []⟩)
  | .works name =>
    -- The operation may have its sandbox removed before it ends.
    if choice = .fail then some (books, slots, ⟨.works name, [.retire name false]⟩)
    else some (books, { slots with free := slots.free + 1 }, ⟨.returns name, []⟩)
  | .returns name =>
    some (books, { slots with shares := Function.update slots.shares name (slots.shares name - 1) }, ⟨.ended, []⟩)
  | .stopped _ | .ended | .broken => none

def Job.raised (job : Job) : Job :=
  match job.task with
  | .passing | .closing _ => ⟨.broken, []⟩
  | task => ⟨task, []⟩

structure Manager where
  books : Books
  slots : Slots
  /-- The thread that holds `_cleanup_lock`. -/
  holder : Option ℕ
  jobs : List Job

def Manager.start (config : Config) (containers : List (ℕ × Bool)) : Manager :=
  ⟨⟨[], ∅, ∅, ∅, [], false, containers, containers.map Prod.fst, []⟩, ⟨config.maxExecs, fun _ => 0⟩, none, []⟩

inductive Action
  | create (name : ℕ)
  /-- `delete`, or what removes a sandbox that it has in hand. -/
  | remove (name : ℕ)
  | reap
  | reconcile
  | shutdown
  | operate (name : ℕ)
  | step (index : ℕ) (choice : Choice)
  /-- The main process of a container ends. -/
  | stops (name : ℕ)
  /-- A container is removed behind the runner's back. -/
  | vanishes (name : ℕ)

namespace Manager

variable (config : Config) (state : Manager)

def step (index : ℕ) (choice : Choice) (job : Job) : Manager :=
  match job.works with
  | [] =>
    if state.holder = some index then { state with holder := none }
    else
      match advance config state.books state.slots choice job.task with
      | none => state
      | some (books, slots, job) => { state with books := books, slots := slots, jobs := state.jobs.set index job }
  | work :: rest =>
    if state.holder = none then { state with holder := some index }
    else if state.holder = some index then
      if choice = .raise /\ work.isCommand then { state with jobs := state.jobs.set index job.raised }
      else
        match state.books.perform choice work with
        | none => state
        | some (books, more) => { state with books := books, jobs := state.jobs.set index ⟨job.task, more ++ rest⟩ }
    else state

def join (job : Job) : Manager := { state with jobs := state.jobs ++ [job] }

def next : Action -> Manager
  | .create name => { state.join ⟨.asking name, []⟩ with books := { state.books with named := state.books.named ++ [name] } }
  | .remove name => state.join ⟨.passing, [.retire name false]⟩
  | .reap => state.join ⟨.passing, [.survey]⟩
  | .reconcile => state.join ⟨.passing, [.known]⟩
  | .shutdown => state.join ⟨.stopping, []⟩
  | .operate name => state.join ⟨.asks name, []⟩
  | .step index choice =>
    match state.jobs[index]? with
    | none => state
    | some job => state.step config index choice job
  | .stops name =>
    { state with
      books := { state.books with
        containers := state.books.containers.map (fun item => if item.1 = name then (name, false) else item) } }
  | .vanishes name => { state with books := state.books.without name }

def Enabled : Action -> Prop
  | .create name => name ∉ state.books.named
  | .remove name | .operate name => name ∈ state.books.sandboxes \/ name ∈ state.books.gone
  | _ => True

end Manager

def managerMachine (config : Config) : Machine Manager Action where
  initial := fun state => ∃ containers : List (ℕ × Bool), (containers.map Prod.fst).Nodup /\ state = .start config containers
  enabled := Manager.Enabled
  next := Manager.next config

end BananaChat.Runner

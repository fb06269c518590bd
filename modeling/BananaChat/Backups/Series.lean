import BananaChat.Foundation.Machine
import BananaChat.Foundation.Rows
import BananaChat.Backups.Retention

namespace BananaChat.Backups

open Foundation

/-!
# A backup series over time

One server uploads and prunes under its lock; everyone else who can push adds, replaces and removes
branches at any time, also between what the server reads and what it does.
-/

structure Branch where
  name : Identifier
  commit : ℕ
  index : Option Index
deriving DecidableEq

section

variable (branches : List Branch)

/-- `heads`: the names, as the remote lists them. -/
def heads : List Identifier :=
  (branches.map Branch.name).insertionSort (fun first second => nameOrder first <= nameOrder second)

def lookup (name : Identifier) : Option Branch := branches.find? (·.name = name)

def readIndex (name : Identifier) : Option Index := (lookup branches name).bind Branch.index

end

/-- The loop of `_authenticated_since`. -/
def sinceFrom (config : Config) (now : ℕ) (read : Identifier -> Option Index) :
    List Identifier -> ℕ -> Option Identifier -> Except Refusal (Option Identifier)
  | [], _, oldest => .ok oldest
  | name :: rest, unverified, oldest =>
    match authenticatedIndex config name (read name) with
    | none =>
      if maxUnverified < unverified + 1 then
        match oldest with
        | none => .error .tooManyUnverified
        | some start => .ok (some start)
      else sinceFrom config now read rest (unverified + 1) oldest
    | some index =>
      match index.authenticatedSince.filter (fun since =>
        isPlausible since now && (snapshotOrder since <= snapshotOrder name)) with
      | some since => .ok (some since)
      | none => sinceFrom config now read rest unverified (some name)

def authenticatedSince (config : Config) (now : ℕ) (branches : List Branch) : Except Refusal (Option Identifier) :=
  sinceFrom config now (readIndex branches) (newestFirst (heads branches) now) 0 none

/-- `_refuse_downgrade`, with the clock read twice. -/
def refuseDowngrade (config : Config) (identifier : Identifier) (now later : ℕ) (branches : List Branch) : Option Refusal :=
  if isPlausible identifier now then
    match authenticatedSince config later (Rows.deleteWhere (·.name = identifier) branches) with
    | .error refusal => some refusal
    | .ok none => none
    | .ok (some since) =>
      if (snapshotTime since).getD 0 <= (snapshotTime identifier).getD 0 then some (.notOlder since) else none
  else some .implausibleDate

/-- `_download`, as far as it decides whether a snapshot is decrypted: whether that
snapshot is authenticated. -/
def download (config : Config) (identifier : Identifier) (allowUnauthenticated : Bool) (now later : ℕ) (branches : List Branch) :
  Except Refusal Bool :=
  match lookup branches identifier with
  | none => .error .noLongerExists
  | some branch =>
    match branch.index with
    | none => .error .invalidIndex
    | some index =>
      if index.describes config identifier then
        match checkAuthentication index allowUnauthenticated with
        | .error refusal => .error refusal
        | .ok true => .ok true
        | .ok false =>
          match refuseDowngrade config identifier now later branches with
          | some refusal => .error refusal
          | none => .ok false
      else .error .invalidIndex

/-- What the holder of the lock is doing, with the branches it has read. -/
inductive Work
  | idle
  | uploading (identifier since : Identifier) (now : ℕ) (old : List Branch)
  | uploaded (identifier : Identifier) (old : List Branch)
  | pruning (old : List Branch)
deriving DecidableEq

/-- The repository, the server's work, the last reading of the clock, and the reading
that the last pushed snapshot was made with. -/
structure Series where
  branches : List Branch
  work : Work
  clock : ℕ
  lastUpload : Option ℕ

section

variable (config : Config)

/-- `upload`, until its snapshot is encrypted. -/
def beginUpload (now later suffix : ℕ) (series : Series) : Series :=
  let identifier := nextSnapshot (heads series.branches) now suffix
  match authenticatedSince config later series.branches with
  | .error _ => { series with clock := later }
  | .ok since => { series with
      clock := later, work := .uploading identifier (since.getD identifier) now series.branches }

def uploadedIndex (identifier since : Identifier) : Index :=
  { schema := 1, product := config.product, series := config.name, snapshot := some identifier,
    authenticatedSince := some since, tag := .valid }

/-- `push`: it never replaces a branch. -/
def push (commit : ℕ) (series : Series) : Series :=
  match series.work with
  | .uploading identifier since now old =>
    match lookup series.branches identifier with
    | some _ => { series with work := .idle }
    | none => { series with
        branches := series.branches ++ [{ name := identifier, commit, index := some (uploadedIndex config identifier since) }],
        work := .uploaded identifier old, lastUpload := some now }
  | _ => series

def stillAuthenticated (old branches : List Branch) (name : Identifier) : Bool :=
  match lookup old name with
  | none => false
  | some branch => (branch ∈ branches) && authenticated config name branch.index

/-- The branches after `_prune` of those that were read.  A removal names the commit that
was read; one that fails may have happened all the same. -/
def pruned (keep now : ℕ) (failure : Identifier -> Option String) (lost : Identifier -> Bool)
  (old branches : List Branch) : List Branch :=
  let pruning := prune (heads old) keep now (stillAuthenticated config old branches) failure
  Rows.deleteWhere (fun branch => (branch ∈ old) && (branch.name ∈ pruning.asked) &&
    ((branch.name ∈ pruning.removed) || lost branch.name)) branches

/-- The last step of `upload`, unless the series is append-only, and of `prune`. -/
def finishWork (keep now : ℕ) (appendOnly : Bool) (failure : Identifier -> Option String)
  (lost : Identifier -> Bool) (series : Series) : Series :=
  match series.work with
  | .uploaded _ old => { series with
      clock := now, work := .idle,
      branches := if appendOnly then series.branches else pruned config (keep - 1) now failure lost old series.branches }
  | .pruning old => { series with
      clock := now, work := .idle, branches := pruned config keep now failure lost old series.branches }
  | _ => series

end

inductive Action
  | beginUpload (now later suffix : ℕ)
  | push (commit : ℕ)
  | beginPrune
  | finish (keep now : ℕ) (appendOnly : Bool) (failure : Identifier -> Option String) (lost : Identifier -> Bool)
  | abandon
  | othersPush (branch : Branch)
  | othersRemove (name : Identifier)

def Foreign (config : Config) (branches : List Branch) (name : Identifier) : Prop :=
  ∀ branch ∈ branches, branch.name = name -> authenticated config name branch.index = false

instance decidableForeign (config : Config) (branches : List Branch) (name : Identifier) :
  Decidable (Foreign config branches name) := by
  unfold Foreign
  infer_instance

def readsLater (strictly : Bool) (before : Option ℕ) (now : ℕ) : Bool :=
  match before with
  | none => true
  | some last => if strictly then last < now else last <= now

/-- The series: its server's steps under the lock, and everyone else's.  No one else
can make an authenticated branch, and no one else removes one. -/
def repository (strictly : Bool) (config : Config) : Machine Series Action where
  initial := fun series => (series.branches.map Branch.name).Nodup /\ series.work = .idle /\ series.lastUpload = none /\
    ∀ branch ∈ series.branches, authenticated config branch.name branch.index = false
  enabled := fun series action =>
    match action with
    | .beginUpload now later _ => series.work = .idle /\ series.clock <= now /\ now <= later /\
        readsLater strictly series.lastUpload now
    | .push _ => True
    | .beginPrune => series.work = .idle
    | .finish keep now _ _ _ => series.clock <= now /\ 2 <= keep
    | .abandon => True
    | .othersPush branch => Foreign config series.branches branch.name /\
        authenticated config branch.name branch.index = false
    | .othersRemove name => Foreign config series.branches name
  next := fun series action =>
    match action with
    | .beginUpload now later suffix => beginUpload config now later suffix series
    | .push commit => push config commit series
    | .beginPrune => { series with work := .pruning series.branches }
    | .finish keep now appendOnly failure lost => finishWork config keep now appendOnly failure lost series
    | .abandon => { series with work := .idle }
    | .othersPush branch => { series with
        branches := Rows.deleteWhere (·.name = branch.name) series.branches ++ [branch] }
    | .othersRemove name => { series with
        branches := Rows.deleteWhere (·.name = name) series.branches }

def snapshotPushed (series : Series) (action : Action) : List Identifier :=
  match action, series.work with
  | .push _, .uploading identifier _ _ _ =>
    match lookup series.branches identifier with
    | some _ => []
    | none => [identifier]
  | _, _ => []

end BananaChat.Backups

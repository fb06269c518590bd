import Mathlib.Data.List.Dedup
import BananaChat.Credits.Ledger
import BananaChat.Foundation.Machine
import BananaChat.Foundation.Rounding

namespace BananaChat.Allowances.Promotion

open Foundation Function

/-!
# Promotion between tiers

`promote` reads the tiers, then the accounts with their usage, and then opens one transaction an
account.
-/

/-- A row of `limit_tiers`, with what it asks for. -/
structure TierRow where
  id : ℕ
  name : String
  minAccountDays : ℕ
  minActiveDays : ℕ
  minTokens30d : ℚ
  cleanDays : ℕ
deriving DecidableEq

/-- A row of `users`.  The text of `suspended_until` may be missing, no timestamp, or one. -/
structure Account where
  id : ℕ
  username : String
  admin : Bool
  createdAt : Option ℤ
  suspended : Bool
  suspendedUntil : Option (Option ℤ)
  lastSuspensionAt : Option ℤ
deriving DecidableEq

/-- The tier columns of `user_limits`. -/
structure Preferences where
  tierId : Option ℕ
  tierLocked : Bool
  tierChangedAt : Option ℤ
deriving DecidableEq

/-- What promotion reads and writes.  The tiers are in their order. -/
structure Database where
  tiers : List TierRow
  accounts : List Account
  preferences : ℕ -> Preferences
  ledger : List Credits.LedgerRow
  countedTypes : List Credits.RequestType
  autoTiers : Bool

/-- A row of `promotion_candidates`. -/
structure Candidate where
  account : Account
  tierId : Option ℕ
  tierLocked : Bool
  activeDays : ℕ
  tokens : ℚ
deriving DecidableEq

def daySeconds : ℤ := 86400

def historyDays : ℤ := 30

/-- `is_suspended`.  A text that is no timestamp suspends for good. -/
def isSuspended (clock : ℚ) (account : Account) : Bool :=
  account.suspended && match account.suspendedUntil with
    | none => true
    | some none => true
    | some (some ends) => clock < ends

/-- `promotion_candidates`: the accounts that are no administrators. -/
def promotionCandidates (database : Database) (since : ℤ) : List Candidate :=
  (database.accounts.filter (!·.admin)).map fun account =>
    let rows := database.ledger.filter (fun row =>
      row.userId = account.id /\ since <= row.createdAt /\ row.requestType ∈ database.countedTypes)
    { account := account
      tierId := (database.preferences account.id).tierId
      tierLocked := (database.preferences account.id).tierLocked
      activeDays := (rows.map (·.createdAt / daySeconds)).dedup.length
      tokens := (rows.map Credits.LedgerRow.creditsUsed).sum * Credits.tokensPerCredit }

inductive RequirementKey
  | accountDays
  | activeDays
  | tokens
  | cleanDays

structure Requirement where
  key : RequirementKey
  need : ℚ
  has : Option ℚ
  met : Bool

def suspensionClean (account : Account) (now clock : ℚ) (days : ℕ) : Bool :=
  !isSuspended clock account && match account.lastSuspensionAt with
    | none => true
    | some last => (last : ℚ) <= now - days * daySeconds

def requirements (tier : TierRow) (stats : Candidate) (now clock : ℚ) : List Requirement :=
  let created := (stats.account.createdAt.map fun stamp : ℤ => (stamp : ℚ)).getD now
  let age : ℤ := max 0 ⌊(now - created) / daySeconds⌋
  let used := roundEven stats.tokens
  [⟨.accountDays, tier.minAccountDays, some age, ((tier.minAccountDays : ℤ) <= age)⟩,
    ⟨.activeDays, tier.minActiveDays, some stats.activeDays, (tier.minActiveDays <= stats.activeDays)⟩,
    ⟨.tokens, tier.minTokens30d, some used, (tier.minTokens30d <= used)⟩,
    ⟨.cleanDays, tier.cleanDays, none, suspensionClean stats.account now clock tier.cleanDays⟩]

/-- `eligible_index`: the highest tier whose requirements are met, the entry tier when none is. -/
def eligibleIndex (tiers : List TierRow) (stats : Candidate) (now clock : ℚ) : ℕ :=
  tiers.zipIdx.foldl (fun best entry =>
    if entry.2 ≠ 0 /\ (requirements entry.1 stats now clock).all Requirement.met then entry.2 else best) 0

def standing (tiers : List TierRow) (tierId : Option ℕ) : ℕ :=
  (tierId.bind fun id => tiers.findIdx? (·.id = id)).getD 0

def Candidate.refreshed (row : Candidate) (account : Account) : Candidate :=
  { row with
    account :=
      { row.account with
        suspended := account.suspended
        suspendedUntil := account.suspendedUntil
        lastSuspensionAt := account.lastSuspensionAt } }

/-- The tier one turn of the loop of `promote` goes on to write, if it gets that far.  The tiers and
the candidate were read earlier, the suspension of the candidate is looked at by one clock reading
and that of the account by another. -/
def wantedTier (tiers : List TierRow) (row : Candidate) (now asked clock : ℚ) (database : Database) : Option TierRow :=
  let current := standing tiers row.tierId
  let target := eligibleIndex tiers row now asked
  if row.tierLocked \/ target <= current then none
  else
    match database.accounts.find? (·.id = row.account.id) with
    | none => none
    | some account =>
      let preferences := database.preferences row.account.id
      if preferences.tierLocked \/ preferences.tierId ≠ row.tierId then none
      else if eligibleIndex tiers (row.refreshed account) now clock < target then none
      else tiers[target]?

/-- What the transaction of one candidate comes to. -/
inductive Decision
  | keep
  | promote (tier : TierRow)
  /-- `update_user_settings` raises its `ValueError`. -/
  | fail

section

variable (tiers : List TierRow) (row : Candidate) (now asked clock : ℚ) (database : Database)

def decideOne : Decision :=
  match wantedTier tiers row now asked clock database with
  | none => .keep
  | some tier => if tier.id ∈ database.tiers.map TierRow.id then .promote tier else .fail

def promoteOne : Database :=
  match decideOne tiers row now asked clock database with
  | .promote tier =>
    { database with
      preferences := update database.preferences row.account.id
        { database.preferences row.account.id with tierId := some tier.id, tierChangedAt := some ⌊now⌋ } }
  | .keep | .fail => database

end

/-- The loop of `promote` without interruption, at one clock reading: the database, and the names it
returns.  A tier that is gone ends it. -/
def promoteAll (tiers : List TierRow) (now clock : ℚ) : List Candidate -> Database -> Database × List (String × String × String)
  | [], database => (database, [])
  | row :: rest, database =>
    match decideOne tiers row now clock clock database with
    | .keep => promoteAll tiers now clock rest database
    | .fail => (database, [])
    | .promote tier =>
      let later := promoteAll tiers now clock rest (promoteOne tiers row now clock clock database)
      (later.1, (row.account.username, (tiers[standing tiers row.tierId]?.map TierRow.name).getD "", tier.name) :: later.2)

/-- How far a run of `promote` is. -/
inductive Run
  | idle
  /-- It has read the tiers. -/
  | started (now : ℚ) (tiers : List TierRow)
  /-- It has read the candidates too, and these are left. -/
  | working (now : ℚ) (tiers : List TierRow) (rows : List Candidate)
deriving DecidableEq

structure State where
  database : Database
  runs : ℕ -> Run

inductive Change
  | lock (userId : ℕ) (locked : Bool)
  | move (userId : ℕ) (tierId : Option ℕ) (stamp : ℤ)
  | suspend (userId : ℕ) (ends : Option ℤ) (stamp : ℤ)
  | unsuspend (userId : ℕ) (stamp : ℤ)
  | createAccount (account : Account)
  | deleteAccount (userId : ℕ)
  | createTier (tier : TierRow)
  | updateTier (tier : TierRow)
  | moveTier (tierId : ℕ) (down : Bool)
  | deleteTier (tierId : ℕ)
  | useTokens (row : Credits.LedgerRow)
  | setPolicies (countedTypes : List Credits.RequestType) (autoTiers : Bool)

inductive Action
  | start (run : ℕ) (now : ℚ)
  | read (run : ℕ)
  | promoteNext (run : ℕ) (asked clock : ℚ)
  | change (change : Change)

def tiersMax : ℕ := 20

def swapAt {Item : Type} (items : List Item) (index : ℕ) : List Item :=
  match items.drop index with
  | first :: second :: rest => items.take index ++ second :: first :: rest
  | _ => items

def moveTier (tierId : ℕ) (down : Bool) (tiers : List TierRow) : List TierRow :=
  match tiers.findIdx? (·.id = tierId) with
  | none => tiers
  | some index => if down then swapAt tiers index else if index = 0 then tiers else swapAt tiers (index - 1)

/-- What a change does; a `ValueError` leaves the database as it is. -/
def Change.perform (database : Database) : Change -> Database
  | .lock userId locked =>
    { database with
      preferences := update database.preferences userId
        { database.preferences userId with tierLocked := locked } }
  | .move userId tierId stamp =>
    if tierId.all (fun id => database.tiers.any (·.id = id)) then
      { database with
        preferences := update database.preferences userId
          { database.preferences userId with tierId := tierId, tierChangedAt := some stamp } }
    else database
  | .suspend userId ends stamp =>
    { database with
      accounts := database.accounts.map (fun account =>
        if account.id = userId then
          { account with suspended := true, suspendedUntil := ends.map some, lastSuspensionAt := some stamp }
        else account) }
  | .unsuspend userId stamp =>
    { database with
      accounts := database.accounts.map (fun account =>
        if account.id = userId /\ account.suspended then
          { account with suspended := false, suspendedUntil := none, lastSuspensionAt := some stamp }
        else account) }
  | .createAccount account =>
    { database with
      accounts := database.accounts ++ [account]
      preferences := update database.preferences account.id ⟨none, false, none⟩ }
  | .deleteAccount userId =>
    { database with accounts := database.accounts.filter (fun account => !(account.id = userId)) }
  | .createTier tier =>
    if database.tiers.length < tiersMax then { database with tiers := database.tiers ++ [tier] } else database
  | .updateTier changed =>
    { database with tiers := database.tiers.map (fun tier => if tier.id = changed.id then changed else tier) }
  | .moveTier tierId down => { database with tiers := Promotion.moveTier tierId down database.tiers }
  | .deleteTier tierId =>
    if 1 < database.tiers.length /\ database.tiers.any (·.id = tierId) then
      { database with
        tiers := database.tiers.filter (fun tier => !(tier.id = tierId))
        preferences := fun userId =>
          if (database.preferences userId).tierId = some tierId then { database.preferences userId with tierId := none }
          else database.preferences userId }
    else database
  | .useTokens row => { database with ledger := database.ledger ++ [row] }
  | .setPolicies countedTypes autoTiers => { database with countedTypes := countedTypes, autoTiers := autoTiers }

/-- `promote` up to its first query: nothing to do without automatic tiers, or with one tier. -/
def opened (now : ℚ) (database : Database) : Run :=
  if database.autoTiers = false \/ database.tiers.length < 2 then .idle else .started now database.tiers

def historySince (now : ℚ) : ℤ := ⌊now⌋ - historyDays * daySeconds

/-- `promote` without interruption. -/
def promote (now clock : ℚ) (database : Database) : Database × List (String × String × String) :=
  match opened now database with
  | .started now tiers => promoteAll tiers now clock (promotionCandidates database (historySince now)) database
  | _ => (database, [])

def next (state : State) : Action -> State
  | .start run now => { state with runs := update state.runs run (opened now state.database) }
  | .read run =>
    match state.runs run with
    | .started now tiers =>
      { state with
        runs := update state.runs run
          (.working now tiers (promotionCandidates state.database (historySince now))) }
    | _ => state
  | .promoteNext run asked clock =>
    match state.runs run with
    | .working now tiers (row :: rest) =>
      { database := promoteOne tiers row now asked clock state.database
        runs := update state.runs run
          (match decideOne tiers row now asked clock state.database with
            | .fail => .idle
            | .keep | .promote _ => .working now tiers rest) }
    | _ => state
  | .change change => { state with database := change.perform state.database }

def enabled (state : State) : Action -> Prop
  | .change (.createTier tier) => tier.id ∉ state.database.tiers.map TierRow.id
  | .change (.createAccount account) => account.id ∉ state.database.accounts.map Account.id
  | _ => True

/-- Runs of `promote` among everything else, over any database with its keys. -/
def promotionMachine : Machine State Action where
  initial state := (state.database.tiers.map TierRow.id).Nodup /\ (state.database.accounts.map Account.id).Nodup /\
    state.runs = fun _ => .idle
  enabled := enabled
  next := next

end BananaChat.Allowances.Promotion

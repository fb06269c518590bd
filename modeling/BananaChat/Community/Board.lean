import Mathlib.Data.Rat.Floor
import BananaChat.Foundation.Machine
import BananaChat.Foundation.Rows

namespace BananaChat.Community

open Foundation Rows

/-!
# Quota requests and community consent

A request waits for an administrator, and where it was offered to the community also for other
people, who support it with part of their own limit or object.
-/

inductive Kind
  | window
  | weekly
  | rate
  | temporary
  | effort
deriving DecidableEq

inductive Period
  | window
  | weekly
deriving DecidableEq

inductive Pool
  | api
  | chat
  | agent
deriving DecidableEq

inductive Stance
  | support
  | object
deriving DecidableEq

inductive Status
  | pending
  | approved
  | denied
  | cancelled
deriving DecidableEq

inductive Source
  | manual
  | automatic
  | community
deriving DecidableEq

structure Rule where
  per : String
  requests : ℚ

/-- `quota_requests`. -/
structure QuotaRequest where
  id : ℕ
  userId : ℕ
  kind : Kind
  pool : Option Pool
  modelId : Option ℕ
  newTokens : Option ℕ
  newWeeklyTokens : Option ℕ
  newRules : List Rule
  grantHours : Option ℕ
  grantUnlimited : Bool
  effortLevel : Option String
  effortAllModels : Bool
  status : Status
  source : Source
  community : Bool
  communityUntil : Option ℕ
  communityClosedAt : Option ℕ
  grantId : Option ℕ
  boostEndsAt : Option ℕ

/-- `quota_request_votes`: one row for each person and request. -/
structure Vote where
  requestId : ℕ
  userId : ℕ
  stance : Stance
  tokens : ℕ
  pool : Option Pool
  modelId : Option ℕ
  scope : Option Period
  startsAt : Option ℕ
  endsAt : Option ℕ
  releasedAt : Option ℕ

inductive GrantScope
  | rate
  | period (period : Period)
deriving DecidableEq

inductive GrantKind
  | unlimited
  | multiplier
  | extra
deriving DecidableEq

/-- `limit_grants`; without an account it is for everyone. -/
structure Grant where
  id : ℕ
  userId : Option ℕ
  pool : Option Pool
  modelId : Option ℕ
  scope : Option GrantScope
  kind : GrantKind
  amount : ℚ
  startsAt : ℕ
  endsAt : Option ℕ
  revokedAt : Option ℕ
deriving DecidableEq

/-- The tables, and the next identifiers.  `carriedOut` stands for the custom limits,
unlocked levels and grants that requests led to: one entry each time that one is
carried out. -/
structure Tables where
  requests : List QuotaRequest
  votes : List Vote
  grants : List Grant
  carriedOut : List ℕ
  nextRequest : ℕ
  nextGrant : ℕ

def Tables.carry (requestId : ℕ) (tables : Tables) : Tables := { tables with carriedOut := tables.carriedOut ++ [requestId] }

/-- The community options, within `BOUNDS`. -/
structure Options where
  enabled : Bool
  kinds : List Kind
  minSupporters : ℕ
  approvalPercent : ℕ
  coveragePercent : ℕ
  hours : ℕ
  boostHours : ℕ
  minAccountDays : ℕ
  maxPledgePercent : ℕ

structure Base where
  windowTokens : ℚ
  weeklyTokens : ℚ
  windowEnabled : Bool
  weeklyEnabled : Bool
  rateEnabled : Bool
  rateRules : List Rule

namespace Base

def tokens (base : Base) : Period -> ℚ
  | .window => base.windowTokens
  | .weekly => base.weeklyTokens

def enabled (base : Base) : Period -> Bool
  | .window => base.windowEnabled
  | .weekly => base.weeklyEnabled

end Base

/-- Whose limits a request or a pledge is about: a service's, or one model's. -/
structure Target where
  pool : Option Pool
  modelId : Option ℕ
deriving DecidableEq

/-- The site's options, the limits of each account, and the clock, which is read again
before a request is carried out. -/
structure Surroundings where
  options : Options
  base : ℕ -> Target -> Base
  modelExists : ℕ -> Bool
  autoEnabled : Bool
  autoTokens : ℕ
  autoWeeklyTokens : ℕ
  fails : Bool
  now : ℕ
  later : ℕ

def hour : ℕ := 3600

def day : ℕ := 86400

def target (row : QuotaRequest) : Target :=
  if row.kind ≠ .effort /\ row.modelId ≠ none then ⟨none, row.modelId⟩ else ⟨some (row.pool.getD .api), none⟩

/-- `scope`: the limit that supporters renounce from. -/
def scope (row : QuotaRequest) : Option Period :=
  match row.kind with
  | .window => some .window
  | .temporary => if row.grantUnlimited then none else some .window
  | .weekly => some .weekly
  | _ => none

def unlimited (row : QuotaRequest) : Bool := decide (row.kind = .temporary) && row.grantUnlimited

def baseFor (around : Surroundings) (userId : ℕ) (row : QuotaRequest) : Base := around.base userId (target row)

/-- `increase`: the tokens a request adds. -/
def increase (around : Surroundings) (row : QuotaRequest) : ℕ :=
  match row.kind with
  | .temporary => if row.grantUnlimited then 0 else row.newTokens.getD 0
  | .window => row.newTokens.getD 0 - ⌊(baseFor around row.userId row).windowTokens⌋₊
  | .weekly => row.newWeeklyTokens.getD 0 - ⌊(baseFor around row.userId row).weeklyTokens⌋₊
  | _ => 0

def votesOf (requestId : ℕ) (votes : List Vote) : List Vote := votes.filter (·.requestId = requestId)

structure Consent where
  supporters : ℕ
  objectors : ℕ
  pledged : ℕ
  needed : ℕ
  minSupporters : ℕ
  approvalPercent : ℕ

namespace Consent

def reached (consent : Consent) : Bool :=
  decide (consent.minSupporters <= consent.supporters) && decide (0 < consent.supporters + consent.objectors) &&
    decide (consent.approvalPercent * (consent.supporters + consent.objectors) <= consent.supporters * 100) &&
    decide (consent.needed <= consent.pledged)

end Consent

def share (tokens percent : ℕ) : ℕ := (tokens * percent + 99) / 100

def pledgedFor (requestId : ℕ) (votes : List Vote) : ℕ :=
  sumWhere (fun vote => decide (vote.requestId = requestId) && decide (vote.stance = .support) && vote.releasedAt.isNone)
    Vote.tokens votes

def consent (around : Surroundings) (row : QuotaRequest) (votes : List Vote) : Consent :=
  let rows := votesOf row.id votes
  { supporters := rows.countP (·.stance = .support),
    objectors := rows.countP (·.stance = .object),
    pledged := pledgedFor row.id votes,
    needed := if (scope row).isSome then share (increase around row) around.options.coveragePercent else 0,
    minSupporters := around.options.minSupporters,
    approvalPercent := around.options.approvalPercent }

def votingOpen (options : Options) (now : ℕ) (row : QuotaRequest) : Bool :=
  decide (row.status = .pending) && row.community && row.communityClosedAt.isNone && (match row.communityUntil with
      | some ends => decide (now < ends)
      | none => false) &&
    options.enabled && decide (row.kind ∈ options.kinds) && !unlimited row

section

variable (userId : ℕ) (limit : Target) (period : Period)

def Vote.holds (now : ℕ) (vote : Vote) : Bool :=
  decide (vote.userId = userId) && decide (vote.stance = .support) && decide (0 < vote.tokens) && vote.releasedAt.isNone &&
    (match vote.endsAt with
      | none => true
      | some ends => decide (now < ends)) &&
    decide (vote.pool = limit.pool) && decide (vote.modelId = limit.modelId) && decide (vote.scope = some period)

/-- `held`: what an account has renounced or promised, less what it did for one request. -/
def held (exclude : Option ℕ) (now : ℕ) (votes : List Vote) : ℕ :=
  sumWhere (fun vote => vote.holds userId limit period now && decide (some vote.requestId ≠ exclude)) Vote.tokens votes

end

/-- Somebody who votes: `suspended` is also true of an account that is gone. -/
structure Person where
  id : ℕ
  admin : Bool
  suspended : Bool
  createdAt : Option ℕ

def pledgeCap (options : Options) (base : Base) (period : Period) : ℕ :=
  ⌊base.tokens period * options.maxPledgePercent / 100⌋₊

section

variable (around : Surroundings)

def pledgeRoom (user : Person) (row : QuotaRequest) (votes : List Vote) : ℕ :=
  match scope row with
  | none => 0
  | some period =>
    let base := baseFor around user.id row
    if user.admin || !base.enabled period then 0
    else pledgeCap around.options base period - held user.id (target row) period (some row.id) around.now votes

inductive VoteError
  | voteTokens
  | voteMissing
  | voteClosed
  | voteOwn
  | voteAdmin
  | voteSuspended
  | voteTooNew
  | voteTooMany (max : ℕ)

def eligible (user : Person) (row : QuotaRequest) : Option VoteError :=
  if votingOpen around.options around.now row = false then some .voteClosed
  else if user.id = row.userId then some .voteOwn
  else if user.admin then some .voteAdmin
  else if user.suspended then some .voteSuspended
  else match user.createdAt with
    | some created =>
      if around.now < created + around.options.minAccountDays * day then some .voteTooNew else none
    | none => none

/-- `TOKENS_MAX` and `MULTIPLIER_MAX`. -/
def tokensMax : ℚ := 2000000000

def multiplierMax : ℚ := 100

structure GrantDraft where
  userId : Option ℕ
  pool : Option Pool
  modelId : Option ℕ
  scope : Option GrantScope
  kind : GrantKind
  amount : ℚ
  startsAt : ℕ
  endsAt : Option ℕ

def validateGrant (draft : GrantDraft) : Bool :=
  (match draft.modelId with
    | some modelId => draft.pool.isNone && around.modelExists modelId
    | none => true) &&
  (match draft.kind with
    | .unlimited => true
    | .multiplier => decide (101 / 100 <= draft.amount) && decide (draft.amount <= multiplierMax)
    | .extra => (match draft.scope with
        | some (.period _) => true
        | _ => false) && decide (1 <= draft.amount) && decide (draft.amount <= tokensMax) && decide (draft.amount.den = 1)) &&
  (match draft.endsAt with
    | some ends => decide (draft.startsAt < ends)
    | none => true)

/-- `create_grant`: the new row's identifier. -/
def createGrant (draft : GrantDraft) (tables : Tables) : Option (ℕ × Tables) :=
  if validateGrant around draft then
    some (tables.nextGrant, { tables with
      nextGrant := tables.nextGrant + 1,
      grants := tables.grants ++ [{ id := tables.nextGrant, userId := draft.userId, pool := draft.pool, modelId := draft.modelId,
                                    scope := draft.scope, kind := draft.kind,
                                    amount := if draft.kind = .unlimited then 0 else draft.amount,
                                    startsAt := draft.startsAt, endsAt := draft.endsAt, revokedAt := none }] })
  else none

def revokeGrant (grantId now : ℕ) (tables : Tables) : Tables :=
  let standing := fun grant : Grant => decide (grant.id = grantId) && grant.revokedAt.isNone
  { tables with grants := updateWhere standing (fun grant => { grant with revokedAt := some now }) tables.grants }

/-- `round(factor, 2)`: to even where two hundredths are equally near. -/
def roundHundredths (factor : ℚ) : ℚ :=
  let below := ⌊factor * 100⌋
  let rest := factor * 100 - below
  (if rest < 1 / 2 \/ (rest = 1 / 2 /\ below % 2 = 0) then below else below + 1 : ℤ) / 100

def rateFactor (base : Base) (row : QuotaRequest) : Option ℚ :=
  let factor := fun rule : Rule => (row.newRules.find? (·.per = rule.per)).bind
    (fun asked => if 0 < rule.requests then some (asked.requests / rule.requests) else none)
  (base.rateRules.filterMap factor).max?

/-- The grant of a community-approved request, which may be none; a request that cannot be
carried out raises. -/
def grantFor (row : QuotaRequest) (ends : ℕ) (tables : Tables) : Option (Option ℕ × Tables) :=
  let aim := target row
  let draft : GrantDraft :=
    { userId := some row.userId, pool := aim.pool, modelId := aim.modelId, scope := none, kind := .extra, amount := 0,
      startsAt := around.later, endsAt := some ends }
  let create := fun draft => (createGrant around draft tables).map (fun created => (some created.1, created.2))
  let base := baseFor around row.userId row
  match row.kind with
  | .effort =>
    if row.effortLevel = none \/ (row.modelId = none /\ row.effortAllModels = false) \/ around.fails then none
    else some (none, tables)
  | .temporary =>
    if row.grantUnlimited \/ base.windowEnabled = false then none
    else create { draft with scope := some (.period .window), amount := row.newTokens.getD 0 }
  | .window =>
    if base.windowEnabled = false then none
    else if 0 < increase around row then
      create { draft with scope := some (.period .window), amount := increase around row }
    else some (none, tables)
  | .weekly =>
    if base.weeklyEnabled = false then none
    else if 0 < increase around row then
      create { draft with scope := some (.period .weekly), amount := increase around row }
    else some (none, tables)
  | .rate =>
    match rateFactor base row with
    | none => none
    | some factor =>
      if base.rateEnabled = false then none
      else if 101 / 100 <= min multiplierMax factor then
        create { draft with
          scope := some .rate, kind := .multiplier, amount := roundHundredths (min multiplierMax factor) }
      else some (none, tables)

def boostEnds (row : QuotaRequest) : ℕ :=
  around.later +
    max 1 (if row.kind = .temporary then row.grantHours.getD 0 else around.options.boostHours) * hour

end

def approvedRow (grantId ends : Option ℕ) (row : QuotaRequest) : QuotaRequest :=
  { row with status := .approved, source := .community, grantId := grantId.or row.grantId, boostEndsAt := ends }

def startPledges (requestId starts ends : ℕ) (votes : List Vote) : List Vote :=
  updateWhere (fun vote => decide (vote.requestId = requestId) && decide (vote.stance = .support) &&
    decide (0 < vote.tokens) && vote.releasedAt.isNone)
    (fun vote => { vote with startsAt := some starts, endsAt := some ends }) votes

def release (requestId now : ℕ) (votes : List Vote) : List Vote :=
  updateWhere (fun vote => decide (vote.requestId = requestId) && vote.releasedAt.isNone && vote.startsAt.isNone)
    (fun vote => { vote with releasedAt := some now }) votes

section

variable (around : Surroundings) (row : QuotaRequest) (tables : Tables)

def apply : Option Tables :=
  let ends := boostEnds around row
  let lasting := decide (row.kind = .effort)
  match grantFor around row ends tables with
  | none => none
  | some (grantId, granted) =>
    let started := if lasting then granted.votes else startPledges row.id around.later ends granted.votes
    some { granted.carry row.id with
      requests := updateWhere (·.id = row.id)
        (approvedRow grantId (if lasting then none else some ends)) granted.requests,
      votes := release row.id around.later started }

/-- `_settle`: approve a request whose consent is good enough.  The savepoint leaves
nothing of an application that raises. -/
def settle : Tables × Status :=
  if (decide (row.status ≠ .pending) || !votingOpen around.options around.later row) then
    (tables, row.status)
  else if (unlimited row || !(consent around row tables.votes).reached) then (tables, .pending)
  else match apply around row tables with
    | none => (tables, .pending)
    | some applied => (applied, .approved)

end

def requestRow (requestId : ℕ) (tables : Tables) : Option QuotaRequest := tables.requests.find? (·.id = requestId)

def castVote (user : Person) (row : QuotaRequest) (stance : Stance) (tokens : ℕ) (votes : List Vote) : List Vote :=
  let mine := fun vote : Vote => decide (vote.requestId = row.id) && decide (vote.userId = user.id)
  let period := if tokens = 0 then none else scope row
  if votes.any mine then
    updateWhere mine (fun vote => { vote with
      stance, tokens, pool := (target row).pool, modelId := (target row).modelId, scope := period, releasedAt := none }) votes
  else votes ++ [{ requestId := row.id, userId := user.id, stance, tokens, pool := (target row).pool,
                   modelId := (target row).modelId, scope := period, startsAt := none, endsAt := none, releasedAt := none }]

def renouncedTokens (row : QuotaRequest) (stance : Stance) (tokens : ℕ) : ℕ :=
  if stance = .object \/ scope row = none then 0 else tokens

section

variable (around : Surroundings)

def vote (user : Person) (requestId : ℕ) (stance : Stance) (tokens : ℕ) (tables : Tables) :
  Except VoteError (Tables × Status) :=
  match requestRow requestId tables with
  | none => .error .voteMissing
  | some row =>
    match eligible around user row with
    | some problem => .error problem
    | none =>
      let given := renouncedTokens row stance tokens
      let room := pledgeRoom around user row tables.votes
      if 0 < given /\ room < given then .error (.voteTooMany room)
      else .ok (settle around row { tables with votes := castVote user row stance given tables.votes })

def withdraw (userId requestId : ℕ) (tables : Tables) : Tables :=
  match requestRow requestId tables with
  | none => tables
  | some row =>
    if votingOpen around.options around.now row then
      let mine := fun vote : Vote => decide (vote.requestId = requestId) && decide (vote.userId = userId)
      { tables with votes := deleteWhere mine tables.votes }
    else tables

def cancelRequest (requestId userId now : ℕ) (tables : Tables) : Tables :=
  let mine := fun row : QuotaRequest =>
    decide (row.id = requestId) && decide (row.userId = userId) && decide (row.status = .pending)
  if affected mine tables.requests = 1 then
    { tables with
      requests := updateWhere mine (fun row => { row with status := .cancelled }) tables.requests,
      votes := release requestId now tables.votes }
  else tables

/-- `_apply` and `_apply_model`: a custom limit, an unlocked level or a grant, which is the
request's. -/
def applyExactly (row : QuotaRequest) (tables : Tables) : Option Tables :=
  let base := baseFor around row.userId row
  if row.kind ≠ .effort /\ (row.modelId.map around.modelExists) = some false then none
  else match row.kind with
    | .effort =>
      if row.effortLevel = none \/ (row.modelId = none /\ row.effortAllModels = false) \/ around.fails then none
      else some (tables.carry row.id)
    | .window => if base.windowEnabled = false \/ around.fails then none else some (tables.carry row.id)
    | .weekly => if base.weeklyEnabled = false \/ around.fails then none else some (tables.carry row.id)
    | .rate => if base.rateEnabled = false \/ around.fails then none else some (tables.carry row.id)
    | .temporary =>
      if row.grantUnlimited = false /\ base.windowEnabled = false then none
      else
        let draft : GrantDraft :=
          { userId := some row.userId, pool := (target row).pool, modelId := (target row).modelId,
            scope := if row.grantUnlimited then none else some (.period .window),
            kind := if row.grantUnlimited then .unlimited else .extra,
            amount := if row.grantUnlimited then 0 else row.newTokens.getD 0,
            startsAt := around.later, endsAt := some (around.later + row.grantHours.getD 0 * hour) }
        (createGrant around draft tables).map (fun created => { created.2.carry row.id with
          requests := updateWhere (·.id = row.id)
            (fun other => { other with grantId := some created.1 }) created.2.requests })

/-- `resolve_request`: an administrator's decision.  What raises leaves no trace. -/
def resolveRequest (requestId : ℕ) (approved : Bool) (tables : Tables) : Tables :=
  match requestRow requestId tables with
  | none => tables
  | some row =>
    if row.status = .pending then
      match if approved then applyExactly around row tables else some tables with
      | none => tables
      | some applied => { applied with
          requests := updateWhere (·.id = requestId)
            (fun other => { other with status := if approved then .approved else .denied }) applied.requests,
          votes := release requestId around.later applied.votes }
    else tables

/-- One turn of `close_expired`, in a transaction of its own. -/
def closeExpired (requestId : ℕ) (tables : Tables) : Tables :=
  match requestRow requestId tables with
  | none => tables
  | some row =>
    if row.status ≠ .pending \/ row.community = false \/ row.communityClosedAt.isSome then tables
    else if (row.communityUntil.any (· <= around.now)) then
      { tables with
        requests := updateWhere (·.id = requestId)
          (fun other => { other with communityClosedAt := some around.now }) tables.requests,
        votes := release requestId around.now tables.votes }
    else (settle around row tables).1

structure Wish where
  userId : ℕ
  kind : Kind
  pool : Pool
  modelId : Option ℕ
  tokens : ℕ
  weekly : ℕ
  per : String
  requests : ℕ
  hours : ℕ
  unlimited : Bool
  level : Option String
  community : Bool
  reasonLength : ℕ

inductive RequestError
  | quotaFailed
  | quotaReasonLength
  | quotaAlreadyPending
  | quotaNotLimited
  | quotaRange
  | quotaMustRaise
  | quotaRateRange
  | quotaEffort
  | quotaHoursRange
  | quotaTemporaryNoWindow

/-- The checks of `submit_request` for each kind.  Whether a reasoning effort may be
asked for is up to the model and the account. -/
def checkWish (base : Base) (wish : Wish) : Option RequestError :=
  match wish.kind with
  | .window =>
    if base.windowEnabled = false then some .quotaNotLimited
    else if wish.tokens < 1 \/ 2000000000 < wish.tokens then some .quotaRange
    else if (wish.tokens : ℚ) <= base.windowTokens then some .quotaMustRaise else none
  | .weekly =>
    if base.weeklyEnabled = false then some .quotaNotLimited
    else if wish.weekly < 1 \/ 700000000 < wish.weekly then some .quotaRange
    else if (wish.weekly : ℚ) <= base.weeklyTokens then some .quotaMustRaise else none
  | .rate =>
    if base.rateEnabled = false then some .quotaNotLimited
    else match base.rateRules.find? (·.per = wish.per) with
      | none => some .quotaRateRange
      | some current => if (wish.requests : ℚ) <= current.requests then some .quotaMustRaise else none
  | .effort => if around.fails = true \/ wish.level = none then some .quotaEffort else none
  | .temporary =>
    if wish.hours < 1 \/ 720 < wish.hours then some .quotaHoursRange
    else if wish.unlimited = false /\ base.windowEnabled = false then some .quotaTemporaryNoWindow
    else if wish.unlimited = false /\ (wish.tokens < 1 \/ 2000000000 < wish.tokens) then some .quotaRange else none

def automatic (wish : Wish) : Bool :=
  around.autoEnabled && wish.modelId.isNone && (match wish.kind with
      | .window => decide (wish.tokens <= around.autoTokens)
      | .weekly => decide (0 < around.autoWeeklyTokens) && decide (wish.weekly <= around.autoWeeklyTokens)
      | _ => false)

def offered (options : Options) (kind : Kind) (isUnlimited : Bool) : Bool :=
  options.enabled && decide (kind ∈ options.kinds) && !isUnlimited

def submittedRow (wish : Wish) (id : ℕ) : QuotaRequest :=
  let isAutomatic := automatic around wish
  let isUnlimited := decide (wish.kind = .temporary) && wish.unlimited
  let toCommunity := wish.community && !isAutomatic && offered around.options wish.kind isUnlimited
  { id, userId := wish.userId, kind := wish.kind, pool := some (if wish.kind = .effort then .chat else wish.pool),
    modelId := wish.modelId,
    newTokens := if wish.kind = .window then some wish.tokens
      else if wish.kind = .temporary then some (if wish.unlimited then 0 else wish.tokens) else none,
    newWeeklyTokens := if wish.kind = .weekly then some wish.weekly else none,
    newRules := if wish.kind = .rate then [{ per := wish.per, requests := wish.requests }] else [],
    grantHours := if wish.kind = .temporary then some wish.hours else none,
    grantUnlimited := isUnlimited,
    effortLevel := if wish.kind = .effort then wish.level else none,
    effortAllModels := decide (wish.kind = .effort) && wish.modelId.isNone,
    status := if isAutomatic then .approved else .pending,
    source := if isAutomatic then .automatic else .manual,
    community := toCommunity,
    communityUntil := if toCommunity then some (around.now + around.options.hours * hour) else none,
    communityClosedAt := none, grantId := none, boostEndsAt := none }

def submitRequest (wish : Wish) (tables : Tables) : Except RequestError Tables :=
  let row := submittedRow around wish tables.nextRequest
  if wish.reasonLength < 5 \/ 1000 < wish.reasonLength then .error .quotaReasonLength
  else if wish.kind ≠ .effort /\ (wish.modelId.map around.modelExists) = some false then .error .quotaFailed
  else if tables.requests.any (fun other => decide (other.userId = wish.userId) && decide (other.status = .pending)) then
    .error .quotaAlreadyPending
  else match checkWish around (baseFor around wish.userId row) wish with
    | some problem => .error problem
    | none =>
      let inserted := { tables with requests := tables.requests ++ [row], nextRequest := tables.nextRequest + 1 }
      if automatic around wish then
        match applyExactly around row inserted with
        | none => .error .quotaFailed
        | some applied => .ok applied
      else .ok inserted

end

inductive Action
  | submit (around : Surroundings) (wish : Wish)
  | vote (around : Surroundings) (user : Person) (requestId : ℕ) (stance : Stance) (tokens : ℕ)
  | withdraw (around : Surroundings) (userId requestId : ℕ)
  | cancel (around : Surroundings) (requestId userId : ℕ)
  | resolve (around : Surroundings) (requestId : ℕ) (approved : Bool)
  | close (around : Surroundings) (requestId : ℕ)
  | grant (around : Surroundings) (draft : GrantDraft)
  | revoke (around : Surroundings) (grantId : ℕ)

namespace Action

def around : Action -> Surroundings
  | .submit around _ => around
  | .vote around _ _ _ _ => around
  | .withdraw around _ _ => around
  | .cancel around _ _ => around
  | .resolve around _ _ => around
  | .close around _ => around
  | .grant around _ => around
  | .revoke around _ => around

end Action

def perform (tables : Tables) : Action -> Tables
  | .submit around wish =>
    match submitRequest around wish tables with
    | .ok after => after
    | .error _ => tables
  | .vote around user requestId stance tokens =>
    match vote around user requestId stance tokens tables with
    | .ok after => after.1
    | .error _ => tables
  | .withdraw around userId requestId => withdraw around userId requestId tables
  | .cancel around requestId userId => cancelRequest requestId userId around.now tables
  | .resolve around requestId approved => resolveRequest around requestId approved tables
  | .close around requestId => closeExpired around requestId tables
  | .grant around draft =>
    match createGrant around draft tables with
    | some created => created.2
    | none => tables
  | .revoke around grantId => revokeGrant grantId around.now tables

structure Board where
  tables : Tables
  clock : ℕ

/-- Any order of operations by anyone, with a clock that does not go back; `permits` is what
is assumed of each step. -/
def board (permits : Board -> Action -> Prop) : Machine Board Action where
  initial := fun state => state.tables.requests = [] /\ state.tables.votes = [] /\ state.tables.grants = [] /\
    state.tables.carriedOut = []
  enabled := fun state action => state.clock <= action.around.now /\
    action.around.now <= action.around.later /\ permits state action
  next := fun state action => { tables := perform state.tables action, clock := action.around.later }

end BananaChat.Community

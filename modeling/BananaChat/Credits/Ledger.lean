import BananaChat.Foundation.Rows
import BananaChat.Limits.Windows

namespace BananaChat.Credits

open Limits List Option

/-!
# The usage ledger

`charge` records one request: a ledger row with the raw tokens and the tokens counted against the
pool, and the account's windows when none is open.
-/

/-- `REQUEST_TYPES`. -/
inductive RequestType
  | api
  | playground
  | chat
  | chatIncognito
  | agent
deriving DecidableEq

/-- `pool_of`, over `POOL_TYPES`. -/
def poolOf : RequestType -> Pool
  | .api => .api
  | .playground => .api
  | .chat => .chat
  | .chatIncognito => .chat
  | .agent => .agent

/-- The provider column of a model, as far as `is_local` tells values apart. -/
inductive Provider
  | unset
  | ollama
  | comfyui
  | localServer
  | external (id : Option ℕ)
  | hosted
deriving DecidableEq

/-- A model's policy: its weight in hundredths and whether it counts toward the
pool, when that was chosen. -/
structure ModelPolicy where
  hundredths : ℕ
  countsTowardPool : Option Bool
deriving DecidableEq

def ModelPolicy.weight (policy : ModelPolicy) : ℚ := policy.hundredths / 100

structure AiModel where
  id : ℕ
  provider : Provider
  policy : ModelPolicy
deriving DecidableEq

structure User where
  id : ℕ
  admin : Bool

structure Site where
  users : List User
  apiTokens : List ℕ
  models : List AiModel
  localProviderIds : List ℕ
  chatLocalTokenConsumption : Option Bool
  chatCloudTokenConsumption : Option Bool

namespace Site

def user (site : Site) (id : ℕ) : Option User := site.users.find? (·.id = id)

def model (site : Site) (id : ℕ) : Option AiModel := site.models.find? (·.id = id)

/-- `_existing_model`: the model, or none when its row is gone. -/
def existingModel (site : Site) (modelId : Option ℕ) : Option ℕ := (modelId.bind site.model).map AiModel.id

/-- `is_local`: whether the site's own backends serve a model. -/
def isLocal (site : Site) (model : AiModel) : Bool :=
  match model.provider with
  | .unset | .ollama | .comfyui | .localServer => true
  | .external (some id) => id ∈ site.localProviderIds
  | .external none => false
  | .hosted => false

/-- `counts_toward_pool`: the policy's choice, else yes for local models. -/
def countsTowardPool (site : Site) (model : AiModel) : Bool :=
  match model.policy.countsTowardPool with
  | some choice => choice
  | none => site.isLocal model

/-- `consumes_token_limits`: only chat with a known model may be unmetered. -/
def consumesTokenLimits (site : Site) (model : Option AiModel) (pool : Pool) : Bool :=
  match pool, model with
  | .chat, some known =>
    let isLocal := site.isLocal known
    match if isLocal then site.chatLocalTokenConsumption else site.chatCloudTokenConsumption with
    | none => !isLocal
    | some choice => choice
  | _, _ => true

/-- `charge_terms`: the weight and whether the model counts; a missing model
counts once. -/
def chargeTerms (site : Site) (modelId : Option ℕ) : ℚ × Bool :=
  match modelId.bind site.model with
  | none => (1, true)
  | some model => (model.policy.weight, site.countsTowardPool model)

end Site

/-- A row of `credit_ledger`.  The table has no column `origin`: it names the
run or lease whose end wrote the row, for statements about rows of one run. -/
structure LedgerRow where
  userId : ℕ
  tokenId : Option ℕ
  modelId : Option ℕ
  creditsUsed : ℚ
  tokensIn : ℕ
  tokensOut : ℕ
  requestType : RequestType
  createdAt : ℤ
  usageEstimated : Bool
  consumesLimits : Bool
  origin : Option ℕ
deriving DecidableEq

structure Books where
  ledger : List LedgerRow
  windows : List LimitWindow

def tokensPerCredit : ℚ := 1000

def tokensToCredits (tokens : ℚ) : ℚ := tokens / tokensPerCredit

/-- The arguments of `charge`. -/
structure ChargeRequest where
  userId : ℕ
  tokensIn : ℤ
  tokensOut : ℤ
  requestType : RequestType
  modelId : Option ℕ
  tokenId : Option ℕ
  usageEstimated : Bool
  origin : Option ℕ

section

variable (request : ChargeRequest) (site : Site)

def ChargeRequest.consumesLimits : Bool :=
  site.consumesTokenLimits (request.modelId.bind site.model) (poolOf request.requestType)

def ChargeRequest.counted : Bool :=
  (site.chargeTerms (site.existingModel request.modelId)).2 && request.consumesLimits site

def ChargeRequest.countedTokens : ℚ :=
  if request.counted site then
    (request.tokensIn.toNat + request.tokensOut.toNat : ℕ) * (site.chargeTerms (site.existingModel request.modelId)).1
  else 0

def ChargeRequest.row (stamp : ℤ) : LedgerRow where
  userId := request.userId
  tokenId := request.tokenId
  modelId := site.existingModel request.modelId
  creditsUsed := tokensToCredits (request.countedTokens site)
  tokensIn := request.tokensIn.toNat
  tokensOut := request.tokensOut.toNat
  requestType := request.requestType
  createdAt := stamp
  usageEstimated := request.usageEstimated
  consumesLimits := request.consumesLimits site
  origin := request.origin

/-- The scopes whose windows a charge opens: `_open_windows`. -/
def ChargeRequest.scopes : List Scope :=
  if request.consumesLimits site then
    (if request.counted site then [.pool (poolOf request.requestType)] else []) ++
      ((site.existingModel request.modelId).map Scope.model).toList
  else []

end

/-- `charge`: the tables after it, and the tokens counted against the pool. -/
def charge (site : Site) (now : ℚ) (request : ChargeRequest) (books : Books) : Books × ℚ :=
  match site.user request.userId with
  | none => (books, 0)
  | some _ =>
    let stamp := ⌊now⌋
    ({ ledger := books.ledger ++ [request.row site stamp]
       windows := openWindows books.windows request.userId (request.scopes site) stamp },
      request.countedTokens site)

variable {site : Site} {request : ChargeRequest}

theorem charge_of_user (known : (site.user request.userId).isSome) (now : ℚ) (books : Books) :
  (charge site now request books).1 =
    { ledger := books.ledger ++ [request.row site ⌊now⌋]
      windows := openWindows books.windows request.userId (request.scopes site) ⌊now⌋ } := by
  rcases isSome_iff_exists.mp known with ⟨_, found⟩
  simp [charge, found]

theorem charge_of_no_user (unknown : site.user request.userId = none) (now : ℚ) (books : Books) :
  (charge site now request books).1 = books := by
  simp [charge, unknown]

theorem scopes_nodup (site : Site) (request : ChargeRequest) : (request.scopes site).Nodup := by
  unfold ChargeRequest.scopes
  cases site.existingModel request.modelId with
  | none =>
    split
    · split <;> simp
    · exact nodup_nil
  | some model =>
    split
    · split <;> simp
    · exact nodup_nil

theorem pool_mem_scopes_iff (site : Site) (request : ChargeRequest) (pool : Pool) :
  Scope.pool pool ∈ request.scopes site ↔ request.counted site /\ poolOf request.requestType = pool := by
  have counts : request.counted site -> request.consumesLimits site := by
    intro counted
    exact (Bool.and_eq_true_iff.mp counted).2
  have noModel : ¬ Scope.pool pool ∈ ((site.existingModel request.modelId).map Scope.model).toList := by
    cases site.existingModel request.modelId <;> simp
  unfold ChargeRequest.scopes
  by_cases counted : request.counted site
  · rw [if_pos (counts counted), if_pos counted, mem_append, mem_singleton, Scope.pool.injEq]
    constructor
    · rintro (same | inModel)
      · exact ⟨counted, same.symm⟩
      · exact absurd inModel noModel
    · rintro ⟨_, same⟩
      exact .inl same.symm
  · constructor
    · intro mem
      split at mem
      · exact absurd mem noModel
      · cases mem
    · rintro ⟨isCounted, _⟩
      exact absurd isCounted counted

theorem countedTokens_of_not_counted (free : ¬ request.counted site) :
    request.countedTokens site = 0 := if_neg free

theorem countedTokens_hundredths (site : Site) (request : ChargeRequest) :
  ∃ hundredths : ℕ, request.countedTokens site = hundredths / 100 := by
  unfold ChargeRequest.countedTokens
  by_cases counted : request.counted site
  · rw [if_pos counted]
    unfold Site.chargeTerms
    cases (site.existingModel request.modelId).bind site.model with
    | none =>
      refine ⟨(request.tokensIn.toNat + request.tokensOut.toNat) * 100, ?_⟩
      push_cast
      ring
    | some model =>
      refine ⟨(request.tokensIn.toNat + request.tokensOut.toNat) * model.policy.hundredths, ?_⟩
      unfold ModelPolicy.weight
      push_cast
      ring
  · rw [if_neg counted]
    exact ⟨0, by simp⟩

end BananaChat.Credits

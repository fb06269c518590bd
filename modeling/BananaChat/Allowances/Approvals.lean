import BananaChat.Allowances.Amounts

namespace BananaChat.Allowances

open Limits Option List

/-!
# Approved requests

An approved quota request becomes a custom limit of an account, or a grant.
-/

/-- The amount of a new grant, with what `validate_grant` promises of it. -/
def grantAmount (scope : Option GrantScope) (kind : GrantKind) (amount : ℚ) :
  Option {checked : ℚ // (kind = .multiplier -> 101 / 100 <= checked /\ checked <= multiplierMax) /\
    (kind = .extra -> 1 <= checked)} :=
  match kind with
  | .unlimited => some ⟨0, nofun, nofun⟩
  | .multiplier =>
    if range : 101 / 100 <= amount /\ amount <= multiplierMax then some ⟨amount, fun _ => range, nofun⟩ else none
  | .extra =>
    if scope = some .window \/ scope = some .weekly then
      if range : 1 <= amount /\ amount <= tokensMax /\ amount = ⌊amount⌋ then some ⟨amount, nofun, fun _ => range.1⟩ else none
    else none

namespace Site

variable (site : Site)

/-- `create_grant`, with `validate_grant`: the row it inserts. -/
def createGrant (userId : Option ℕ) (pool : Option Pool) (modelId : Option ℕ) (scope : Option GrantScope) (kind : GrantKind)
  (amount : ℚ) (startsAt : ℤ) (endsAt : Option ℤ) : Option GrantRow :=
  if modelId.isSome && pool.isSome then none
  else if modelId.any (fun id => (site.catalog.model id).isNone) then none
  else
    (grantAmount scope kind amount).bind fun checked =>
      if endsAt.any (· <= startsAt) then none
      else
        some
          { id := site.nextGrantId
            userId := userId
            pool := pool
            modelId := modelId
            scope := scope
            kind := kind
            amount := checked.val
            multiplies := checked.property.1
            startsAt := startsAt
            endsAt := endsAt
            revoked := false
            adds := checked.property.2 }

def withGrant (grant : GrantRow) : Site := { site with grants := site.grants ++ [grant], nextGrantId := site.nextGrantId + 1 }

end Site

/-- `REQUEST_KINDS` but for reasoning effort: more tokens of a period, a higher rate, a grant. -/
inductive RequestKind
  | period (period : Period)
  | rate
  | temporary

/-- A row of `quota_requests`, as far as `_apply` reads it. -/
structure QuotaRow where
  userId : ℕ
  kind : RequestKind
  pool : Option Pool
  modelId : Option ℕ
  newTokens : Option ℕ
  newCredits : Option ℕ
  newWeeklyTokens : Option ℕ
  newWeeklyCredits : Option ℕ
  newRateRules : List (Per × ℕ)
  grantHours : Option ℕ
  grantUnlimited : Bool
  /-- Whether `resolution_source` is `automatic`. -/
  automatic : Bool

/-- `_ceil`. -/
def ceilAmount (amount : ℚ) : ℤ := ⌈amount - 1 / 1000000000⌉

namespace QuotaRow

variable (row : QuotaRow)

def service : Pool := row.pool.getD .api

def orCredits (tokens credits : Option ℕ) : ℕ := tokens.getD (credits.getD 0 * 1000)

def poolAmount : Period -> ℕ
  | .window => orCredits row.newTokens row.newCredits
  | .weekly => orCredits row.newWeeklyTokens row.newWeeklyCredits

def modelAmount : Period -> ℕ
  | .window => row.newTokens.getD 0
  | .weekly => row.newWeeklyTokens.getD 0

def requestRules : List (Per × ℕ) := row.newRateRules.filter (·.2 ≠ 0)

/-- `asked`: of two rules of one unit the later one counts. -/
def asked (per : Per) : ℕ :=
  match row.requestRules.reverse.find? (·.1 = per) with
  | some rule => rule.2
  | none => 0

end QuotaRow

def raisedRule (asked : Per -> ℕ) (rule : RuleBase) : RuleBase :=
  let wanted := asked rule.per
  if rule.requests < wanted then
    { requests := wanted
      per := rule.per
      burst := min burstMax (max rule.burst ⌈((rule.burst * wanted : ℕ) : ℚ) / rule.requests⌉₊) }
  else rule

def tokenValues (period : Period) (amount : ℤ) : Values :=
  match period with
  | .window => ⟨none, some (some amount), none⟩
  | .weekly => ⟨none, none, some (some amount)⟩

def ruleValues (rules : List RuleBase) : Values := ⟨some (some (rules.map written)), none, none⟩

def Values.ofModel (values : Values) : ModelValues :=
  ⟨values.rateRules, values.windowTokens, values.weeklyTokens, none, none, none⟩

namespace Site

variable (site : Site) (now : ℚ)

def requestGrant (row : QuotaRow) (pool : Option Pool) (modelId : Option ℕ) (tokens hours : ℕ) : Option GrantRow :=
  if row.grantUnlimited then
    site.createGrant (some row.userId) pool modelId none .unlimited 0 ⌊now⌋ (some (⌊now⌋ + hours * 3600))
  else
    site.createGrant (some row.userId) pool modelId (some .window) .extra tokens ⌊now⌋ (some (⌊now⌋ + hours * 3600))

def applyModel (row : QuotaRow) (modelId : ℕ) : Option Site :=
  (site.catalog.model modelId).bind fun model =>
    let base := site.modelBase row.userId model.id
    match row.kind with
    | .period period =>
      if base.enabled period then
        site.setModelOverride row.userId model.id
          (tokenValues period (ceilAmount (max (base.tokens period) (row.modelAmount period)))).ofModel
      else none
    | .rate =>
      if base.rateEnabled then
        site.setModelOverride row.userId model.id (ruleValues (base.rateRules.map (raisedRule row.asked))).ofModel
      else none
    | .temporary =>
      if row.grantUnlimited || base.windowEnabled then
        row.grantHours.bind fun hours =>
          (if row.grantUnlimited then some 0 else row.newTokens).bind fun tokens =>
            (site.requestGrant now row none (some model.id) tokens hours).map site.withGrant
      else none

def apply (row : QuotaRow) : Option Site :=
  match row.modelId with
  | some modelId => site.applyModel now row modelId
  | none =>
    let base := site.baseLimits row.userId row.service
    match row.kind with
    | .period period =>
      if base.enabled period then
        site.setOverride row.userId row.service row.automatic
          (tokenValues period (ceilAmount (max (base.tokens period) (row.poolAmount period))))
      else none
    | .rate =>
      if base.rateEnabled then
        site.setOverride row.userId row.service false (ruleValues (base.rateRules.map (raisedRule row.asked)))
      else none
    | .temporary =>
      if row.grantUnlimited || base.windowEnabled then
        row.grantHours.bind fun hours =>
          (site.requestGrant now row (some row.service) none (row.poolAmount .window) hours).map site.withGrant
      else none

end Site

theorem ceilAmount_natCast (amount : ℕ) : ceilAmount (amount : ℚ) = amount := by
  have inside : ⌈(amount : ℚ) - 1 / 1000000000⌉ = (amount : ℤ) := by
    rw [Int.ceil_eq_iff]
    push_cast
    constructor <;> linarith
  exact inside

theorem below_raisedRule (asked : Per -> ℕ) {rule : RuleBase} (bounded : Bounded rule) :
  BaseBelow rule (raisedRule asked rule) := by
  unfold raisedRule
  dsimp only
  split
  · rename_i more
    exact ⟨rfl, more.le, le_min bounded.2.2 (le_max_left _ _)⟩
  · exact BaseBelow.refl rule

theorem raisedRule_per (asked : Per -> ℕ) (rule : RuleBase) : (raisedRule asked rule).per = rule.per := by
  unfold raisedRule
  dsimp only
  split
  · rfl
  · rfl

variable {rules : List RuleBase} {amount : ℤ} {after : Site} {userId : ℕ}

theorem validateRules_written_eq {clean : List RuleBase}
  (ordered : rules.Pairwise fun first second => first.per.seconds < second.per.seconds)
  (checked : validateRules (rules.map written) = some clean) : clean = rules := by
  have number : ∀ {maximum amount read : ℕ}, wholeNumber maximum (amount : ℚ) = some read -> read = amount := by
    intro _ _ read settled
    unfold wholeNumber at settled
    split at settled
    · cases settled
      rw [Int.floor_natCast, Int.toNat_natCast]
    · cases settled
  have single : ∀ {rule read : RuleBase}, validateRule (written rule) = some read -> read = rule := by
    intro _ read settled
    rcases bind_eq_some_iff.mp settled with ⟨_, samePer, rest⟩
    rcases bind_eq_some_iff.mp rest with ⟨_, readRequests, burst⟩
    rcases map_eq_some_iff.mp burst with ⟨_, readBurst, rfl⟩
    cases samePer
    rw [number readRequests, number readBurst]
  have every : ∀ {items read : List RuleBase}, (items.map written).mapM validateRule = some read -> read = items := by
    intro items
    induction items with
    | nil =>
      intro read settled
      cases settled
      rfl
    | cons head rest ih =>
      intro read settled
      rw [map_cons, mapM_cons] at settled
      rcases bind_eq_some_iff.mp settled with ⟨first, readFirst, others⟩
      rcases bind_eq_some_iff.mp others with ⟨_, readMore, joined⟩
      cases joined
      rw [single readFirst, ih readMore]
  unfold validateRules at checked
  split at checked
  · cases checked
  · rename_i read settled
    split at checked
    · cases checked
      rw [every settled]
      exact mergeSort_of_pairwise (ordered.imp fun {first second} before => decide_eq_true before.le)
    · cases checked

theorem checkRules_raised (ruleset : Ruleset rules) (nonempty : rules ≠ []) {asked : Per -> ℕ}
  {clean : Option (Option CustomRules)}
  (checked : checkRules (some (some ((rules.map (raisedRule asked)).map written))) = some clean) :
  ∃ custom : CustomRules, clean = some (some custom) /\ custom.rules = rules.map (raisedRule asked) := by
  have ordered : (rules.map (raisedRule asked)).Pairwise (fun first second => first.per.seconds < second.per.seconds) := by
    refine pairwise_map.mpr (ruleset.ordered.imp fun {first second} before => ?_)
    rw [raisedRule_per, raisedRule_per]
    exact before
  unfold checkRules at checked
  dsimp only at checked
  split at checked
  · cases checked
  · rename_i read settled
    have same := validateRules_written_eq ordered settled
    split at checked
    · rename_i empty
      exact absurd (map_eq_nil_iff.mp (same.symm.trans empty)) nonempty
    · cases checked
      exact ⟨_, rfl, same⟩

structure TokensStored (before after : Override) (period : Period) (automatic : Bool) (amount : ℕ) : Prop where
  tokens : after.tokens period = some amount
  rules : after.rateRules = before.rateRules
  others : ∀ other, other ≠ period -> after.tokens other = before.tokens other
  marks : after.automatic = keepFloor automatic period.field (some (some amount)) (before.tokens period) before.automatic

structure RateStored (before after : Override) (rules : List RuleBase) : Prop where
  rate : after.rules = some rules
  tokens : ∀ period, after.tokens period = before.tokens period
  marks : ∀ period : Period, period.field ∈ after.automatic ↔ period.field ∈ before.automatic

theorem wholeAmount_intCast {maximum read : ℕ} (checked : wholeAmount maximum (amount : ℚ) = some read) :
  amount = read := by
  have same := (wholeAmount_eq_some checked).1
  exact_mod_cast same

theorem isEmpty_of_tokens {override : Override} {period : Period} {amount : ℕ} (own : override.tokens period = some amount) :
  override.isEmpty = false := by
  refine Bool.of_not_eq_true fun empty => ?_
  rcases Override.values_of_isEmpty empty with ⟨_, noWindow, noWeekly⟩
  cases period with
  | window => exact nomatch own.symm.trans noWindow
  | weekly => exact nomatch own.symm.trans noWeekly

variable {pool : Pool} {period : Period}

theorem setOverride_tokens {site : Site} {automatic : Bool}
  (stored : site.setOverride userId pool automatic (tokenValues period amount) = some after) :
  ∃ whole : ℕ, ∃ row : Option Override, amount = whole /\ after = site.withOverride userId pool row /\
    TokensStored (site.override userId pool) (row.getD .unset) period automatic whole := by
  rcases map_eq_some_iff.mp stored with ⟨clean, checked, rfl⟩
  have held := storedOverride_values (site.overrides userId pool) automatic clean
  cases period with
  | window =>
    have parts : (wholeAmount overrideWindowMax (amount : ℚ)).map (fun value => (⟨none, some (some value), none⟩ : CleanValues)) =
        some clean := by
      rw [<- checked]
      simp only [validateOverride, tokenValues, checkRules, checkField, bind_some, map_some]
      cases wholeAmount overrideWindowMax (amount : ℚ) <;> rfl
    rcases map_eq_some_iff.mp parts with ⟨whole, read, rfl⟩
    refine ⟨whole, _, wholeAmount_intCast read, rfl, held.2.1, held.1, fun other apart => ?_, ?_⟩
    · cases other with
      | window => exact absurd rfl apart
      | weekly => exact held.2.2
    · exact storedOverride_automatic (@isEmpty_of_tokens _ .window _ rfl) (.inl rfl)
  | weekly =>
    have parts : (wholeAmount tokensMax (amount : ℚ)).map (fun value => (⟨none, none, some (some value)⟩ : CleanValues)) =
        some clean := by
      rw [<- checked]
      simp only [validateOverride, tokenValues, checkRules, checkField, bind_some]
      cases wholeAmount tokensMax (amount : ℚ) <;> rfl
    rcases map_eq_some_iff.mp parts with ⟨whole, read, rfl⟩
    refine ⟨whole, _, wholeAmount_intCast read, rfl, held.2.2, held.1, fun other apart => ?_, ?_⟩
    · cases other with
      | window => exact held.2.1
      | weekly => exact absurd rfl apart
    · exact storedOverride_automatic (@isEmpty_of_tokens _ .weekly _ rfl) (.inl rfl)

theorem setOverride_rules {site : Site} {asked : Per -> ℕ} (ruleset : Ruleset rules) (nonempty : rules ≠ [])
  (stored : site.setOverride userId pool false (ruleValues (rules.map (raisedRule asked))) = some after) :
  Ruleset (rules.map (raisedRule asked)) /\ ∃ row : Option Override, after = site.withOverride userId pool row /\
    RateStored (site.override userId pool) (row.getD .unset) (rules.map (raisedRule asked)) := by
  rcases map_eq_some_iff.mp stored with ⟨clean, checked, rfl⟩
  have held := storedOverride_values (site.overrides userId pool) false clean
  rcases bind_eq_some_iff.mp checked with ⟨_, settled, rest⟩
  rcases checkRules_raised ruleset nonempty settled with ⟨custom, rfl, same⟩
  cases rest
  refine ⟨same ▸ custom.ruleset, _, rfl, ?_, fun period => ?_, fun period => ?_⟩
  · exact congrArg some same
  · cases period with
    | window => exact held.2.1
    | weekly => exact held.2.2
  · rw [storedOverride_automatic rfl (.inl rfl)]
    have apart : period.field ≠ .rateRules := by cases period <;> decide
    unfold CleanValues.merged keepFloor
    dsimp only
    split
    · rw [Finset.mem_erase]
      exact ⟨fun both => both.2, fun mem => ⟨apart, mem⟩⟩
    · rfl

structure ModelTokensStored (before after : ModelOverride) (period : Period) (amount : ℕ) : Prop where
  tokens : after.tokens period = some amount
  others : ∀ other, other ≠ period -> after.tokens other = before.tokens other
  rules : after.rateRules = before.rateRules
  exempt : after.tokenExempt = before.tokenExempt /\ after.rateExempt = before.rateExempt

structure ModelRateStored (before after : ModelOverride) (rules : List RuleBase) : Prop where
  rate : after.rules = some rules
  tokens : ∀ period, after.tokens period = before.tokens period
  exempt : after.tokenExempt = before.tokenExempt /\ after.rateExempt = before.rateExempt

theorem ModelOverride.values_of_isEmpty {override : ModelOverride} (empty : override.isEmpty) : override = .unset := by
  rcases override with ⟨_, _, _, _, _, _⟩
  simp only [ModelOverride.isEmpty, Bool.not_eq_true', Bool.or_eq_false_iff, isSome_eq_false_iff,
    isNone_iff_eq_none] at empty
  rcases empty with ⟨⟨⟨⟨⟨rfl, rfl⟩, rfl⟩, rfl⟩, rfl⟩, rfl⟩
  rfl

theorem storedModelOverride_values (row : Option ModelOverride) (values : ModelValues) (clean : CleanValues) :
  (storedModelOverride row values clean).getD .unset =
    { rateRules := clean.rateRules.getD (row.getD .unset).rateRules
      windowTokens := clean.windowTokens.getD (row.getD .unset).windowTokens
      weeklyTokens := clean.weeklyTokens.getD (row.getD .unset).weeklyTokens
      locked := values.locked.getD (row.getD .unset).locked
      tokenExempt := values.tokenExempt.getD (row.getD .unset).tokenExempt
      rateExempt := values.rateExempt.getD (row.getD .unset).rateExempt } := by
  unfold storedModelOverride
  dsimp only
  split
  · rename_i empty
    exact (ModelOverride.values_of_isEmpty empty).symm
  · rfl

theorem setModelOverride_tokens {site : Site} {modelId : ℕ}
  (stored : site.setModelOverride userId modelId (tokenValues period amount).ofModel = some after) :
  ∃ whole : ℕ, ∃ row : Option ModelOverride, amount = whole /\ after = site.withModelOverride userId modelId row /\
    ModelTokensStored (site.modelOverride userId modelId) (row.getD .unset) period whole := by
  rcases bind_eq_some_iff.mp stored with ⟨clean, checked, known⟩
  rcases map_eq_some_iff.mp known with ⟨_, _, rfl⟩
  have held := storedModelOverride_values (site.modelOverrides userId modelId) (tokenValues period amount).ofModel clean
  cases period with
  | window =>
    have parts : (wholeAmount tokensMax (amount : ℚ)).map (fun value => (⟨none, some (some value), none⟩ : CleanValues)) =
        some clean := by
      rw [<- checked]
      simp only [validateModelOverride, tokenValues, Values.ofModel, checkRules, checkField, bind_some, map_some]
      cases wholeAmount tokensMax (amount : ℚ) <;> rfl
    rcases map_eq_some_iff.mp parts with ⟨whole, read, rfl⟩
    refine ⟨whole, _, wholeAmount_intCast read, rfl, ?_⟩
    rw [held]
    refine ⟨rfl, fun other apart => ?_, rfl, rfl, rfl⟩
    cases other with
    | window => exact absurd rfl apart
    | weekly => rfl
  | weekly =>
    have parts : (wholeAmount tokensMax (amount : ℚ)).map (fun value => (⟨none, none, some (some value)⟩ : CleanValues)) =
        some clean := by
      rw [<- checked]
      simp only [validateModelOverride, tokenValues, Values.ofModel, checkRules, checkField, bind_some]
      cases wholeAmount tokensMax (amount : ℚ) <;> rfl
    rcases map_eq_some_iff.mp parts with ⟨whole, read, rfl⟩
    refine ⟨whole, _, wholeAmount_intCast read, rfl, ?_⟩
    rw [held]
    refine ⟨rfl, fun other apart => ?_, rfl, rfl, rfl⟩
    cases other with
    | window => rfl
    | weekly => exact absurd rfl apart

theorem setModelOverride_rules {site : Site} {modelId : ℕ} {asked : Per -> ℕ} (ruleset : Ruleset rules)
  (nonempty : rules ≠ [])
  (stored : site.setModelOverride userId modelId (ruleValues (rules.map (raisedRule asked))).ofModel = some after) :
  Ruleset (rules.map (raisedRule asked)) /\ ∃ row : Option ModelOverride,
    after = site.withModelOverride userId modelId row /\
    ModelRateStored (site.modelOverride userId modelId) (row.getD .unset) (rules.map (raisedRule asked)) := by
  rcases bind_eq_some_iff.mp stored with ⟨clean, checked, known⟩
  rcases map_eq_some_iff.mp known with ⟨_, _, rfl⟩
  have held := storedModelOverride_values (site.modelOverrides userId modelId)
    (ruleValues (rules.map (raisedRule asked))).ofModel clean
  rcases bind_eq_some_iff.mp checked with ⟨_, settled, rest⟩
  rcases checkRules_raised ruleset nonempty settled with ⟨custom, rfl, same⟩
  cases rest
  refine ⟨same ▸ custom.ruleset, _, rfl, ?_⟩
  refine ⟨congrArg some same, fun period => ?_, rfl, rfl⟩
  cases period with
  | window | weekly => rfl

structure Granted (grant : GrantRow) (row : QuotaRow) (pool : Option Pool) (modelId : Option ℕ) (stamp : ℤ) : Prop where
  owner : grant.userId = some row.userId
  place : grant.pool = pool /\ grant.modelId = modelId
  active : grant.revoked = false /\ grant.startsAt <= stamp /\ ∀ ends, grant.endsAt = some ends -> stamp < ends
  kind : (grant.kind = .unlimited /\ grant.scope = none) \/ (grant.kind = .extra /\ grant.scope = some .window)

variable {grant : GrantRow}

theorem requestGrant_granted {site : Site} {now : ℚ} {row : QuotaRow} {pool : Option Pool} {modelId : Option ℕ}
  {tokens hours : ℕ} (made : site.requestGrant now row pool modelId tokens hours = some grant) :
  Granted grant row pool modelId ⌊now⌋ := by
  have created : ∀ {scope kind amount}, ((kind = .unlimited /\ scope = none) \/ (kind = .extra /\ scope = some .window)) ->
      site.createGrant (some row.userId) pool modelId scope kind amount ⌊now⌋ (some (⌊now⌋ + hours * 3600)) = some grant ->
      Granted grant row pool modelId ⌊now⌋ := by
    intro _ _ _ allowed stored
    unfold Site.createGrant at stored
    split at stored
    · cases stored
    · split at stored
      · cases stored
      · rcases bind_eq_some_iff.mp stored with ⟨_, _, rest⟩
        split at rest
        · cases rest
        · rename_i later
          cases rest
          refine ⟨rfl, ⟨rfl, rfl⟩, ⟨rfl, le_refl _, fun ends same => ?_⟩, allowed⟩
          cases same
          rw [any_some, decide_eq_true_eq, not_le] at later
          exact later
  unfold Site.requestGrant at made
  split at made
  · exact created (.inl ⟨rfl, rfl⟩) made
  · exact created (.inr ⟨rfl, rfl⟩) made

theorem withGrant_activeGrants {site : Site} {row : QuotaRow} {pool : Option Pool} {modelId : Option ℕ} {stamp : ℤ}
  (granted : Granted grant row pool modelId stamp) :
  (site.withGrant grant).activeGrants row.userId stamp = site.activeGrants row.userId stamp ++ [grant] := by
  have owned : grant.isFor row.userId := by
    unfold Grant.isFor
    rw [granted.owner]
    simp
  unfold Site.activeGrants Site.withGrant
  rw [filter_append]
  refine congrArg (_ ++ ·) (filter_eq_self.mpr fun other mem => ?_)
  rw [mem_singleton.mp mem, owned, granted.active.1, decide_eq_true granted.active.2.1]
  cases last : grant.endsAt with
  | none => rfl
  | some ends => exact decide_eq_true (granted.active.2.2 ends last)

end BananaChat.Allowances

import BananaChat.Allowances.Compared

namespace BananaChat.Allowances

open Limits Option

/-!
# The speed of an account

`setSpeed` slows an account down or speeds it up and may adjust its request rates: every rule is
halved or doubled and stored as a custom rate.
-/

/-- `SPEED_RATE_FACTORS`. -/
def speedFactor : Speed -> Option ℚ
  | .slow => some (1 / 2)
  | .normal => none
  | .fast => some 2

/-- One rule of `_speed_rules`: whole numbers, at least one request. -/
def speedRule (factor : ℚ) (rule : RuleBase) : RuleBase where
  requests := min requestsMax (max 1 ⌊rule.requests * factor⌋₊)
  per := rule.per
  burst := min burstMax (max 1 ⌊rule.burst * factor⌋₊)

def speedRules (factor : ℚ) (rules : List RuleBase) : List RuleBase := rules.map (speedRule factor)

/-- The rate a speed change starts from: the policy's, where the current one is what the
previous speed made of it. -/
def startingRules (policyRules baseRules : List RuleBase) (previous : Speed) : List RuleBase :=
  match speedFactor previous with
  | some factor => if speedRules factor policyRules = baseRules then policyRules else baseRules
  | none => baseRules

def nextRules (policyRules baseRules : List RuleBase) (previous speed : Speed) : List RuleBase :=
  match speedFactor speed with
  | none => []
  | some factor => speedRules factor (startingRules policyRules baseRules previous)

def rateValues (rules : List RuleBase) : Values :=
  ⟨some (if rules = [] then none else some (rules.map written)), none, none⟩

namespace Site

variable (site : Site)

def adjustRate (userId : ℕ) (previous speed : Speed) (pool : Pool) : Option Site :=
  site.setOverride userId pool false
    (rateValues (nextRules (site.policies pool).rate.rules.val (site.baseLimits userId pool).rateRules previous speed))

/-- `set_speed`, over `POOLS`. -/
def setSpeed (userId : ℕ) (speed : Speed) (adjust : Bool) : Option Site :=
  let previous := (site.preferences userId).speed
  let site := site.withPreferences userId { site.preferences userId with speed := speed }
  if adjust then
    [Pool.api, Pool.chat, Pool.agent].foldlM (fun site pool => site.adjustRate userId previous speed pool) site
  else some site

end Site

theorem speedRule_bounded (factor : ℚ) (rule : RuleBase) : Bounded (speedRule factor rule) := by
  have within : ∀ (maximum scaled : ℕ), 1 <= maximum -> 1 <= min maximum (max 1 scaled) /\ min maximum (max 1 scaled) <= maximum :=
    fun maximum scaled least => ⟨le_min least (le_max_left _ _), min_le_left _ _⟩
  exact ⟨within _ _ (by decide), within _ _ (by decide)⟩

variable {rules : List RuleBase}

theorem speedRules_ruleset (factor : ℚ) (ruleset : Ruleset rules) : Ruleset (speedRules factor rules) :=
  ruleset.map (speedRule factor) (fun _ => rfl) (fun rule _ => speedRule_bounded factor rule)

theorem slowed_below {rule : RuleBase} (bounded : Bounded rule) : BaseBelow (speedRule (1 / 2) rule) rule := by
  have halved : ∀ amount : ℕ, 1 <= amount -> max 1 ⌊(amount : ℚ) * (1 / 2)⌋₊ <= amount := by
    intro amount least
    refine max_le least (Nat.floor_le_of_le ?_)
    have nonneg : (0 : ℚ) <= amount := Nat.cast_nonneg amount
    linarith
  exact ⟨rfl, (min_le_right _ _).trans (halved _ bounded.1.1), (min_le_right _ _).trans (halved _ bounded.2.1)⟩

theorem below_sped {rule : RuleBase} (bounded : Bounded rule) : BaseBelow rule (speedRule 2 rule) := by
  have doubled : ∀ amount : ℕ, amount <= max 1 ⌊(amount : ℚ) * 2⌋₊ := by
    intro amount
    refine le_trans (Nat.le_floor ?_) (le_max_right _ _)
    have nonneg : (0 : ℚ) <= amount := Nat.cast_nonneg amount
    linarith
  exact ⟨rfl, le_min bounded.1.2 (doubled _), le_min bounded.2.2 (doubled _)⟩

variable {policyRules baseRules : List RuleBase}

theorem startingRules_ruleset (policy : Ruleset policyRules) (base : Ruleset baseRules)
  (previous : Speed) : Ruleset (startingRules policyRules baseRules previous) := by
  unfold startingRules
  cases speedFactor previous with
  | none => exact base
  | some factor =>
    dsimp only
    split
    · exact policy
    · exact base

theorem nextRules_ruleset (policy : Ruleset policyRules) (base : Ruleset baseRules)
  (previous speed : Speed) : Ruleset (nextRules policyRules baseRules previous speed) := by
  unfold nextRules
  cases speedFactor speed with
  | none => exact ⟨List.Pairwise.nil, fun _ mem => nomatch mem⟩
  | some factor => exact speedRules_ruleset factor (startingRules_ruleset policy base previous)

def customOf (rules : List RuleBase) (ruleset : Ruleset rules) : Option CustomRules :=
  if nonempty : rules = [] then none else some ⟨rules, ruleset, nonempty⟩

def storedRules (rules : List RuleBase) : Option (List RuleBase) := if rules = [] then none else some rules

theorem customOf_rules (rules : List RuleBase) (ruleset : Ruleset rules) :
  (customOf rules ruleset).map CustomRules.rules = storedRules rules := by
  unfold customOf storedRules
  split
  · rfl
  · rfl

theorem setOverride_rate (site : Site) (userId : ℕ) (pool : Pool) (ruleset : Ruleset rules) :
  site.setOverride userId pool false (rateValues rules) = some (site.withOverride userId pool
      (storedOverride (site.overrides userId pool) false ⟨some (customOf rules ruleset), none, none⟩)) := by
  have checked : checkRules (rateValues rules).rateRules = some (some (customOf rules ruleset)) := by
    unfold rateValues customOf
    by_cases empty : rules = []
    · rw [if_pos empty, dif_pos empty]
      rfl
    · rw [if_neg empty, dif_neg empty, checkRules_written ruleset empty]
  unfold Site.setOverride validateOverride
  rw [checked]
  rfl

structure Adjusted (before after : Site) (userId : ℕ) (pool : Pool) (rules : List RuleBase) : Prop where
  frame : ∃ overrides, after = { before with overrides := overrides }
  rate : (after.override userId pool).rules = storedRules rules
  tokens : ∀ period, (after.override userId pool).tokens period = (before.override userId pool).tokens period
  others : ∀ other otherPool, ¬ (other = userId /\ otherPool = pool) ->
    after.override other otherPool = before.override other otherPool

theorem adjustRate_adjusted (site : Site) (userId : ℕ) (previous speed : Speed) (pool : Pool) :
  ∃ after, site.adjustRate userId previous speed pool = some after /\ Adjusted site after userId pool
      (nextRules (site.policies pool).rate.rules.val (site.baseLimits userId pool).rateRules previous speed) := by
  have ruleset := nextRules_ruleset (checkedRules_ruleset (site.policies pool).rate.rules)
    (baseRules_ruleset site userId pool) previous speed
  refine ⟨_, setOverride_rate site userId pool ruleset, ⟨_, rfl⟩, ?_, ?_, ?_⟩
  · rw [Site.withOverride_same, Override.rules, (storedOverride_values _ _ _).1]
    exact customOf_rules _ ruleset
  · intro period
    rw [Site.withOverride_same]
    cases period with
    | window => exact (storedOverride_values _ _ _).2.1
    | weekly => exact (storedOverride_values _ _ _).2.2
  · exact fun other otherPool apart => site.withOverride_other _ apart

/-- The site after a change of speed: the speed, the rates of every pool if they were
adjusted, and nothing else. -/
structure Sped (before after : Site) (userId : ℕ) (speed : Speed) (adjust : Bool) : Prop where
  frame : ∃ overrides, after =
    { (before.withPreferences userId { before.preferences userId with speed := speed }) with overrides := overrides }
  rate : ∀ pool, (after.override userId pool).rules =
    if adjust then
      storedRules (nextRules (before.policies pool).rate.rules.val (before.baseLimits userId pool).rateRules
        (before.preferences userId).speed speed)
    else (before.override userId pool).rules
  tokens : ∀ pool period, (after.override userId pool).tokens period = (before.override userId pool).tokens period
  others : ∀ other pool, other ≠ userId -> after.override other pool = before.override other pool

theorem baseRules_eq (site : Site) (userId : ℕ) (pool : Pool) :
  (site.baseLimits userId pool).rateRules = (site.override userId pool).rules.getD (site.policies pool).rate.rules.val :=
  rfl

theorem setSpeed_sped (site : Site) (userId : ℕ) (speed : Speed) (adjust : Bool) :
  ∃ after, site.setSpeed userId speed adjust = some after /\ Sped site after userId speed adjust := by
  cases adjust with
  | false =>
    refine ⟨_, rfl, ⟨⟨site.overrides, rfl⟩, fun pool => ?_, fun pool period => rfl, fun other pool _ => rfl⟩⟩
    rw [if_neg Bool.false_ne_true]
    rfl
  | true =>
    let start := site.withPreferences userId { site.preferences userId with speed := speed }
    rcases adjustRate_adjusted start userId (site.preferences userId).speed speed .api with ⟨first, stepApi, api⟩
    rcases adjustRate_adjusted first userId (site.preferences userId).speed speed .chat with ⟨second, stepChat, chat⟩
    rcases adjustRate_adjusted second userId (site.preferences userId).speed speed .agent with ⟨third, stepAgent, agent⟩
    refine ⟨third, ?_, ?_⟩
    · simp only [Site.setSpeed, if_true, List.foldlM_cons, List.foldlM_nil]
      change (start.adjustRate userId (site.preferences userId).speed speed .api >>= fun next =>
        next.adjustRate userId (site.preferences userId).speed speed .chat >>= fun next =>
          next.adjustRate userId (site.preferences userId).speed speed .agent >>= fun next => some next) = some third
      rw [stepApi, bind_eq_bind, bind_some, stepChat, bind_some, stepAgent]
      rfl
    · rcases api.frame with ⟨_, frameApi⟩
      rcases chat.frame with ⟨_, frameChat⟩
      rcases agent.frame with ⟨overridesAgent, frameAgent⟩
      -- each pool's change sees the policy and the account's own values as they were
      have sameStart : ∀ pool, (start.override userId pool) = site.override userId pool := fun _ => rfl
      refine ⟨⟨overridesAgent, ?_⟩, ?_, ?_, ?_⟩
      · rw [frameAgent, frameChat, frameApi]
      · intro pool
        rw [if_pos rfl]
        cases pool with
        | api =>
          rw [agent.others _ _ (by simp), chat.others _ _ (by simp), api.rate]
          rfl
        | chat =>
          rw [agent.others _ _ (by simp), chat.rate, baseRules_eq, api.others _ _ (by simp), frameApi]
          rfl
        | agent =>
          rw [agent.rate, baseRules_eq, chat.others _ _ (by simp), api.others _ _ (by simp), frameChat, frameApi]
          rfl
      · intro pool _
        cases pool with
        | api => rw [agent.others _ _ (by simp), chat.others _ _ (by simp), api.tokens, sameStart]
        | chat => rw [agent.others _ _ (by simp), chat.tokens, api.others _ _ (by simp), sameStart]
        | agent => rw [agent.tokens, chat.others _ _ (by simp), api.others _ _ (by simp), sameStart]
      · intro _ _ apart
        rw [agent.others _ _ (apart ·.1), chat.others _ _ (apart ·.1), api.others _ _ (apart ·.1)]
        rfl

end BananaChat.Allowances

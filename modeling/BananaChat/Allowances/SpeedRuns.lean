import BananaChat.Allowances.SpeedDirection

namespace BananaChat.Allowances

open Foundation Limits

/-!
# A run of speed changes

`setSpeed` tells a rate that it set itself from any other by comparing it with what the speed stored
now makes of the policy.
-/

structure Account where
  site : Site
  adjustedTo : Speed

inductive SpeedAction
  | setSpeed (speed : Speed) (adjust : Bool)
  /-- Anything else that happens on the site. -/
  | other (site : Site)

section Runs

variable (userId : ℕ) (pool : Pool)

structure Untouched (before after : Site) : Prop where
  policy : (after.policies pool).rate.rules = (before.policies pool).rate.rules
  rate : (after.override userId pool).rules = (before.override userId pool).rules
  speed : (after.preferences userId).speed = (before.preferences userId).speed

def policyRules (site : Site) : List RuleBase := (site.policies pool).rate.rules.val

/-- A change of the rate starts from the policy's: no rate was set, the speed stored now set it, or scaling it again
makes no difference. -/
def Direct (account : Account) (factor : ℚ) : Prop :=
  account.adjustedTo = .normal \/ account.adjustedTo = (account.site.preferences userId).speed \/
    ∀ old, speedFactor account.adjustedTo = some old ->
      speedRules factor (speedRules old (policyRules pool account.site)) = speedRules factor (policyRules pool account.site)

def directChanges : Machine Account SpeedAction where
  initial := fun account => (account.site.override userId pool).rules = none /\ account.adjustedTo = .normal
  enabled := fun account action =>
    match action with
    | .setSpeed speed adjust => adjust = true -> ∀ factor, speedFactor speed = some factor -> Direct userId pool account factor
    | .other site => Untouched userId pool account.site site
  next := fun account action =>
    match action with
    | .setSpeed speed adjust =>
      ⟨(account.site.setSpeed userId speed adjust).getD account.site, if adjust then speed else account.adjustedTo⟩
    | .other site => ⟨site, account.adjustedTo⟩

def rateOf (speed : Speed) (rules : List RuleBase) : Option (List RuleBase) :=
  match speedFactor speed with
  | none => none
  | some factor => storedRules (speedRules factor rules)

end Runs

theorem slowed_lt_sped {rule : RuleBase} (bounded : Bounded rule) :
  (speedRule (1 / 2) rule).requests < (speedRule 2 rule).requests := by
  have faster := (below_sped bounded).requests
  by_cases single : rule.requests = 1
  · have slow : (speedRule (1 / 2) rule).requests <= 1 := by
      have below := (slowed_below bounded).requests
      omega
    have double : ⌊((1 : ℕ) : ℚ) * 2⌋₊ = 2 := by norm_num
    have fast : (speedRule 2 rule).requests = 2 := by
      unfold speedRule
      rw [single, double]
      rfl
    omega
  · have least := bounded.1.1
    have slow : (speedRule (1 / 2) rule).requests < rule.requests := by
      refine lt_of_le_of_lt (min_le_right _ _) (max_lt (by omega) ?_)
      refine (Nat.floor_lt (by positivity)).mpr ?_
      have positive : (0 : ℚ) < rule.requests := by exact_mod_cast least
      linarith
    omega

theorem slowedRules_ne_sped {rules : List RuleBase} (ruleset : Ruleset rules) (nonempty : rules ≠ []) :
  speedRules (1 / 2) rules ≠ speedRules 2 rules := by
  intro same
  rcases List.exists_mem_of_ne_nil rules nonempty with ⟨rule, mem⟩
  have equal := List.map_inj_left.mp same rule mem
  exact absurd (congrArg RuleBase.requests equal) (slowed_lt_sped (ruleset.bounded rule mem)).ne

theorem speed_of_rules {rules : List RuleBase} (ruleset : Ruleset rules) (nonempty : rules ≠ []) {first second : Speed}
  {factor other : ℚ} (one : speedFactor first = some factor) (two : speedFactor second = some other)
  (same : speedRules factor rules = speedRules other rules) : first = second := by
  cases first with
  | normal => cases one
  | slow =>
    cases second with
    | slow => rfl
    | normal => cases two
    | fast =>
      cases one
      cases two
      exact absurd same (slowedRules_ne_sped ruleset nonempty)
  | fast =>
    cases second with
    | fast => rfl
    | normal => cases two
    | slow =>
      cases one
      cases two
      exact absurd same.symm (slowedRules_ne_sped ruleset nonempty)

theorem storedRules_inj {first second : List RuleBase} (same : storedRules first = storedRules second) : first = second := by
  unfold storedRules at same
  by_cases one : first = []
  · by_cases two : second = []
    · rw [one, two]
    · rw [if_pos one, if_neg two] at same
      cases same
  · by_cases two : second = []
    · rw [if_neg one, if_pos two] at same
      cases same
    · rw [if_neg one, if_neg two] at same
      exact Option.some.inj same

section OneChange

variable {userId : ℕ} {pool : Pool} {account : Account}

theorem rate_after (userId : ℕ) (pool : Pool) (site : Site) (speed : Speed) :
  (((site.setSpeed userId speed true).getD site).override userId pool).rules =
    storedRules (nextRules (policyRules pool site) ((site.override userId pool).rules.getD (policyRules pool site))
      (site.preferences userId).speed speed) := by
  rcases setSpeed_sped site userId speed true with ⟨_, changed, sped⟩
  rw [changed, Option.getD_some, sped.rate pool, if_pos rfl]
  rfl

theorem nextRules_iff_direct (held : (account.site.override userId pool).rules = rateOf account.adjustedTo (policyRules pool account.site))
  {speed : Speed} {factor : ℚ} (adjusts : speedFactor speed = some factor) : nextRules (policyRules pool account.site)
      ((account.site.override userId pool).rules.getD (policyRules pool account.site))
      (account.site.preferences userId).speed speed = speedRules factor (policyRules pool account.site) ↔
    Direct userId pool account factor := by
  have ruleset : Ruleset (policyRules pool account.site) := checkedRules_ruleset _
  unfold Direct
  generalize policyRules pool account.site = rules at *
  rw [held]
  cases old : speedFactor account.adjustedTo with
  | none =>
    -- no rate was set: the policy's is in force
    have normal : account.adjustedTo = .normal := by
      cases speed' : account.adjustedTo with
      | normal => rfl
      | slow | fast =>
        rw [speed'] at old
        cases old
    have base : (rateOf account.adjustedTo rules).getD rules = rules := by
      unfold rateOf
      rw [old]
      rfl
    rw [base]
    exact ⟨fun _ => .inl normal, fun _ => nextRules_policy rules _ speed adjusts⟩
  | some before =>
    have notNormal : account.adjustedTo ≠ .normal := by
      intro normal
      rw [normal] at old
      cases old
    have base : (rateOf account.adjustedTo rules).getD rules = speedRules before rules := by
      unfold rateOf
      rw [old]
      by_cases empty : rules = []
      · subst empty
        rfl
      · exact storedRules_getD (fun none => empty (List.map_eq_nil_iff.mp none)) rules
    have next : nextRules rules (speedRules before rules) (account.site.preferences userId).speed speed =
        speedRules factor (startingRules rules (speedRules before rules) (account.site.preferences userId).speed) := by
      unfold nextRules
      rw [adjusts]
    rw [base, next]
    constructor
    · intro single
      by_cases known : account.adjustedTo = (account.site.preferences userId).speed
      · exact .inr (.inl known)
      · refine .inr (.inr fun other same => ?_)
        cases same
        by_cases empty : rules = []
        · subst empty
          rfl
        · have starting : startingRules rules (speedRules before rules) (account.site.preferences userId).speed =
              speedRules before rules := by
            unfold startingRules
            cases stored : speedFactor (account.site.preferences userId).speed with
            | none => rfl
            | some now =>
              exact if_neg fun same => known (speed_of_rules ruleset empty old stored same.symm)
          rw [starting] at single
          exact single
    · rintro (normal | known | harmless)
      · exact absurd normal notNormal
      · have starting : startingRules rules (speedRules before rules) (account.site.preferences userId).speed = rules := by
          unfold startingRules
          rw [<- known, old]
          exact if_pos rfl
        rw [starting]
      · have twice := harmless before rfl
        unfold startingRules
        cases stored : speedFactor (account.site.preferences userId).speed with
        | none => exact twice
        | some now =>
          dsimp only
          split
          · rfl
          · exact twice

end OneChange

section Runs

variable {userId : ℕ} {pool : Pool}

def Known (userId : ℕ) (pool : Pool) (account : Account) : Prop :=
  (account.site.override userId pool).rules = rateOf account.adjustedTo (policyRules pool account.site)

theorem known_invariant (userId : ℕ) (pool : Pool) : (directChanges userId pool).Invariant (Known userId pool) := by
  constructor
  · rintro account ⟨plain, normal⟩
    unfold Known
    rw [plain, normal]
    rfl
  · intro account action known enabled
    unfold Known at known ⊢
    cases action with
    | other site =>
      have untouched : Untouched userId pool account.site site := enabled
      change (site.override userId pool).rules = rateOf account.adjustedTo (site.policies pool).rate.rules.val
      rw [untouched.rate, untouched.policy]
      exact known
    | setSpeed speed adjust =>
      rcases setSpeed_sped account.site userId speed adjust with ⟨after, changed, sped⟩
      have policy : policyRules pool after = policyRules pool account.site := by
        rcases sped.frame with ⟨_, frame⟩
        rw [frame]
        rfl
      change (((account.site.setSpeed userId speed adjust).getD account.site).override userId pool).rules =
        rateOf (if adjust then speed else account.adjustedTo)
          (policyRules pool ((account.site.setSpeed userId speed adjust).getD account.site))
      rw [changed, Option.getD_some, policy, sped.rate pool]
      cases adjust with
      | false => exact known
      | true =>
        rw [if_pos rfl, if_pos rfl]
        unfold rateOf
        cases adjusts : speedFactor speed with
        | none =>
          unfold nextRules
          rw [adjusts]
          rfl
        | some factor =>
          exact congrArg storedRules ((nextRules_iff_direct known adjusts).mpr (enabled rfl factor adjusts))

end Runs

end BananaChat.Allowances

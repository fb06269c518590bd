import BananaChat.Allowances.AmountText
import BananaChat.Allowances.Raised
import BananaChat.Allowances.Speed

namespace BananaChat.Allowances

open Foundation Limits Option Function

/-!
# Automatic approvals as floors

The amount of an automatically approved request is marked in the custom limits, and the base of that
limit is the larger of the amount and what the policy gives.
-/

/-- A form as it is sent.  The rules are none where a row of them cannot be read. -/
structure LimitForm where
  rules : Option (List RawRule)
  windowText : List Char
  weeklyText : List Char

def LimitForm.text (form : LimitForm) : Period -> List Char
  | .window => form.windowText
  | .weekly => form.weeklyText

/-- `set_custom`: every field of the form is named, and an empty one is cleared. -/
def Site.setCustom (site : Site) (userId : ℕ) (pool : Pool) (form : LimitForm) : Option Site :=
  form.rules.bind fun rules =>
    (tokensField overrideWindowMax form.windowText).bind fun windowTokens =>
      (tokensField tokensMax form.weeklyText).bind fun weeklyTokens =>
        site.setOverride userId pool false
          ⟨some (if rules = [] then none else some rules), some (windowTokens.map fun value : ℕ => (value : ℚ)),
            some (weeklyTokens.map fun value : ℕ => (value : ℚ))⟩

/-- The site, with what pages showed in the field of one amount. -/
structure Desk where
  site : Site
  shown : List (List Char)

inductive LimitsAction
  | policies (policies : Pool -> Policy)
  | tiers (tiers : List Tier)
  | tier (userId : ℕ) (tierId : Option ℕ)
  | rate (userId : ℕ) (pool : Pool) (rules : Option (List RawRule))
  | speed (userId : ℕ) (speed : Speed) (adjust : Bool)
  | page
  | save (pool : Pool) (form : LimitForm)

def Site.after (site : Site) (userId : ℕ) : LimitsAction -> Site
  | .policies policies => { site with policies := policies }
  | .tiers tiers => { site with tiers := tiers }
  | .tier other tierId => site.withPreferences other { site.preferences other with tierId := tierId }
  | .rate other pool rules => (site.setOverride other pool false ⟨some rules, none, none⟩).getD site
  | .speed other speed adjust => (site.setSpeed other speed adjust).getD site
  | .page => site
  | .save pool form => (site.setCustom userId pool form).getD site

/-- What happens after an approval.  A form of the approved pool is saved with the field of the
amount as some page showed it since then. -/
def limitsDesk (start : Site) (userId : ℕ) (pool : Pool) (period : Period) : Machine Desk LimitsAction where
  initial desk := desk = ⟨start, []⟩
  enabled desk action :=
    match action with
    | .save other form => other = pool -> form.text period ∈ desk.shown
    | .policies _ | .tiers _ | .tier _ _ | .rate _ _ _ | .speed _ _ _ | .page => True
  next desk action :=
    { site := desk.site.after userId action
      shown :=
        match action with
        | .page => shownText ((desk.site.override userId pool).tokens period) :: desk.shown
        | .policies _ | .tiers _ | .tier _ _ | .rate _ _ _ | .speed _ _ _ | .save _ _ => desk.shown }

structure Floor (site : Site) (userId : ℕ) (pool : Pool) (period : Period) (amount : ℕ) : Prop where
  tokens : (site.override userId pool).tokens period = some amount
  marked : period.field ∈ (site.override userId pool).automatic

def Values.tokens (values : Values) : Period -> Option (Option ℚ)
  | .window => values.windowTokens
  | .weekly => values.weeklyTokens

def CleanValues.tokens (clean : CleanValues) : Period -> Option (Option ℕ)
  | .window => clean.windowTokens
  | .weekly => clean.weeklyTokens

section Marks

variable {userId other : ℕ} {pool otherPool : Pool} {period : Period} {amount : ℕ}

theorem keepFloor_mem {Value : Type} [DecidableEq Value] (automatic : Bool) {field kept : OverrideField}
  {named : Option (Option Value)} {current : Option Value} {floors : Finset OverrideField} (mem : kept ∈ floors)
  (same : field = kept -> named = none \/ (named = some current /\ current ≠ none)) :
  kept ∈ keepFloor automatic field named current floors := by
  unfold keepFloor
  cases named with
  | none => exact mem
  | some value =>
    dsimp only
    split
    · rename_i dropped
      refine Finset.mem_erase.mpr ⟨fun equal => ?_, mem⟩
      rcases same equal.symm with clash | ⟨equal, present⟩
      · cases clash
      · cases equal
        rcases dropped with cleared | ⟨_, changed⟩
        · exact present cleared
        · exact changed rfl
    · split
      · exact Finset.mem_insert_of_mem mem
      · exact mem

theorem validateOverride_tokens {values : Values} {clean : CleanValues} (checked : validateOverride values = some clean)
  (named : values.tokens period = none \/ values.tokens period = some (some (amount : ℚ))) :
  clean.tokens period = none \/ clean.tokens period = some (some amount) := by
  have field : ∀ {maximum : ℕ} {raw : Option (Option ℚ)} {read : Option (Option ℕ)},
      checkField (wholeAmount maximum) raw = some read -> raw = none \/ raw = some (some (amount : ℚ)) ->
        read = none \/ read = some (some amount) := by
    intro _ _ _ passed either
    rcases either with rfl | rfl
    · cases passed
      exact .inl rfl
    · rcases map_eq_some_iff.mp passed with ⟨_, whole, rfl⟩
      have same := (wholeAmount_eq_some whole).1
      exact .inr (congrArg (fun number => some (some number)) (by exact_mod_cast same.symm))
  rcases bind_eq_some_iff.mp checked with ⟨_, _, rest⟩
  rcases bind_eq_some_iff.mp rest with ⟨_, window, last⟩
  rcases map_eq_some_iff.mp last with ⟨_, weekly, rfl⟩
  cases period with
  | window => exact field window named
  | weekly => exact field weekly named

theorem Floor.setOverride {site after : Site} (floor : Floor site userId pool period amount) {automatic : Bool} {values : Values}
  (stored : site.setOverride other otherPool automatic values = some after)
  (named : other = userId -> otherPool = pool ->
    values.tokens period = none \/ values.tokens period = some (some (amount : ℚ))) :
  Floor after userId pool period amount := by
  rcases map_eq_some_iff.mp stored with ⟨clean, checked, rfl⟩
  by_cases here : userId = other /\ pool = otherPool
  · rcases here with ⟨rfl, rfl⟩
    have cleaned := validateOverride_tokens checked (named rfl rfl)
    have held := storedOverride_values (site.overrides userId pool) automatic clean
    have tokens : ((storedOverride (site.overrides userId pool) automatic clean).getD .unset).tokens period = some amount := by
      have own := floor.tokens
      have asNamed : ((storedOverride (site.overrides userId pool) automatic clean).getD .unset).tokens period =
          (clean.tokens period).getD ((site.override userId pool).tokens period) := by
        cases period with
        | window => exact held.2.1
        | weekly => exact held.2.2
      rw [asNamed, own]
      rcases cleaned with none | same
      · rw [none]
        rfl
      · rw [same]
        rfl
    refine ⟨by rw [Site.withOverride_same]; exact tokens, ?_⟩
    rw [Site.withOverride_same]
    unfold storedOverride at tokens ⊢
    dsimp only at tokens ⊢
    split at tokens
    · rename_i unchanged
      rw [if_pos unchanged]
      exact floor.marked
    · rename_i changed
      rw [if_neg changed]
      split at tokens
      · cases period <;> cases tokens
      · rename_i filled
        rw [if_neg filled, getD_some]
        have current : ∀ named, named = none \/ named = some (some amount) ->
            named = none \/ (named = some ((site.override userId pool).tokens period) /\
              (site.override userId pool).tokens period ≠ none) := by
          intro _ either
          rcases either with none | same
          · exact .inl none
          · exact .inr ⟨same.trans (congrArg some floor.tokens.symm), fun none => nomatch floor.tokens.symm.trans none⟩
        cases period with
        | window =>
          refine keepFloor_mem automatic (keepFloor_mem automatic (keepFloor_mem automatic floor.marked ?_) ?_) ?_
          · exact nofun
          · exact fun _ => current _ cleaned
          · exact nofun
        | weekly =>
          refine keepFloor_mem automatic (keepFloor_mem automatic (keepFloor_mem automatic floor.marked ?_) ?_) ?_
          · exact nofun
          · exact nofun
          · exact fun _ => current _ cleaned
  · have kept := site.withOverride_other (storedOverride (site.overrides other otherPool) automatic clean) here
    exact ⟨by rw [kept]; exact floor.tokens, by rw [kept]; exact floor.marked⟩

end Marks

section Actions

variable {userId : ℕ} {pool : Pool} {period : Period} {amount : ℕ}

variable {site after : Site}

section

variable (floor : Floor site userId pool period amount)
include floor

theorem Floor.adjustRate {other : ℕ} {previous speed : Speed}
  {otherPool : Pool} (changed : site.adjustRate other previous speed otherPool = some after) :
  Floor after userId pool period amount := by
  refine floor.setOverride changed fun _ _ => .inl ?_
  cases period <;> rfl

theorem Floor.setSpeed {other : ℕ} {speed : Speed} {adjust : Bool}
  (changed : site.setSpeed other speed adjust = some after) : Floor after userId pool period amount := by
  have sped : Floor (site.withPreferences other { site.preferences other with speed := speed }) userId pool period amount :=
    ⟨floor.tokens, floor.marked⟩
  have everyPool : ∀ (previous : Speed) (pools : List Pool) (start : Site), Floor start userId pool period amount ->
      pools.foldlM (fun site next => site.adjustRate other previous speed next) start = some after ->
      Floor after userId pool period amount := by
    intro _ pools
    induction pools with
    | nil =>
      intro start held carried
      cases carried
      exact held
    | cons next rest ih =>
      intro _ held carried
      rcases bind_eq_some_iff.mp carried with ⟨middle, adjusted, others⟩
      exact ih middle (held.adjustRate adjusted) others
  unfold Site.setSpeed at changed
  split at changed
  · exact everyPool _ _ _ sped changed
  · cases changed
    exact sped

theorem Floor.setCustom {otherPool : Pool} {form : LimitForm}
  (saved : site.setCustom userId otherPool form = some after)
  (left : otherPool = pool -> form.text period = shownText (some amount)) : Floor after userId pool period amount := by
  rcases bind_eq_some_iff.mp saved with ⟨_, _, rest⟩
  rcases bind_eq_some_iff.mp rest with ⟨_, window, last⟩
  rcases bind_eq_some_iff.mp last with ⟨_, weekly, stored⟩
  refine floor.setOverride stored fun _ samePool => .inr ?_
  have read : ∀ {maximum : ℕ} {tokens : Option ℕ}, tokensField maximum (shownText (some amount)) = some tokens ->
      tokens = some amount := by
    intro _ _ field
    rw [tokensField_shown] at field
    split at field
    · exact (Option.some.inj field).symm
    · cases field
  cases period with
  | window =>
    rw [show form.windowText = shownText (some amount) from left samePool] at window
    rw [read window]
    rfl
  | weekly =>
    rw [show form.weeklyText = shownText (some amount) from left samePool] at weekly
    rw [read weekly]
    rfl

end

structure Approved (desk : Desk) (userId : ℕ) (pool : Pool) (period : Period) (amount : ℕ) : Prop where
  floor : Floor desk.site userId pool period amount
  shown : ∀ text ∈ desk.shown, text = shownText (some amount)

theorem Approved.next {start : Site} {desk : Desk} (approved : Approved desk userId pool period amount) {action : LimitsAction}
  (enabled : (limitsDesk start userId pool period).enabled desk action) :
  Approved ((limitsDesk start userId pool period).next desk action) userId pool period amount := by
  have orKept : ∀ {result : Option Site}, (∀ after, result = some after -> Floor after userId pool period amount) ->
      Floor (result.getD desk.site) userId pool period amount := by
    intro result stays
    cases result with
    | none => exact approved.floor
    | some after => exact stays after rfl
  cases action with
  | policies policies | tiers tiers | tier other tierId =>
    exact ⟨⟨approved.floor.tokens, approved.floor.marked⟩, approved.shown⟩
  | rate other otherPool rules =>
    refine ⟨orKept fun after stored => approved.floor.setOverride stored fun _ _ => .inl ?_, approved.shown⟩
    cases period <;> rfl
  | speed other speed adjust => exact ⟨orKept fun after changed => approved.floor.setSpeed changed, approved.shown⟩
  | page =>
    refine ⟨approved.floor, fun text mem => ?_⟩
    rcases List.mem_cons.mp mem with newest | earlier
    · exact newest.trans (congrArg shownText approved.floor.tokens)
    · exact approved.shown text earlier
  | save otherPool form =>
    refine ⟨orKept fun after saved => approved.floor.setCustom saved fun here => ?_, approved.shown⟩
    exact approved.shown _ (enabled here)

theorem Floor.base (floor : Floor site userId pool period amount) : (site.baseLimits userId pool).tokens period =
    max (amount : ℚ) (tiered ((site.policies pool).period period)
      (resolveTier (site.preferences userId).tierId site.tiers)) := by
  have amounts : (site.baseLimits userId pool).tokens period = baseAmount ((site.policies pool).period period)
      (site.override userId pool) (resolveTier (site.preferences userId).tierId site.tiers) period := by
    cases period <;> rfl
  rw [amounts, baseAmount, floor.tokens]
  exact if_pos floor.marked

end Actions

/-- What an approval leaves as it was: every field it does not name, and every other custom limit. -/
structure NamesOnly (before after : Site) (userId : ℕ) (pool : Pool) (period : Period) : Prop where
  rate : (after.override userId pool).rateRules = (before.override userId pool).rateRules
  tokens : ∀ other, other ≠ period -> (after.override userId pool).tokens other = (before.override userId pool).tokens other
  marks : ∀ field, field ≠ period.field ->
    (field ∈ (after.override userId pool).automatic ↔ field ∈ (before.override userId pool).automatic)
  others : ∀ other otherPool, ¬ (other = userId /\ otherPool = pool) ->
    after.override other otherPool = before.override other otherPool
  models : after.modelOverrides = before.modelOverrides

theorem poolBase_whole (site : Site) (userId : ℕ) (pool : Pool) (period : Period) :
  0 <= (site.baseLimits userId pool).tokens period /\
    whole ((site.baseLimits userId pool).tokens period) = (site.baseLimits userId pool).tokens period := by
  rw [<- pool_base]
  refine ⟨whole_nonneg ?_, whole_whole _⟩
  cases own : customAmount (site.override userId pool) period ((site.policies pool).period period)
      (site.poolTier userId pool) with
  | none => exact mul_nonneg (Nat.cast_nonneg _) (tierFactor_nonneg (site.poolTerms 0 userId pool period) _)
  | some value => exact (customAmount_whole own).2

/-- An automatically approved amount is a floor of its limit, whatever is changed later. -/
theorem approved_floor (site after : Site) (now : ℚ) (row : QuotaRow) (period : Period)
  (applied : site.apply now row = some after) (raises : row.kind = .period period) (forPool : row.modelId = none)
  (automatic : row.automatic) : ∃ amount : ℕ,
    (amount : ℚ) = max ((site.baseLimits row.userId row.service).tokens period) (row.poolAmount period) /\
      NamesOnly site after row.userId row.service period /\
      ∀ desk, (limitsDesk after row.userId row.service period).Reachable desk ->
        (desk.site.baseLimits row.userId row.service).tokens period =
          max (amount : ℚ) (tiered ((desk.site.policies row.service).period period)
            (resolveTier (desk.site.preferences row.userId).tierId desk.site.tiers)) /\
          ∀ (later : ℚ) (user : Credits.User), user.id = row.userId -> user.admin = false ->
            ((desk.site.effective later user row.service).period period).limited ->
              ((desk.site.effective later user row.service).period period).base =
                (desk.site.baseLimits row.userId row.service).tokens period := by
  unfold Site.apply at applied
  rw [forPool, raises] at applied
  dsimp only at applied
  split at applied
  · rcases setOverride_tokens applied with ⟨amount, row', same, rfl, stored⟩
    rw [automatic] at stored
    have own := site.withOverride_same row.userId row.service row'
    have settled := ceilAmount_max (poolBase_whole site row.userId row.service period).1
      (poolBase_whole site row.userId row.service period).2 same
    refine ⟨amount, settled, ⟨?_, ?_, ?_, fun other otherPool apart => site.withOverride_other row' apart, rfl⟩, ?_⟩
    · rw [own]
      exact stored.rules
    · intro other apart
      rw [own]
      exact stored.others other apart
    · intro field apart
      rw [own]
      exact stored.other_fields apart
    · intro desk reachable
      have invariant : (limitsDesk (site.withOverride row.userId row.service row') row.userId row.service period).Invariant
          (Approved · row.userId row.service period amount) := by
        constructor
        · rintro desk rfl
          refine ⟨⟨?_, ?_⟩, fun text mem => nomatch mem⟩
          · rw [own]
            exact stored.tokens
          · rw [own, stored.marks]
            unfold keepFloor
            dsimp only
            rw [if_neg (by simp), if_pos rfl]
            exact Finset.mem_insert_self _ _
        · exact fun desk action approved enabled => approved.next enabled
      have approved := invariant.reachable reachable
      refine ⟨approved.floor.base, fun later user owner mem limited => ?_⟩
      rw [effective_period _ later row.service mem, owner] at limited ⊢
      exact poolWindow_base desk.site later limited
  · cases applied

def automaticRequest : QuotaRow := { plainRequest with automatic := true }

def raisedApi : Policy := { defaultPolicy .api with window := ⟨true, 60000, false, false, by decide⟩ }

/-- On a fresh site the amount is a floor, and a policy above it counts. -/
theorem approved_floor_fresh :
  ∃ after, freshSite.apply 0 automaticRequest = some after /\ (after.baseLimits 1 .api).tokens .window = 50000 /\
    (({ after with policies := update defaultPolicy .api raisedApi } : Site).baseLimits 1 .api).tokens .window =
      60000 := by
  have carried : (freshSite.apply 0 automaticRequest).isSome := by decide +kernel
  rcases isSome_iff_exists.mp carried with ⟨after, applied⟩
  rcases approved_floor freshSite after 0 automaticRequest .window applied rfl rfl rfl with ⟨amount, same, _, floor⟩
  have approved : (amount : ℚ) = 50000 := by
    rw [same]
    decide +kernel
  have settings : ((freshSite.apply 0 automaticRequest).map fun after =>
      tiered ((after.policies .api).period .window) (resolveTier (after.preferences 1).tierId after.tiers)) = some 45000 := by
    decide +kernel
  rw [applied, map_some, Option.some.injEq] at settings
  have start : (limitsDesk after automaticRequest.userId automaticRequest.service .window).Reachable ⟨after, []⟩ := .start rfl
  have raised := start.run [.policies (update defaultPolicy .api raisedApi)] ⟨trivial, trivial⟩
  refine ⟨after, applied, ?_, ?_⟩
  · refine (floor _ start).1.trans ?_
    have policy : tiered ((after.policies automaticRequest.service).period .window)
        (resolveTier (after.preferences automaticRequest.userId).tierId after.tiers) = 45000 := settings
    rw [policy, approved]
    norm_num
  · refine (floor _ raised).1.trans ?_
    have policy : ∀ tier, tiered raisedApi.window tier = 60000 := by
      intro tier
      cases tier <;> norm_num [tiered, raisedApi]
    have raised' : ∀ site : Site, tiered ((({ site with policies := update defaultPolicy .api raisedApi } : Site).policies
        automaticRequest.service).period .window) (resolveTier (after.preferences 1).tierId after.tiers) = 60000 :=
      fun site => policy _
    rw [approved]
    refine (congrArg (max 50000) (raised' after)).trans ?_
    norm_num

end BananaChat.Allowances

import BananaChat.Migrations.SingleTokenBudget

namespace BananaChat.Migrations

open Foundation LimitOverride Database

/-!
# Version 16, run again

A second run finds the merged amounts, which it reads as they are.
-/

theorem limitedTo_le (maximum : ℕ) (number : ℚ) : limitedTo maximum number <= maximum := by
  unfold limitedTo
  rw [Nat.ceil_le]
  exact max_le (Nat.cast_nonneg maximum) (min_le_left _ _)

variable {maximum tokens : ℕ} (rounding : FloatRounding) {window : OldWindow}

theorem limitedTo_natCast (below : tokens <= maximum) : limitedTo maximum (tokens : ℚ) = tokens := by
  unfold limitedTo
  rw [min_eq_right (Nat.cast_le.mpr below), max_eq_right (Nat.cast_nonneg tokens), Nat.ceil_natCast]

theorem amount_stored (below : tokens <= maximum) (fallback : ℚ) : amount (stored tokens) fallback maximum = tokens :=
  limitedTo_natCast below

theorem total_le (first second maximum : ℕ) : total first second maximum <= maximum := min_le_left _ _

theorem total_zero (below : tokens <= maximum) : total tokens 0 maximum = tokens := min_eq_right below

theorem le_total {first : ℕ} (below : first <= maximum) (second : ℕ) : first <= total first second maximum :=
  le_min below (Nat.le_add_right _ _)

theorem amount_le (value : Option Stored) (fallback : ℚ) (maximum : ℕ) : amount value fallback maximum <= maximum :=
  limitedTo_le _ _

theorem fromTokensOrCredits_le (tokens credits : Option Stored) (default : ℕ) :
  fromTokensOrCredits rounding tokens credits default <= tokensMax := by
  unfold fromTokensOrCredits
  split
  · exact amount_le _ _ _
  · exact limitedTo_le _ _

theorem fromTokensOrCredits_stored (below : tokens <= tokensMax) (credits : Option Stored) (default : ℕ) :
  fromTokensOrCredits rounding (stored tokens) credits default = tokens :=
  amount_stored below 0

theorem tierDefault_mono {factor : ℚ} (nonneg : 0 <= factor) {fewer more : ℕ} (below : fewer <= more) :
  tierDefault rounding factor fewer <= tierDefault rounding factor more := by
  have products : (fewer : ℚ) * factor <= more * factor := mul_le_mul_of_nonneg_right (Nat.cast_le.mpr below) nonneg
  refine Nat.floor_mono (rounding.monotone ?_)
  exact add_le_add_left (min_le_min_left _ (rounding.monotone products)) _

theorem tierDefault_le (factor : ℚ) (tokens : ℕ) : tierDefault rounding factor tokens <= overrideWindowMax := by
  have step : rounding.nearest (1 / 1000000) <= 1 / 1000 := by
    have near := (abs_le.mp (rounding.near (1 / 1000000) (by norm_num [abs_of_pos]))).2
    linarith
  have most : rounding.nearest (overrideWindowMax + 1 / 1000 : ℚ) < overrideWindowMax + 1 := by
    have positive : (0 : ℚ) < overrideWindowMax + 1 / 1000 := by norm_num [overrideWindowMax]
    have near := (abs_le.mp (rounding.near (overrideWindowMax + 1 / 1000)
      (by rw [abs_of_pos positive]; norm_num [overrideWindowMax]))).2
    norm_num [overrideWindowMax] at near ⊢
    linarith
  unfold tierDefault
  rw [<- Nat.lt_succ_iff, Nat.floor_lt']
  · have below := rounding.monotone (add_le_add (min_le_left (overrideWindowMax : ℚ) (rounding.nearest (tokens * factor))) step)
    rw [Nat.succ_eq_add_one, Nat.cast_add, Nat.cast_one]
    exact below.trans_lt most
  · exact Nat.succ_ne_zero _

theorem component_le {automatic : Bool} {value : Option Stored} {default : ℕ} (below : default <= overrideWindowMax) :
  component automatic value default <= overrideWindowMax := by
  unfold component
  split
  · exact below
  · split
    · exact max_le (amount_le _ _ _) below
    · exact amount_le _ _ _

theorem component_stored (automatic : Bool) (below : tokens <= overrideWindowMax) (default : ℕ) :
  component automatic (stored tokens) default = if automatic then max tokens default else tokens := by
  unfold component stored
  dsimp only
  have same : amount (some (.number tokens)) 0 overrideWindowMax = tokens := amount_stored below 0
  rw [same]

theorem le_component_stored (automatic : Bool) (below : tokens <= overrideWindowMax) (default : ℕ) :
  tokens <= component automatic (stored tokens) default := by
  rw [component_stored automatic below]
  split
  · exact le_max_left _ _
  · exact le_refl _

theorem factor_nonneg (multiplier : Option Stored) : 0 <= factor multiplier := by
  unfold factor
  split
  · exact le_max_left _ _
  · exact zero_le_one

section Policies

variable {Other : Type}

theorem regular_le (slowEnabled : Bool) (pool : String) (config : PolicyConfig Other) :
  (config.oldWindow slowEnabled pool).regular <= tokensMax := by
  refine (amount_le _ _ _).trans ?_
  split
  · exact le_refl _
  · decide

theorem oldWindow_merged (slowEnabled again : Bool) (pool : String) (config : PolicyConfig Other) :
  (config.merged slowEnabled pool).oldWindow again pool =
    ⟨total (config.oldWindow slowEnabled pool).regular (config.oldWindow slowEnabled pool).slow tokensMax, 0,
      config.autoTiers⟩ := by
  change PolicyConfig.oldWindow again pool ⟨.three, stored (total (config.oldWindow slowEnabled pool).regular
    (config.oldWindow slowEnabled pool).slow tokensMax), none, config.autoTiers, config.other⟩ = _
  generalize config.oldWindow slowEnabled pool = window
  unfold PolicyConfig.oldWindow
  rw [if_pos rfl, if_neg (·.2 rfl), amount_stored (total_le _ _ _)]

theorem policy_again (slowEnabled again : Bool) (pool : String) (config : PolicyConfig Other) :
  (config.merged slowEnabled pool).merged again pool = config.merged slowEnabled pool := by
  have window := oldWindow_merged slowEnabled again pool config
  have same : total ((config.merged slowEnabled pool).oldWindow again pool).regular
      ((config.merged slowEnabled pool).oldWindow again pool).slow tokensMax =
        total (config.oldWindow slowEnabled pool).regular (config.oldWindow slowEnabled pool).slow tokensMax := by
    rw [window]
    exact total_zero (total_le _ _ _)
  change PolicyConfig.mk .three (stored (total ((config.merged slowEnabled pool).oldWindow again pool).regular
    ((config.merged slowEnabled pool).oldWindow again pool).slow tokensMax)) none config.autoTiers config.other = _
  rw [same]
  rfl

end Policies

theorem request_merged (slowEnabled : Bool) (row : LimitRequest) (counted : row.kind = "daily" \/ row.kind = "window") :
  ∃ sum : ℕ, sum <= tokensMax /\ sum = total (fromTokensOrCredits rounding row.newTokens row.newCredits 0)
      (if slowEnabled then fromTokensOrCredits rounding row.newSlowTokens row.newSlowCredits 0 else 0) tokensMax /\
    row.merged rounding slowEnabled =
      ⟨row.kind, stored sum, stored ⌈rounding.nearest (sum / tokensPerCredit)⌉₊, stored 0, stored 0⟩ := by
  refine ⟨_, total_le _ _ _, rfl, ?_⟩
  unfold LimitRequest.merged
  dsimp only
  rw [if_pos counted]

theorem request_again (slowEnabled : Bool) (row : LimitRequest) :
  (row.merged rounding slowEnabled).merged rounding false = row.merged rounding slowEnabled := by
  by_cases counted : row.kind = "daily" \/ row.kind = "window"
  · rcases request_merged rounding slowEnabled row counted with ⟨sum, below, _, first⟩
    rw [first]
    rcases request_merged rounding false ⟨row.kind, stored sum, _, stored 0, stored 0⟩ counted with
      ⟨again, _, isAgain, second⟩
    rw [fromTokensOrCredits_stored rounding below, if_neg Bool.false_ne_true, total_zero below] at isAgain
    rw [second, isAgain]
  · have left (slow : Bool) : row.merged rounding slow = { row with newSlowTokens := stored 0, newSlowCredits := stored 0 } := by
      unfold LimitRequest.merged
      dsimp only
      rw [if_neg counted]
    rw [left]
    unfold LimitRequest.merged
    dsimp only
    rw [if_neg counted]

theorem settings_again (settings : SiteSettings) :
  (settings.merged rounding).merged rounding = settings.merged rounding := by
  have merged_le (slowEnabled : Bool) (tokens slow : ℕ) (below : tokens <= tokensMax) :
      (if slowEnabled then total tokens slow tokensMax else tokens) <= tokensMax := by
    split
    · exact total_le _ _ _
    · exact below
  unfold SiteSettings.merged
  dsimp only
  rw [if_neg Bool.false_ne_true, if_neg Bool.false_ne_true,
    fromTokensOrCredits_stored rounding (merged_le _ _ _ (fromTokensOrCredits_le _ _ _ _)),
    fromTokensOrCredits_stored rounding (merged_le _ _ _ (fromTokensOrCredits_le _ _ _ _)), amount_stored (amount_le _ _ _)]

section Overrides

variable {Other : Type} {row : LimitOverride Other}

theorem sum_le (slowEnabled : Bool) (window : OldWindow) (factor : ℚ) (row : LimitOverride Other) :
  row.sum rounding slowEnabled window factor <= overrideWindowMax :=
  total_le _ _ _

theorem merged_windowTokens (slowEnabled : Bool) (window : OldWindow) (factor : ℚ) (row : LimitOverride Other) :
  (row.merged rounding slowEnabled window factor).windowTokens =
    if row.explicit slowEnabled then stored (row.sum rounding slowEnabled window factor) else none :=
  rfl

theorem merged_explicit (slowEnabled : Bool) (window : OldWindow) (factor : ℚ) (row : LimitOverride Other) :
  (row.merged rounding slowEnabled window factor).explicit false = row.explicit slowEnabled := by
  conv_lhs => unfold explicit
  rw [merged_windowTokens, Bool.false_and, Bool.or_false]
  cases row.explicit slowEnabled with
  | true | false => rfl

theorem mem_merged_automatic (slowEnabled : Bool) (window : OldWindow) (factor : ℚ) (row : LimitOverride Other)
  (name : String) : name ∈ (row.merged rounding slowEnabled window factor).automatic ↔
    if name = "window_tokens" then row.explicit slowEnabled = true /\ row.allAutomatic slowEnabled
    else (name = "rate_rules" \/ name = "weekly_tokens") /\ name ∈ row.automatic := by
  change name ∈ row.floors slowEnabled ↔ _
  unfold floors
  rw [List.mem_filter]
  by_cases isWindow : name = "window_tokens"
  · rw [if_pos isWindow, if_pos isWindow, Bool.and_eq_true, isWindow]
    exact and_iff_right (by decide)
  · simp [isWindow]

theorem merged_allAutomatic (slowEnabled : Bool) (window : OldWindow) (factor : ℚ)
  (explicit : row.explicit slowEnabled) :
  (row.merged rounding slowEnabled window factor).allAutomatic false = row.allAutomatic slowEnabled := by
  conv_lhs => unfold allAutomatic
  have isSome : (row.merged rounding slowEnabled window factor).windowTokens.isNone = false := by
    rw [merged_windowTokens, if_pos explicit]
    rfl
  rw [isSome, Bool.false_or, Bool.not_false, Bool.true_or, Bool.true_or, Bool.and_true]
  refine Bool.eq_iff_iff.mpr ?_
  rw [decide_eq_true_eq, mem_merged_automatic, if_pos rfl, and_iff_right explicit]

theorem floors_again (slowEnabled : Bool) (window : OldWindow) (factor : ℚ) (row : LimitOverride Other) :
  (row.merged rounding slowEnabled window factor).floors false = row.floors slowEnabled := by
  refine List.filter_congr (fun name listed => ?_)
  by_cases isWindow : name = "window_tokens"
  · rw [if_pos isWindow, if_pos isWindow, merged_explicit]
    cases explicit : row.explicit slowEnabled with
    | false => rw [Bool.false_and, Bool.false_and]
    | true => rw [merged_allAutomatic rounding slowEnabled window factor explicit]
  · rw [if_neg isWindow, if_neg isWindow]
    refine Bool.eq_iff_iff.mpr ?_
    rw [decide_eq_true_eq, decide_eq_true_eq, mem_merged_automatic, if_neg isWindow]
    refine and_iff_right ?_
    simpa [isWindow] using listed

theorem merged_sum (slowEnabled : Bool) (window later : OldWindow) (factor : ℚ) (explicit : row.explicit slowEnabled) :
  (row.merged rounding slowEnabled window factor).sum rounding false later factor =
    if row.allAutomatic slowEnabled then
      max (row.sum rounding slowEnabled window factor) (tierDefault rounding factor later.regular)
    else row.sum rounding slowEnabled window factor := by
  have isAutomatic : decide ("window_tokens" ∈ (row.merged rounding slowEnabled window factor).automatic) =
      row.allAutomatic slowEnabled := by
    refine Bool.eq_iff_iff.mpr ?_
    rw [decide_eq_true_eq, mem_merged_automatic, if_pos rfl, and_iff_right explicit]
  conv_lhs => unfold sum
  rw [merged_windowTokens, if_pos explicit, isAutomatic, if_neg Bool.false_ne_true, total_zero,
    component_stored _ (sum_le _ _ _ _ _)]
  rw [component_stored _ (sum_le _ _ _ _ _)]
  split
  · exact max_le (sum_le _ _ _ _ _) (tierDefault_le _ _ _)
  · exact sum_le _ _ _ _ _

theorem regularBudget_merged (slowEnabled : Bool) (factor : ℚ) {later : ℕ} (row : LimitOverride Other)
  (more : tierDefault rounding factor window.regular <= later) :
  regularBudgetWith (tierDefault rounding factor window.regular) (some row) <= regularBudgetWith later
      ((some (row.merged rounding slowEnabled window factor)).filter (!·.isEmpty)) := by
  have windowTokens := merged_windowTokens rounding slowEnabled window factor row
  cases explicit : row.explicit slowEnabled with
  | false =>
    -- Nothing was set for the window, so both budgets are inherited, be the row deleted or not.
    have inherited : row.windowTokens = none := by
      exact Option.isSome_eq_false_iff.mp (Bool.or_eq_false_iff.mp explicit).1 |> Option.isNone_iff_eq_none.mp
    rw [explicit, if_neg Bool.false_ne_true] at windowTokens
    rw [Option.filter_some]
    unfold regularBudgetWith
    dsimp only
    rw [inherited]
    split
    · exact more
    · rename_i found isFound
      split at isFound
      · cases isFound
        rw [windowTokens]
        exact more
      · cases isFound
  | true =>
    rw [explicit, if_pos rfl] at windowTokens
    have present : (row.merged rounding slowEnabled window factor).isEmpty = false := by
      unfold isEmpty
      rw [windowTokens]
      rfl
    rw [Option.filter_some, present, Bool.not_false, if_pos rfl]
    unfold regularBudgetWith
    dsimp only
    rw [windowTokens]
    exact (le_total (component_le (tierDefault_le _ _ _)) _).trans (le_component_stored _ (sum_le _ _ _ _ _) _)

def LimitOverride.AddsUp (rounding : FloatRounding) (slowEnabled : Bool) (window : OldWindow) (factor : ℚ)
  (row : LimitOverride Other) : Prop :=
  row.explicit slowEnabled -> row.allAutomatic slowEnabled ->
    tierDefault rounding factor (total window.regular window.slow tokensMax) <= row.sum rounding slowEnabled window factor

theorem override_again_iff (slowEnabled : Bool) {later : OldWindow} (factor : ℚ) (row : LimitOverride Other)
  (isLater : later.regular = total window.regular window.slow tokensMax) :
  (row.merged rounding slowEnabled window factor).merged rounding false later factor =
      row.merged rounding slowEnabled window factor ↔
    row.AddsUp rounding slowEnabled window factor := by
  have windowTokens : ((row.merged rounding slowEnabled window factor).merged rounding false later factor).windowTokens =
      if row.explicit slowEnabled then
        stored ((row.merged rounding slowEnabled window factor).sum rounding false later factor) else none := by
    rw [merged_windowTokens, merged_explicit]
  constructor
  · intro same explicit automatic
    rw [same, merged_windowTokens, if_pos explicit, if_pos explicit, merged_sum rounding slowEnabled window later factor explicit,
      if_pos automatic, isLater] at windowTokens
    have equal : row.sum rounding slowEnabled window factor =
        max (row.sum rounding slowEnabled window factor)
          (tierDefault rounding factor (total window.regular window.slow tokensMax)) := by
      exact_mod_cast Stored.number.inj (Option.some.inj windowTokens)
    rw [equal]
    exact le_max_right _ _
  · intro addsUp
    have sameTokens : ((row.merged rounding slowEnabled window factor).merged rounding false later factor).windowTokens =
        (row.merged rounding slowEnabled window factor).windowTokens := by
      rw [windowTokens, merged_windowTokens]
      cases explicit : row.explicit slowEnabled with
      | false => rfl
      | true =>
        rw [if_pos rfl, if_pos rfl, merged_sum rounding slowEnabled window later factor explicit]
        cases automatic : row.allAutomatic slowEnabled with
        | false => rfl
        | true => rw [if_pos rfl, isLater, max_eq_left (addsUp explicit automatic)]
    have sameNames := floors_again rounding slowEnabled window factor row
    change mk
      ((row.merged rounding slowEnabled window factor).merged rounding false later factor).windowTokens (stored 0) (stored 0)
      row.weeklyTokens row.rateRules ((row.merged rounding slowEnabled window factor).floors false) row.other = _
    rw [sameTokens, sameNames]
    rfl

end Overrides

section Upgrade

variable {Other : Type} {row : LimitOverride Other}

theorem policies_upgrade (database : Database Other) (pool : String) :
  (upgrade rounding database).policies pool = (database.policies pool).map (fun policy =>
    .current ((policy.config rounding pool).merged database.settings.slowCreditsEnabled pool)) :=
  rfl

theorem oldWindow_upgrade (database : Database Other) (pool : String) :
  (upgrade rounding database).oldWindow rounding pool =
    ⟨total (database.oldWindow rounding pool).regular (database.oldWindow rounding pool).slow tokensMax, 0,
      (database.oldWindow rounding pool).tiered⟩ := by
  unfold oldWindow
  rw [policies_upgrade]
  cases database.policies pool with
  | none => rfl
  | some policy => exact oldWindow_merged _ _ pool (policy.config rounding pool)

theorem factorIn_upgrade (database : Database Other) (userId pool : String) :
  (upgrade rounding database).factorIn rounding userId pool = database.factorIn rounding userId pool := by
  unfold factorIn
  rw [oldWindow_upgrade]
  rfl

theorem factorIn_nonneg (database : Database Other) (userId pool : String) :
  0 <= database.factorIn rounding userId pool := by
  unfold factorIn tierFactor
  split
  · cases (database.userTiers userId).bind (Dictionary.get? · database.tiers) with
    | some multiplier => exact factor_nonneg multiplier
    | none =>
      cases database.tiers with
      | nil => exact zero_le_one
      | cons tier others => exact factor_nonneg tier.2
  · exact zero_le_one

theorem regular_le_max (database : Database Other) (pool : String) :
  (database.oldWindow rounding pool).regular <= tokensMax := by
  unfold oldWindow
  split
  · exact regular_le _ _ _
  · decide

theorem tierDefault_upgrade (database : Database Other) (userId pool : String) :
  tierDefault rounding (database.factorIn rounding userId pool) (database.oldWindow rounding pool).regular <=
    tierDefault rounding ((upgrade rounding database).factorIn rounding userId pool)
      ((upgrade rounding database).oldWindow rounding pool).regular := by
  rw [factorIn_upgrade, oldWindow_upgrade]
  exact tierDefault_mono rounding (factorIn_nonneg _ _ _ _) (le_total (regular_le_max _ _ _) _)

theorem overrides_upgrade (database : Database Other) {userId pool : String}
  (isRow : database.overrides userId pool = some row) : (upgrade rounding database).overrides userId pool =
    (some (row.merged rounding database.settings.slowCreditsEnabled (database.oldWindow rounding pool)
      (database.factorIn rounding userId pool))).filter (!·.isEmpty) := by
  unfold upgrade
  dsimp only
  rw [isRow]
  rfl

theorem overrides_upgrade_none (database : Database Other) {userId pool : String}
  (absent : database.overrides userId pool = none) : (upgrade rounding database).overrides userId pool = none := by
  unfold upgrade
  dsimp only
  rw [absent]
  rfl

theorem regularBudget_upgrade (database : Database Other) (userId pool : String) :
  database.regularBudget rounding userId pool <= (upgrade rounding database).regularBudget rounding userId pool := by
  have default := tierDefault_upgrade rounding database userId pool
  unfold regularBudget
  cases isRow : database.overrides userId pool with
  | none =>
    rw [overrides_upgrade_none rounding database isRow]
    exact default
  | some row =>
    rw [overrides_upgrade rounding database isRow]
    exact regularBudget_merged rounding _ _ row default

/--
While there is a slow allowance, every custom limit whose components are automatic, as far
as they are set, adds up: the share of both allowances together is within what the
components come to, each of which is the share of its own allowance at least.
-/
def FloorsAddUp (rounding : FloatRounding) (database : Database Other) : Prop :=
  database.settings.slowCreditsEnabled -> ∀ userId pool row, database.overrides userId pool = some row ->
    row.explicit true -> row.allAutomatic true -> tierDefault rounding (database.factorIn rounding userId pool)
          (total (database.oldWindow rounding pool).regular (database.oldWindow rounding pool).slow tokensMax) <=
        max (amount row.windowTokens 0 overrideWindowMax)
            (tierDefault rounding (database.factorIn rounding userId pool) (database.oldWindow rounding pool).regular) +
          max (amount row.windowSlowTokens 0 overrideWindowMax)
            (tierDefault rounding (database.factorIn rounding userId pool) (database.oldWindow rounding pool).slow)

theorem component_automatic {automatic : Bool} (value : Option Stored) (default : ℕ)
  (isAutomatic : (value.isNone || automatic)) :
  component automatic value default = max (amount value 0 overrideWindowMax) default := by
  cases value with
  | none =>
    have nothing : amount none 0 overrideWindowMax = 0 := limitedTo_natCast (Nat.zero_le _)
    exact (Nat.zero_max default).symm
  | some value =>
    rw [Option.isNone_some, Bool.false_or] at isAutomatic
    rw [isAutomatic]
    rfl

theorem addsUp_slow_iff (window : OldWindow) (factor : ℚ) (row : LimitOverride Other) :
  row.AddsUp rounding true window factor ↔ (row.explicit true -> row.allAutomatic true ->
      tierDefault rounding factor (total window.regular window.slow tokensMax) <=
        max (amount row.windowTokens 0 overrideWindowMax) (tierDefault rounding factor window.regular) +
          max (amount row.windowSlowTokens 0 overrideWindowMax) (tierDefault rounding factor window.slow)) := by
  refine forall_congr' (fun _ => forall_congr' fun automatic => ?_)
  unfold allAutomatic at automatic
  rw [Bool.not_true, Bool.false_or, Bool.and_eq_true] at automatic
  unfold sum
  rw [if_pos rfl, component_automatic _ _ automatic.1, component_automatic _ _ automatic.2]
  exact le_min_iff.trans (and_iff_right (tierDefault_le _ _ _))

theorem addsUp_of_no_slow (factor : ℚ) (row : LimitOverride Other) (noSlow : window.slow = 0)
  (below : window.regular <= tokensMax) : row.AddsUp rounding false window factor := by
  intro explicit automatic
  unfold LimitOverride.explicit at explicit
  unfold LimitOverride.allAutomatic at automatic
  rw [Bool.false_and, Bool.or_false] at explicit
  rcases Option.isSome_iff_exists.mp explicit with ⟨_, isValue⟩
  rw [isValue, Bool.not_false, Bool.true_or, Bool.true_or, Bool.and_true, Option.isNone_some, Bool.false_or] at automatic
  unfold LimitOverride.sum
  rw [noSlow, total_zero below, if_neg Bool.false_ne_true, total_zero (component_le (tierDefault_le _ _ _)), isValue, automatic]
  exact le_max_right _ _

structure RunsAgain (rounding : FloatRounding) (database : Database Other) : Prop where
  same : upgrade rounding (upgrade rounding database) = upgrade rounding database
  policies : ∀ pool, (database.oldWindow rounding pool).regular <=
    ((upgrade rounding database).oldWindow rounding pool).regular
  overrides : ∀ userId pool,
    database.regularBudget rounding userId pool <= (upgrade rounding database).regularBudget rounding userId pool

theorem overrides_again_iff (database : Database Other) (userId pool : String) :
  (upgrade rounding (upgrade rounding database)).overrides userId pool = (upgrade rounding database).overrides userId pool ↔
    ∀ row, database.overrides userId pool = some row ->
      row.AddsUp rounding database.settings.slowCreditsEnabled (database.oldWindow rounding pool)
        (database.factorIn rounding userId pool) := by
  cases isRow : database.overrides userId pool with
  | none =>
    have first := overrides_upgrade_none rounding database isRow
    refine iff_of_true ?_ (fun row found => ?_)
    · rw [first]
      exact overrides_upgrade_none rounding _ first
    · cases found
  | some row =>
    have first := overrides_upgrade rounding database isRow
    have again := override_again_iff rounding database.settings.slowCreditsEnabled (database.factorIn rounding userId pool) row
      (congrArg OldWindow.regular (oldWindow_upgrade rounding database pool))
    have only (property : LimitOverride Other -> Prop) :
        (∀ found, some row = some found -> property found) ↔ property row :=
      ⟨fun all => all row rfl, fun own found same => Option.some.inj same ▸ own⟩
    rw [only, <- again]
    generalize isMerged : row.merged rounding database.settings.slowCreditsEnabled (database.oldWindow rounding pool)
      (database.factorIn rounding userId pool) = merged at first again ⊢
    cases empty : merged.isEmpty with
    | true =>
      rw [Option.filter_some, empty, Bool.not_true, if_neg Bool.false_ne_true] at first
      have second := overrides_upgrade_none rounding (upgrade rounding database) first
      refine iff_of_true (second.trans first.symm) (again.mpr fun explicit _ => ?_)
      -- A deleted row has nothing explicit.
      have noTokens := Option.isNone_iff_eq_none.mp (Bool.and_eq_true_iff.mp (Bool.and_eq_true_iff.mp empty).1).1
      rw [<- isMerged, merged_windowTokens, if_pos explicit] at noTokens
      cases noTokens
    | false =>
      rw [Option.filter_some, empty, Bool.not_false, if_pos rfl] at first
      rw [overrides_upgrade rounding (upgrade rounding database) first, first, factorIn_upgrade, Option.filter_eq_some_iff]
      refine ⟨fun both => Option.some.inj both.1, fun same => ⟨congrArg some same, ?_⟩⟩
      rw [empty]
      rfl

/-- The upgrade can run again on exactly the databases whose automatic limits add up. -/
theorem runs_again_iff (rounding : FloatRounding) (database : Database Other) :
  RunsAgain rounding database ↔ FloorsAddUp rounding database := by
  constructor
  · intro runs enabled userId pool row isRow
    have same := (overrides_again_iff rounding database userId pool).mp
      (congrArg (·.overrides userId pool) runs.same) row isRow
    rw [enabled] at same
    exact (addsUp_slow_iff rounding _ _ row).mp same
  · intro addUp
    have policies (pool : String) :
        (upgrade rounding (upgrade rounding database)).policies pool = (upgrade rounding database).policies pool := by
      rw [policies_upgrade, policies_upgrade]
      cases database.policies pool with
      | none => rfl
      | some policy => exact congrArg (fun config => some (StoredPolicy.current config)) (policy_again _ _ pool _)
    have overrides (userId pool : String) : (upgrade rounding (upgrade rounding database)).overrides userId pool =
        (upgrade rounding database).overrides userId pool := by
      refine (overrides_again_iff rounding database userId pool).mpr (fun row isRow => ?_)
      cases enabled : database.settings.slowCreditsEnabled with
      | true => exact (addsUp_slow_iff rounding _ _ row).mpr (addUp enabled userId pool row isRow)
      | false =>
        refine addsUp_of_no_slow rounding _ row ?_ (regular_le_max _ _ _)
        unfold Database.oldWindow PolicyConfig.oldWindow
        rw [enabled]
        split
        · dsimp only
          exact if_neg (fun both : false /\ _ => Bool.false_ne_true both.1)
        · rfl
    have requests (id : ℕ) :
        (upgrade rounding (upgrade rounding database)).requests id = (upgrade rounding database).requests id := by
      change ((database.requests id).map _).map _ = (database.requests id).map _
      rw [Option.map_map]
      exact congrArg (Option.map · (database.requests id)) (funext (request_again rounding _))
    refine ⟨?_, fun pool => ?_, regularBudget_upgrade rounding database⟩
    · change Database.mk (upgrade rounding (upgrade rounding database)).settings
        (upgrade rounding (upgrade rounding database)).policies database.tiers database.userTiers
        (upgrade rounding (upgrade rounding database)).overrides (upgrade rounding (upgrade rounding database)).requests = _
      rw [funext policies, funext (fun userId => funext (overrides userId)), funext requests,
        show (upgrade rounding (upgrade rounding database)).settings = (upgrade rounding database).settings from
          settings_again rounding database.settings]
      rfl
    · rw [oldWindow_upgrade]
      exact le_total (regular_le_max _ _ _) _

def exactRounding : FloatRounding where
  nearest value := value
  monotone _ _ below := below
  near value _ := by
    rw [sub_self, abs_zero]
    positivity

def tieredDatabase : Database Unit where
  settings := ⟨true, none, none, none, none, none, none, none, none, none⟩
  policies pool := if pool = "chat" then some (.current ⟨.two, stored 33333, stored 33333, true, ()⟩) else none
  tiers := [(1, some (.number (3 / 2)))]
  userTiers _ := some 1
  overrides userId pool :=
    if userId = "ann" /\ pool = "chat" then
      some ⟨stored 40000, none, none, none, none, ["window_tokens"], ()⟩
    else none
  requests _ := none

/-- 49999 tokens twice, and half as much again of 66666. -/
theorem second_run_raises : ¬ RunsAgain exactRounding tieredDatabase := by
  intro runs
  have addsUp := (runs_again_iff exactRounding tieredDatabase).mp runs rfl "ann" "chat" _ rfl rfl rfl
  revert addsUp
  decide +kernel

end Upgrade

end BananaChat.Migrations

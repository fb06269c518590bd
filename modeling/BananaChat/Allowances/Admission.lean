import BananaChat.Allowances.Models

namespace BananaChat.Allowances

open Limits List Option Credits Bool

/-!
# Admission and the choice of models

`admit` decides whether a request can run with a model; `modelBlocked` asks the same without taking
anything, for `preferUsable` and `quotaFallback`, which move a request to another model when its own
is used up.
-/

/-- The message of a refusal with its parameters.  Dates are to the minute. -/
inductive RefusalKey
  | weekly (date : Option ℤ)
  | windowNone
  | window (date : Option ℤ)
  | modelLocked (model : String)
  | modelWindowNone (model : String)
  | modelWeekly (date : Option ℤ) (model : String)
  | modelWindow (date : Option ℤ) (model : String)
  | modelRate (model : String) (rule : Option RateRule) (seconds : ℤ)

structure Refusal where
  code : String
  status : ℕ
  retryAfter : Option ℤ
  key : RefusalKey

/-- `_seconds_until`: whole seconds, a minute at least. -/
def secondsUntil (now : ℚ) (moment : Option ℤ) : ℤ :=
  match moment with
  | none => 3600
  | some moment => max 60 ⌈(moment : ℚ) - now⌉

structure Budget where
  unlimited : Bool
  regularLimit : ℚ
  regularUsed : ℚ
  weeklyLimit : Option ℚ
  weeklyUsed : ℚ
  resetsAt : Option ℤ
  weeklyResetsAt : Option ℤ

namespace Budget

section

variable (budget : Budget)

def weeklyLeft : ℚ :=
  if budget.unlimited then unlimitedTokens
  else
    match budget.weeklyLimit with
    | none => unlimitedTokens
    | some limit => max 0 (limit - budget.weeklyUsed)

def regularLeft : ℚ :=
  if budget.unlimited then unlimitedTokens
  else min (max 0 (budget.regularLimit - budget.regularUsed)) budget.weeklyLeft

def available : Bool := budget.unlimited || (0 < budget.regularLeft)

def weeklyExhausted : Bool := !budget.unlimited && budget.weeklyLimit.isSome && (budget.weeklyLeft <= 0)

def blockedUntil : Option ℤ := if budget.weeklyExhausted then budget.weeklyResetsAt else budget.resetsAt

end

end Budget

namespace Effective

def unlimited (effective : Effective) : Bool := effective.admin || !(effective.window.limited || effective.weekly.limited)

/-- `budget` of the limits in force. -/
def budget (effective : Effective) : Budget :=
  if effective.unlimited then
    ⟨true, unlimitedTokens, 0, none, 0, effective.window.resetsAt, effective.weekly.resetsAt⟩
  else
    { unlimited := false
      regularLimit := if effective.window.limited then effective.window.tokens else unlimitedTokens
      regularUsed := effective.window.used
      weeklyLimit := if effective.weekly.limited then some effective.weekly.tokens else none
      weeklyUsed := effective.weekly.used
      resetsAt := effective.window.resetsAt
      weeklyResetsAt := effective.weekly.resetsAt }

end Effective

def poolRefusal (now : ℚ) (budget : Budget) : Refusal :=
  if budget.weeklyExhausted then
    ⟨"insufficient_quota", 429, some (secondsUntil now budget.blockedUntil), .weekly (minuteOf budget.weeklyResetsAt)⟩
  else if budget.resetsAt = none then ⟨"insufficient_quota", 429, some 3600, .windowNone⟩
  else ⟨"insufficient_quota", 429, some (secondsUntil now budget.blockedUntil), .window (minuteOf budget.resetsAt)⟩

def modelRefusal (now : ℚ) (limits : ModelLimits) (consumeTokens : Bool) : Option Refusal :=
  if limits.admin then none
  else if limits.locked then some ⟨"model_locked", 403, none, .modelLocked limits.name⟩
  else if limits.capacity <= 0 then
    -- an exemption provides no capacity on an exhausted provider
    some ⟨"insufficient_quota", 429, some 3600, .modelWindowNone limits.name⟩
  else if consumeTokens = false then none
  else if limits.weekly.exhausted then
    some ⟨"insufficient_quota", 429, some (secondsUntil now limits.weekly.resetsAt),
      .modelWeekly (minuteOf limits.weekly.resetsAt) limits.name⟩
  else if limits.window.exhausted then
    if limits.window.resetsAt = none then some ⟨"insufficient_quota", 429, some 3600, .modelWindowNone limits.name⟩
    else
      some ⟨"insufficient_quota", 429, some (secondsUntil now limits.window.resetsAt),
        .modelWindow (minuteOf limits.window.resetsAt) limits.name⟩
  else none

structure Admission where
  refusal : Option Refusal
  budget : Budget
  model : Option ModelLimits
  rate : Option RateDecision

def Admission.allowed (admission : Admission) : Bool := admission.refusal.isNone

namespace Site

variable (site : Site) (now : ℚ)

def budget (user : Credits.User) (pool : Pool) : Budget := (site.effective now user pool).budget

section

variable (buckets : RateBuckets BucketKey) (user : Credits.User) (pool : Pool) (model : Option Credits.AiModel)

/-- `_admit`, with the rate buckets before and after it. -/
def admitMember
  (takeRate : Bool) : RateBuckets BucketKey × Admission :=
  let consumeTokens := site.catalog.consumesTokenLimits model pool
  let counted := consumeTokens && (match model with | none => true | some model => site.catalog.countsTowardPool model)
  let budget := if consumeTokens then site.budget now user pool else (adminResult pool).budget
  if counted && !budget.available then (buckets, ⟨some (poolRefusal now budget), budget, none, none⟩)
  else
    match model with
    | none => (buckets, ⟨none, budget, none, none⟩)
    | some model =>
      let limits := site.modelLimits now user model
      match modelRefusal now limits consumeTokens with
      | some refusal => (buckets, ⟨some refusal, budget, some limits, none⟩)
      | none =>
        let given := if counted then budget else (adminResult pool).budget
        if takeRate && limits.rate.limited then
          let taken := Limits.take buckets (.model model.id) user.id limits.rate.toRateLimit now
          if taken.2.allowed then (taken.1, ⟨none, given, some limits, some taken.2⟩)
          else
            (taken.1, ⟨some ⟨"rate_limit_exceeded", 429, some taken.2.retryAfter,
              .modelRate limits.name taken.2.rule taken.2.retryAfter⟩, budget, some limits, some taken.2⟩)
        else (buckets, ⟨none, given, some limits, none⟩)

/-- `admit`. -/
def admitRequest
  (takeRate : Bool) : RateBuckets BucketKey × Admission :=
  if user.admin then (buckets, ⟨none, (adminResult pool).budget, none, none⟩)
  else site.admitMember now buckets user pool model takeRate

end

def modelBlocked (user : Credits.User) (model : Credits.AiModel) (pool : Option Pool) (budget : Option Budget) : Bool :=
  if user.admin then false
  else
    let consumeTokens := match pool with | none => true | some pool => site.catalog.consumesTokenLimits (some model) pool
    let spent :=
      match pool with
      | none => false
      | some pool =>
        consumeTokens && site.catalog.countsTowardPool model && !(budget.getD (site.budget now user pool)).available
    if spent then true else (modelRefusal now (site.modelLimits now user model) consumeTokens).isSome

/-- A row of `ai_models`. -/
abbrev Row := {model : Credits.AiModel // site.catalog.model model.id = some model}

structure Selection where
  model : site.Row
  fallbacks : List site.Row
  requested : Option site.Row
  reason : String

def isAuto (requested : Option String) : Bool :=
  match requested with
  | none => true
  | some name => name = "" \/ name = "auto"

/-- The models `prefer_usable` chooses from: the fallbacks, then the candidates that are not among them. -/
def preferOptions (selection : site.Selection) (candidates : List site.Row) : List site.Row :=
  let seen := (selection.model :: selection.fallbacks).map fun model => model.val.id
  selection.fallbacks ++ candidates.filter fun model => model.val.id ∉ seen

section

variable (user : Credits.User) (selection : site.Selection) (requested : Option String)

def preferUsable (pool : Option Pool)
  (candidates : List site.Row) : site.Selection :=
  if user.admin || !isAuto requested then selection
  else
    let budget := pool.map (site.budget now user)
    if site.modelBlocked now user selection.model.val pool budget = false then selection
    else
      match (site.preferOptions selection candidates).filter
        (!site.modelBlocked now user ·.val pool budget) with
      | [] => selection
      | first :: rest => { selection with model := first, fallbacks := rest.take 2 }

/-- `fallback_directions`: from cloud to local, and from local to cloud. -/
def fallbackDirections : Bool × Bool := (site.quotaFallbackToLocal.getD true, site.quotaFallbackToCloud.getD true)

def crossesAllowed (model other : site.Row) (directions : Bool × Bool) : Bool :=
  if site.catalog.isLocal model.val = site.catalog.isLocal other.val then true
  else if site.catalog.isLocal other.val then directions.1 else directions.2

/-- The models `quota_fallback` may use instead of a model. -/
def quotaOptions (model : site.Row) (candidates : List site.Row) : List site.Row :=
  candidates.filter fun other => (other.val.id ≠ model.val.id) &&
    site.crossesAllowed model other site.fallbackDirections

def quotaFallback (pool : Pool)
  (candidates : List site.Row) : site.Selection :=
  if user.admin || isAuto requested || (selection.reason ≠ "") then selection
  else
    let model := selection.model
    let budget := some (site.budget now user pool)
    let options := site.quotaOptions model candidates
    let usable := fun other : site.Row => !site.modelBlocked now user other.val (some pool) budget
    let isSame := fun other : site.Row => decide (site.catalog.isLocal other.val = site.catalog.isLocal model.val)
    if site.modelBlocked now user model.val (some pool) budget = false then
      if selection.fallbacks.isEmpty then
        { selection with fallbacks := ((options.filter fun other => !isSame other).filter usable).take 2 }
      else selection
    else
      let same := options.filter isSame
      match (same ++ options.filter fun other => other ∉ same).filter usable with
      | [] => selection
      | first :: rest =>
        { model := first
          fallbacks := rest.take 2
          requested := some model
          reason := "quota" }

end

/-- `usable_fallbacks`.  Which fallbacks can take the reasoning setting, and whether its effort is unlocked
for them, is decided elsewhere. -/
def usableFallbacks (user : Credits.User) (pool : Pool) (compatible effortAllowed : site.Row -> Bool)
  (fallbacks : List site.Row) : List site.Row :=
  let candidates := fallbacks.filter compatible
  if user.admin then candidates
  else
    candidates.filter fun model =>
      let consumeTokens := site.catalog.consumesTokenLimits (some model.val) pool
      !(consumeTokens && site.catalog.countsTowardPool model.val && !(site.budget now user pool).available) &&
        (modelRefusal now (site.modelLimits now user model.val) consumeTokens).isNone && effortAllowed model

variable {site now} {user : Credits.User} {pool : Pool}

def Refused (site : Site) (now : ℚ) (user : Credits.User) (pool : Pool) (model : Credits.AiModel) : Prop :=
  ∀ buckets, (site.admitRequest now buckets user pool (some model) false).2.allowed = false

theorem modelBlocked_iff (buckets : RateBuckets BucketKey) (model : Credits.AiModel) :
  site.modelBlocked now user model (some pool) none ↔
    (site.admitRequest now buckets user pool (some model) false).2.allowed = false := by
  unfold modelBlocked admitRequest admitMember Admission.allowed
  by_cases admin : user.admin
  · simp only [if_pos admin, Bool.false_eq_true, isNone_none, Bool.true_eq_false]
  · simp only [if_neg admin, getD_none]
    -- both look at the pool first, and only for a model that consumes and counts
    cases consumes : site.catalog.consumesTokenLimits (some model) pool with
    | false =>
      cases modelRefusal now (site.modelLimits now user model) false <;> simp
    | true =>
      simp only [Bool.true_and, if_true]
      cases spent : (site.catalog.countsTowardPool model && !(site.budget now user pool).available) with
      | true => simp
      | false =>
        cases modelRefusal now (site.modelLimits now user model) true <;> simp

theorem modelBlocked_budget (model : Credits.AiModel) :
  site.modelBlocked now user model (some pool) (some (site.budget now user pool)) =
    site.modelBlocked now user model (some pool) none := by
  simp [modelBlocked]

theorem refused_iff (model : Credits.AiModel) :
  Refused site now user pool model ↔ site.modelBlocked now user model (some pool) none :=
  ⟨fun refused => (modelBlocked_iff (fun _ => none) model).mpr (refused _), fun blocked buckets => (modelBlocked_iff buckets model).mp blocked⟩

/-- What a choice of models is made of, and what came out of it. -/
structure Chosen (site : Site) (now : ℚ) (user : Credits.User) (pool : Pool) (before after : site.Selection)
  (considered : List site.Row) : Prop where
  complete : Refused site now user pool after.model.val -> ∀ model ∈ considered,
    Refused site now user pool model.val
  admitted : after ≠ before -> ∀ model ∈ after.model :: after.fallbacks,
    ¬ Refused site now user pool model.val

theorem row_ext {first second : site.Row} (same : first.val.id = second.val.id) : first = second := by
  refine Subtype.ext (some.inj ?_)
  rw [<- first.property, <- second.property, same]

theorem usable_refused {models : List site.Row}
  (nothing : models.filter (fun model => !site.modelBlocked now user model.val (some pool) none) = []) :
  ∀ model ∈ models, Refused site now user pool model.val := by
  intro model mem
  have blocked := filter_eq_nil_iff.mp nothing model mem
  rw [not_eq_true, not_eq_false'] at blocked
  exact (refused_iff model.val).mpr blocked

theorem usable_admitted {models : List site.Row} {model : site.Row}
  (mem : model ∈ models.filter fun model => !site.modelBlocked now user model.val (some pool) none) :
  ¬ Refused site now user pool model.val := by
  intro refused
  have usable := (mem_filter.mp mem).2
  rw [(refused_iff model.val).mp refused] at usable
  cases usable

/-- The models `prefer_usable` may consider. -/
def preferConsidered (selection : site.Selection) (requested : Option String) (candidates : List site.Row) : List site.Row :=
  if isAuto requested then selection.fallbacks ++ candidates else []

theorem admin_not_refused (admin : user.admin) (model : Credits.AiModel) : ¬ Refused site now user pool model := by
  intro refused
  have clash := (refused_iff model).mp refused
  unfold modelBlocked at clash
  rw [if_pos admin] at clash
  cases clash

theorem preferUsable_chosen (selection : site.Selection) (requested : Option String) (candidates : List site.Row) :
  Chosen site now user pool selection (site.preferUsable now user selection requested (some pool) candidates)
    (preferConsidered selection requested candidates) := by
  unfold preferUsable
  by_cases admin : user.admin
  · rw [admin, Bool.true_or, if_pos rfl]
    exact ⟨fun refused => absurd refused (admin_not_refused admin _), fun changed => absurd rfl changed⟩
  · by_cases auto : isAuto requested
    · have off : (user.admin || !isAuto requested) = false := by
        rw [Bool.of_not_eq_true admin, auto]
        rfl
      rw [if_neg (by rw [off]; exact Bool.false_ne_true)]
      dsimp only [map_some]
      simp only [modelBlocked_budget]
      by_cases usable : site.modelBlocked now user selection.model.val (some pool) none = false
      · rw [if_pos usable]
        refine ⟨fun refused => ?_, fun changed => absurd rfl changed⟩
        exact absurd ((refused_iff _).mp refused) (by rw [usable]; exact Bool.false_ne_true)
      · rw [if_neg usable]
        have blocked : Refused site now user pool selection.model.val := (refused_iff _).mpr (Bool.of_not_eq_false usable)
        split
        · rename_i nothing
          refine ⟨fun _ model mem => ?_, fun changed => absurd rfl changed⟩
          unfold preferConsidered at mem
          rw [if_pos auto] at mem
          by_cases option : model ∈ site.preferOptions selection candidates
          · exact usable_refused nothing model option
          · -- a candidate that was skipped is the blocked model itself, or one of the fallbacks
            rcases mem_append.mp mem with fallback | candidate
            · exact absurd (mem_append_left _ fallback) option
            · have seen : model.val.id ∈ (selection.model :: selection.fallbacks).map fun model => model.val.id := by
                by_contra unseen
                exact option (mem_append_right _ (mem_filter.mpr ⟨candidate, decide_eq_true unseen⟩))
              rcases mem_map.mp seen with ⟨_, listed, same⟩
              rcases mem_cons.mp listed with isModel | isFallback
              · rw [<- row_ext same, isModel]
                exact blocked
              · exact absurd (mem_append_left _ (row_ext same ▸ isFallback)) option
        · rename_i first rest found
          have every : ∀ model ∈ first :: rest, ¬ Refused site now user pool model.val :=
            fun model mem => usable_admitted (found ▸ mem)
          refine ⟨fun refused => absurd refused (every first mem_cons_self), fun _ model mem => ?_⟩
          rcases mem_cons.mp mem with isFirst | later
          · exact every model (isFirst ▸ .head _)
          · exact every model (.tail _ (mem_of_mem_take later))
    · have on : (user.admin || !isAuto requested) := by
        rw [Bool.of_not_eq_true auto, Bool.not_false, Bool.or_true]
      rw [if_pos on]
      refine ⟨fun _ model mem => ?_, fun changed => absurd rfl changed⟩
      unfold preferConsidered at mem
      rw [if_neg auto] at mem
      cases mem

/-- The models `quota_fallback` may consider: those whose direction is allowed. -/
def quotaConsidered (site : Site) (selection : site.Selection) (requested : Option String) (candidates : List site.Row) :
  List site.Row :=
  if isAuto requested || (selection.reason ≠ "") then []
  else candidates.filter fun other => site.crossesAllowed selection.model other site.fallbackDirections

theorem crossesAllowed_iff (model other : site.Row) : site.crossesAllowed model other site.fallbackDirections ↔
    (site.catalog.isLocal other.val ≠ site.catalog.isLocal model.val ->
      (if site.catalog.isLocal other.val then site.quotaFallbackToLocal.getD true else site.quotaFallbackToCloud.getD true) =
        true) := by
  unfold crossesAllowed fallbackDirections
  by_cases same : site.catalog.isLocal model.val = site.catalog.isLocal other.val
  · rw [if_pos same]
    exact ⟨fun _ apart => absurd same.symm apart, fun _ => rfl⟩
  · rw [if_neg same]
    exact ⟨fun allowed _ => allowed, fun allowed => allowed (Ne.symm same)⟩

theorem quotaFallback_chosen (selection : site.Selection) (requested : Option String) (candidates : List site.Row) :
  Chosen site now user pool selection (site.quotaFallback now user selection requested pool candidates)
      (quotaConsidered site selection requested candidates) /\
    (site.quotaFallback now user selection requested pool candidates ≠ selection -> ∀ model,
      model ∈ (site.quotaFallback now user selection requested pool candidates).model ::
        (site.quotaFallback now user selection requested pool candidates).fallbacks ->
      site.crossesAllowed selection.model model site.fallbackDirections) := by
  have itself : site.crossesAllowed selection.model selection.model site.fallbackDirections := if_pos rfl
  have crosses : ∀ model ∈ site.quotaOptions selection.model candidates,
      site.crossesAllowed selection.model model site.fallbackDirections :=
    fun model mem => (Bool.and_eq_true_iff.mp (mem_filter.mp mem).2).2
  unfold quotaFallback
  by_cases left : (user.admin || isAuto requested || decide (selection.reason ≠ ""))
  · rw [if_pos left]
    refine ⟨⟨fun refused model mem => ?_, fun changed => absurd rfl changed⟩, fun changed => absurd rfl changed⟩
    by_cases admin : user.admin
    · exact absurd refused (admin_not_refused admin _)
    · rw [Bool.of_not_eq_true admin, Bool.false_or] at left
      unfold quotaConsidered at mem
      rw [if_pos left] at mem
      cases mem
  · rw [if_neg left]
    have considers : (isAuto requested || decide (selection.reason ≠ "")) = false := by
      rw [Bool.not_eq_true, Bool.or_assoc, Bool.or_eq_false_iff] at left
      exact left.2
    simp only [modelBlocked_budget]
    by_cases usable : site.modelBlocked now user selection.model.val (some pool) none = false
    · have allowed : ¬ Refused site now user pool selection.model.val := by
        intro refused
        rw [(refused_iff _).mp refused] at usable
        cases usable
      rw [if_pos usable]
      split
      · refine ⟨⟨fun refused => absurd refused allowed, fun _ model mem => ?_⟩, fun _ model mem => ?_⟩
        · rcases mem_cons.mp mem with isModel | fallback
          · rw [isModel]
            exact allowed
          · exact usable_admitted (mem_of_mem_take fallback)
        · rcases mem_cons.mp mem with isModel | fallback
          · rw [isModel]
            exact itself
          · exact crosses model (mem_filter.mp (mem_filter.mp (mem_of_mem_take fallback)).1).1
      · exact ⟨⟨fun refused => absurd refused allowed, fun changed => absurd rfl changed⟩, fun changed => absurd rfl changed⟩
    · have blocked : Refused site now user pool selection.model.val := (refused_iff _).mpr (Bool.of_not_eq_false usable)
      -- the same kind first, then everything else: no option is lost
      have ordered : ∀ model, model ∈ site.quotaOptions selection.model candidates ↔
          model ∈ (site.quotaOptions selection.model candidates).filter
              (fun other => decide (site.catalog.isLocal other.val = site.catalog.isLocal selection.model.val)) ++
            (site.quotaOptions selection.model candidates).filter (fun other => decide (other ∉
              (site.quotaOptions selection.model candidates).filter
                (fun other => decide (site.catalog.isLocal other.val = site.catalog.isLocal selection.model.val)))) := by
        intro model
        rw [mem_append, mem_filter, mem_filter, decide_eq_true_eq, decide_eq_true_eq, mem_filter, decide_eq_true_eq]
        tauto
      rw [if_neg usable]
      split
      · rename_i nothing
        refine ⟨⟨fun _ model mem => ?_, fun changed => absurd rfl changed⟩, fun changed => absurd rfl changed⟩
        unfold quotaConsidered at mem
        rw [considers, if_neg Bool.false_ne_true, mem_filter] at mem
        by_cases same : model.val.id = selection.model.val.id
        · rw [row_ext same]
          exact blocked
        · have option : model ∈ site.quotaOptions selection.model candidates := by
            refine mem_filter.mpr ⟨mem.1, ?_⟩
            rw [decide_eq_true same, Bool.true_and]
            exact mem.2
          exact usable_refused nothing model ((ordered model).mp option)
      · rename_i first rest found
        have listed : ∀ model ∈ first :: rest.take 2, model ∈ first :: rest := by
          intro model mem
          rcases mem_cons.mp mem with isFirst | later
          · exact isFirst ▸ mem_cons_self
          · exact .tail _ (mem_of_mem_take later)
        have every : ∀ model ∈ first :: rest, ¬ Refused site now user pool model.val :=
          fun model mem => usable_admitted (found ▸ mem)
        refine ⟨⟨fun refused => absurd refused (every first mem_cons_self), fun _ model mem => ?_⟩,
          fun _ model mem => ?_⟩
        · exact every model (listed model mem)
        · exact crosses model ((ordered model).mpr (mem_filter.mp (found ▸ listed model mem)).1)

theorem usableFallbacks_admitted (compatible effortAllowed : site.Row -> Bool) (fallbacks : List site.Row) :
  ∀ model ∈ site.usableFallbacks now user pool compatible effortAllowed fallbacks,
    ¬ Refused site now user pool model.val := by
  intro model mem
  unfold usableFallbacks at mem
  by_cases admin : user.admin
  · exact admin_not_refused admin _
  · rw [if_neg admin] at mem
    intro refused
    have blocked := (refused_iff model.val).mp refused
    have usable := (and_eq_true_iff.mp (and_eq_true_iff.mp (mem_filter.mp mem).2).1)
    unfold modelBlocked at blocked
    rw [if_neg admin] at blocked
    dsimp only at blocked
    rw [getD_none, if_neg (by rw [not_eq_true']  at usable; rw [usable.1]; exact false_ne_true)] at blocked
    rw [<- not_isSome, blocked] at usable
    exact false_ne_true usable.2

end Site

/-- The choice of models agrees with admission. A model is blocked exactly when admission, without its rate, refuses it. -/
theorem selection_agrees (site : Site) (now : ℚ) (user : Credits.User) (pool : Pool) :
  (∀ (buckets : RateBuckets BucketKey) (model : Credits.AiModel),
    site.modelBlocked now user model (some pool) none ↔
      (site.admitRequest now buckets user pool (some model) false).2.allowed = false) /\
    ∀ (selection : site.Selection) (requested : Option String) (candidates : List site.Row),
      Site.Chosen site now user pool selection (site.preferUsable now user selection requested (some pool) candidates)
          (Site.preferConsidered selection requested candidates) /\
        Site.Chosen site now user pool selection (site.quotaFallback now user selection requested pool candidates)
          (Site.quotaConsidered site selection requested candidates) /\
        (site.quotaFallback now user selection requested pool candidates ≠ selection -> ∀ model,
          model ∈ (site.quotaFallback now user selection requested pool candidates).model ::
            (site.quotaFallback now user selection requested pool candidates).fallbacks ->
          site.catalog.isLocal model.val ≠ site.catalog.isLocal selection.model.val ->
            (if site.catalog.isLocal model.val then site.quotaFallbackToLocal.getD true
              else site.quotaFallbackToCloud.getD true) = true) := by
  refine ⟨fun buckets model => Site.modelBlocked_iff buckets model, fun selection requested candidates => ?_⟩
  rcases @Site.quotaFallback_chosen site now user pool selection requested candidates with ⟨chosen, crosses⟩
  refine ⟨Site.preferUsable_chosen selection requested candidates, chosen, fun changed model mem => ?_⟩
  exact (Site.crossesAllowed_iff selection.model model).mp (crosses changed model mem)

end BananaChat.Allowances

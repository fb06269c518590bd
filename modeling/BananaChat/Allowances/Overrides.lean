import Mathlib
import BananaChat.Allowances.Base

namespace BananaChat.Allowances

open Limits Function

/-!
# Custom limits and grants, stored

`setOverride` changes the named fields of an account's custom limits and keeps the rest.
-/

/-- `_number` for a whole number from zero on. -/
def wholeAmount (maximum : ℕ) (value : ℚ) : Option ℕ :=
  if 0 <= value /\ value <= maximum /\ value = ⌊value⌋ then some ⌊value⌋.toNat else none

def overrideWindowMax : ℕ := tokensMax * 100

/-- The values of a call: a field that is left out, cleared, or set. -/
structure Values where
  rateRules : Option (Option (List RawRule))
  windowTokens : Option (Option ℚ)
  weeklyTokens : Option (Option ℚ)

structure CleanValues where
  rateRules : Option (Option CustomRules)
  windowTokens : Option (Option ℕ)
  weeklyTokens : Option (Option ℕ)

def checkField {Raw Value : Type} (check : Raw -> Option Value) : Option (Option Raw) -> Option (Option (Option Value))
  | none => some none
  | some none => some (some none)
  | some (some raw) => (check raw).map (fun value => some (some value))

def checkRules (raw : Option (Option (List RawRule))) : Option (Option (Option CustomRules)) :=
  match raw with
  | none => some none
  | some none => some (some none)
  | some (some rules) =>
    match checked : validateRules rules with
    | none => none
    | some clean =>
      if nonempty : clean = [] then some (some none)
      else some (some (some ⟨clean, validateRules_ruleset checked, nonempty⟩))

def validateOverride (values : Values) : Option CleanValues :=
  (checkRules values.rateRules).bind fun rateRules =>
    (checkField (wholeAmount overrideWindowMax) values.windowTokens).bind fun windowTokens =>
      (checkField (wholeAmount tokensMax) values.weeklyTokens).map fun weeklyTokens =>
        ⟨rateRules, windowTokens, weeklyTokens⟩

def keepFloor {Value : Type} [DecidableEq Value] (automatic : Bool) (field : OverrideField) (named : Option (Option Value))
  (current : Option Value) (floors : Finset OverrideField) : Finset OverrideField :=
  match named with
  | none => floors
  | some value =>
    if value = none \/ (automatic = false /\ value ≠ current) then floors.erase field
    else if automatic then insert field floors
    else floors

def CleanValues.merged (clean : CleanValues) (automatic : Bool) (current : Override) : Override where
  rateRules := clean.rateRules.getD current.rateRules
  windowTokens := clean.windowTokens.getD current.windowTokens
  weeklyTokens := clean.weeklyTokens.getD current.weeklyTokens
  automatic := keepFloor automatic .weeklyTokens clean.weeklyTokens current.weeklyTokens
    (keepFloor automatic .windowTokens clean.windowTokens current.windowTokens
      (keepFloor automatic .rateRules clean.rateRules current.rateRules current.automatic))

def CleanValues.isEmpty (clean : CleanValues) : Bool :=
  !(clean.rateRules.isSome || clean.windowTokens.isSome || clean.weeklyTokens.isSome)

/-- The row after `set_override`: a row without values is deleted. -/
def storedOverride (row : Option Override) (automatic : Bool) (clean : CleanValues) : Option Override :=
  let current := row.getD .unset
  if clean.isEmpty && !current.isEmpty then row
  else
    let merged := clean.merged automatic current
    if merged.isEmpty then none else some merged

structure ModelValues where
  rateRules : Option (Option (List RawRule))
  windowTokens : Option (Option ℚ)
  weeklyTokens : Option (Option ℚ)
  locked : Option Bool
  tokenExempt : Option Bool
  rateExempt : Option Bool

/-- The row after `set_model_override`. -/
def storedModelOverride (row : Option ModelOverride) (values : ModelValues) (clean : CleanValues) : Option ModelOverride :=
  let current := row.getD .unset
  let merged : ModelOverride :=
    { rateRules := clean.rateRules.getD current.rateRules
      windowTokens := clean.windowTokens.getD current.windowTokens
      weeklyTokens := clean.weeklyTokens.getD current.weeklyTokens
      locked := values.locked.getD current.locked
      tokenExempt := values.tokenExempt.getD current.tokenExempt
      rateExempt := values.rateExempt.getD current.rateExempt }
  if merged.isEmpty then none else some merged

/-- The check of `set_model_override` on its values. -/
def validateModelOverride (values : ModelValues) : Option CleanValues :=
  (checkRules values.rateRules).bind fun rateRules =>
    (checkField (wholeAmount tokensMax) values.windowTokens).bind fun windowTokens =>
      (checkField (wholeAmount tokensMax) values.weeklyTokens).map fun weeklyTokens =>
        ⟨rateRules, windowTokens, weeklyTokens⟩

namespace Site

variable (site : Site)

def withOverride (userId : ℕ) (pool : Pool) (row : Option Override) : Site :=
  { site with overrides := update site.overrides userId (update (site.overrides userId) pool row) }

def withModelOverride (userId modelId : ℕ) (row : Option ModelOverride) : Site :=
  { site with
    modelOverrides := update site.modelOverrides userId (update (site.modelOverrides userId) modelId row) }

def withPreferences (userId : ℕ) (preferences : UserSettings) : Site :=
  { site with preferences := update site.preferences userId preferences }

def setOverride (userId : ℕ) (pool : Pool) (automatic : Bool) (values : Values) : Option Site :=
  (validateOverride values).map fun clean =>
    site.withOverride userId pool (storedOverride (site.overrides userId pool) automatic clean)

def setModelOverride (userId modelId : ℕ) (values : ModelValues) : Option Site :=
  (validateModelOverride values).bind fun clean =>
    (site.catalog.model modelId).map fun _ =>
      site.withModelOverride userId modelId (storedModelOverride (site.modelOverrides userId modelId) values clean)

@[simp] theorem withOverride_same (userId : ℕ) (pool : Pool) (row : Option Override) :
    (site.withOverride userId pool row).override userId pool = row.getD .unset := by
  simp only [withOverride, override, update_self]

theorem withOverride_other {userId other : ℕ} {pool otherPool : Pool} (row : Option Override)
  (apart : ¬ (other = userId /\ otherPool = pool)) :
  (site.withOverride userId pool row).override other otherPool = site.override other otherPool := by
  unfold withOverride override
  dsimp only
  by_cases same : other = userId
  · subst same
    rw [update_self, update_of_ne fun equal => apart ⟨rfl, equal⟩]
  · rw [update_of_ne same]

@[simp] theorem withModelOverride_same (userId modelId : ℕ) (row : Option ModelOverride) :
    (site.withModelOverride userId modelId row).modelOverride userId modelId = row.getD .unset := by
  simp only [withModelOverride, modelOverride, update_self]

end Site

theorem Override.values_of_isEmpty {override : Override} (empty : override.isEmpty) :
  override.rateRules = none /\ override.windowTokens = none /\ override.weeklyTokens = none := by
  simpa [Override.isEmpty, Override.hasRate, and_assoc] using empty

theorem storedOverride_values (row : Option Override) (automatic : Bool) (clean : CleanValues) :
  ((storedOverride row automatic clean).getD .unset).rateRules = clean.rateRules.getD (row.getD .unset).rateRules /\
    ((storedOverride row automatic clean).getD .unset).windowTokens =
      clean.windowTokens.getD (row.getD .unset).windowTokens /\
    ((storedOverride row automatic clean).getD .unset).weeklyTokens =
      clean.weeklyTokens.getD (row.getD .unset).weeklyTokens := by
  unfold storedOverride
  by_cases unchanged : (clean.isEmpty && !(row.getD .unset).isEmpty)
  · rw [if_pos unchanged]
    have none := (Bool.and_eq_true_iff.mp unchanged).1
    simp only [CleanValues.isEmpty, Bool.not_eq_true', Bool.or_eq_false_iff, Option.isSome_eq_false_iff,
      Option.isNone_iff_eq_none] at none
    rw [none.1.1, none.1.2, none.2]
    exact ⟨rfl, rfl, rfl⟩
  · rw [if_neg unchanged]
    by_cases empty : (clean.merged automatic (row.getD .unset)).isEmpty
    · rw [if_pos empty]
      rcases Override.values_of_isEmpty empty with ⟨noRules, noWindow, noWeekly⟩
      exact ⟨noRules.symm, noWindow.symm, noWeekly.symm⟩
    · rw [if_neg empty]
      exact ⟨rfl, rfl, rfl⟩

theorem storedOverride_automatic {row : Option Override} {automatic : Bool} {clean : CleanValues}
  (kept : ((clean.merged automatic (row.getD .unset)).isEmpty) = false)
  (changed : clean.isEmpty = false \/ (row.getD .unset).isEmpty) :
  ((storedOverride row automatic clean).getD .unset).automatic = (clean.merged automatic (row.getD .unset)).automatic := by
  unfold storedOverride
  dsimp only
  have stays : ¬ (clean.isEmpty && !(row.getD .unset).isEmpty) := by
    rcases changed with named | empty
    · rw [named]
      exact Bool.false_ne_true
    · rw [empty, Bool.not_true, Bool.and_false]
      exact Bool.false_ne_true
  rw [if_neg stays, kept, if_neg Bool.false_ne_true, Option.getD_some]

theorem wholeAmount_eq_some {maximum : ℕ} {value : ℚ} {amount : ℕ} (read : wholeAmount maximum value = some amount) :
  value = amount /\ amount <= maximum := by
  unfold wholeAmount at read
  split at read
  · rename_i range
    cases read
    have floorNonneg : 0 <= ⌊value⌋ := Int.floor_nonneg.mpr range.1
    have cast : ((⌊value⌋.toNat : ℕ) : ℚ) = ⌊value⌋ := by
      exact_mod_cast Int.toNat_of_nonneg floorNonneg
    refine ⟨range.2.2.trans cast.symm, ?_⟩
    have most : (⌊value⌋.toNat : ℚ) <= maximum := by
      rw [cast, <- range.2.2]
      exact range.2.1
    exact_mod_cast most
  · cases read

theorem checkRules_written {rules : List RuleBase} (ruleset : Ruleset rules) (nonempty : rules ≠ []) :
  checkRules (some (some (rules.map written))) = some (some (some ⟨rules, ruleset, nonempty⟩)) := by
  unfold checkRules
  dsimp only
  split
  · rename_i refused
    rw [validateRules_written ruleset] at refused
    cases refused
  · rename_i clean checked
    rw [validateRules_written ruleset] at checked
    cases checked
    rw [dif_neg nonempty]

end BananaChat.Allowances

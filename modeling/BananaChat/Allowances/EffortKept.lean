import BananaChat.Allowances.Effort

namespace BananaChat.Allowances

open Option Function List

/-!
# Granted effort levels

A granted level lowers no ceiling (`granted_kept`).
-/

namespace EffortSite

variable (site : EffortSite)

variable {model : EffortModel} {user : EffortUser} {own : OwnEfforts}

theorem effortCeiling_chained (limited : site.gated user model) (reasons : model.supported ≠ []) (own : OwnEfforts) :
  site.effortCeiling user own model = some (chained (chained (site.defaultFor model) (own none)) (own (some model.id))) := by
  unfold effortCeiling
  cases highest : model.supported.getLast? with
  | none => exact absurd (getLast?_eq_none_iff.mp highest) reasons
  | some choice =>
    dsimp only
    rw [limited, if_neg (by decide)]

theorem effortCeiling_free (free : ¬ (site.gated user model /\ model.supported ≠ [])) (own after : OwnEfforts) :
  site.effortCeiling user after model = site.effortCeiling user own model := by
  unfold effortCeiling
  cases highest : model.supported.getLast? with
  | none => rfl
  | some choice =>
    have reasons : model.supported ≠ [] := by
      intro empty
      rw [empty] at highest
      cases highest
    have off : site.gated user model = false := Bool.eq_false_of_not_eq_true fun limited => free ⟨limited, reasons⟩
    dsimp only
    rw [off, if_pos rfl, if_pos rfl]

def CeilingKept (user : EffortUser) (own after : OwnEfforts) (model : EffortModel) : Prop :=
  ∀ before, site.effortCeiling user own model = some before ->
    ∃ reached, site.effortCeiling user after model = some reached /\ before <= reached

/-- The ceiling of a model after a level was granted is at most the higher of the one before and
that level. -/
def CeilingBounded (user : EffortUser) (own after : OwnEfforts) (level : EffortName) (model : EffortModel) : Prop :=
  ∀ before reached, site.effortCeiling user own model = some before ->
    site.effortCeiling user after model = some reached -> reached <= Max.max before level

theorem CeilingKept.refl (user : EffortUser) (own : OwnEfforts) (model : EffortModel) :
    site.CeilingKept user own own model := fun before found => ⟨before, found, le_refl before⟩

theorem CeilingKept.trans {first second third : OwnEfforts}
  (earlier : site.CeilingKept user first second model) (later : site.CeilingKept user second third model) :
  site.CeilingKept user first third model := by
  intro before found
  rcases earlier before found with ⟨middle, foundMiddle, low⟩
  rcases later middle foundMiddle with ⟨reached, foundReached, high⟩
  exact ⟨reached, foundReached, low.trans high⟩

/-- What an administrator's level that a grant replaces has held down is not above the granted
level: the default of the models it is the level of, or the level for all models. -/
def Covered (user : EffortUser) (own : OwnEfforts) (target : Option ℕ) (level : EffortName) : Prop :=
  ∀ entry, own target = some entry -> entry.source = .admin -> entry.level < level ->
    ∀ model ∈ site.models, site.gated user model -> model.supported ≠ [] -> (target = none ->
        (∀ one, own (some model.id) = some one -> one.source ≠ .admin /\ one.level < site.defaultFor model) ->
          site.defaultFor model <= level) /\
      (target = some model.id -> chained (site.defaultFor model) (own none) <= level)

section Granted

variable {user : EffortUser} {own : OwnEfforts} {target : Option ℕ} {granted : EffortLevel}

section

variable (raises : granted.source ≠ .admin) (higher : ∀ entry, own target = some entry -> entry.level < granted.level)
include raises higher

theorem granted_kept (model : EffortModel) : site.CeilingKept user own (update own target (some granted)) model := by
  by_cases limited : site.gated user model /\ model.supported ≠ []
  · intro before found
    rw [site.effortCeiling_chained limited.1 limited.2] at found
    cases found
    refine ⟨_, site.effortCeiling_chained limited.1 limited.2 _, ?_⟩
    cases target with
    | none =>
      exact chained_mono (chained_granted raises higher _) _
    | some id =>
      rw [update_of_ne (some_ne_none id).symm]
      by_cases same : some model.id = some id
      · rw [same, update_self]
        exact chained_granted raises higher _
      · rw [update_of_ne same]
  · intro before found
    rw [<- site.effortCeiling_free limited own] at found
    exact ⟨before, found, le_refl before⟩

theorem granted_bounded_iff : (∀ model ∈ site.models,
    site.CeilingBounded user own (update own target (some granted)) granted.level model) ↔
      site.Covered user own target granted.level := by
  have single : ∀ model, site.CeilingBounded user own (update own target (some granted)) granted.level model ↔
      (site.gated user model -> model.supported ≠ [] -> ∀ entry, own target = some entry -> entry.source = .admin ->
        (target = none ->
          (∀ one, own (some model.id) = some one -> one.source ≠ .admin /\ one.level < site.defaultFor model) ->
            site.defaultFor model <= granted.level) /\
        (target = some model.id -> chained (site.defaultFor model) (own none) <= granted.level)) := by
    intro model
    by_cases limited : site.gated user model /\ model.supported ≠ []
    · have ceilings : site.CeilingBounded user own (update own target (some granted)) granted.level model ↔
          chained (chained (site.defaultFor model) (update own target (some granted) none))
              (update own target (some granted) (some model.id)) <=
            Max.max (chained (chained (site.defaultFor model) (own none)) (own (some model.id))) granted.level := by
        unfold CeilingBounded
        rw [site.effortCeiling_chained limited.1 limited.2, site.effortCeiling_chained limited.1 limited.2]
        constructor
        · exact fun bounded => bounded _ _ rfl rfl
        · intro bounded before reached foundBefore foundReached
          cases foundBefore
          cases foundReached
          exact bounded
      rw [ceilings]
      cases target with
      | none =>
        rw [update_self, update_of_ne (some_ne_none model.id),
          chained_jumps_before raises higher (site.defaultFor model)]
        constructor
        · exact fun bounded _ _ entry same exact => ⟨fun _ => bounded entry same exact, nofun⟩
        · exact fun covered entry same exact => (covered limited.1 limited.2 entry same exact).1 rfl
      | some id =>
        rw [update_of_ne (some_ne_none id).symm]
        by_cases same : some model.id = some id
        · rw [same, update_self, chained_jumps raises higher]
          constructor
          · exact fun bounded _ _ entry found exact => ⟨fun clash => (nomatch clash), fun _ => bounded entry found exact⟩
          · exact fun covered entry found exact => (covered limited.1 limited.2 entry found exact).2 rfl
        · rw [update_of_ne same]
          constructor
          · exact fun _ _ _ _ _ _ => ⟨fun clash => (nomatch clash), fun equal => absurd equal.symm same⟩
          · exact fun _ => le_max_left _ _
    · constructor
      · exact fun _ gated reasons => absurd ⟨gated, reasons⟩ limited
      · intro _ _ _ foundBefore foundReached
        rw [site.effortCeiling_free limited own, foundBefore] at foundReached
        cases foundReached
        exact le_max_left _ _
  constructor
  · intro bounded entry found exact _ model mem gated reasons
    exact (single model).mp (bounded model mem) gated reasons entry found exact
  · intro covered model mem
    exact (single model).mpr fun gated reasons entry found exact =>
      covered entry found exact (higher entry found) model mem gated reasons

end

end Granted

/-- How the levels of an account can come to hold a granted one. -/
inductive Unlocked (own : OwnEfforts) : Option ℕ -> EffortName -> OwnEfforts -> Prop
  | request (target level stamp after returned) (applied : site.unlockEffort own target level .request stamp = some (after, returned)) :
      Unlocked own target level after
  | automatic {userId modelId now target after} (applied : site.autoUnlock userId modelId own now = (after, some target)) :
      Unlocked own (some modelId) target after

variable {after : OwnEfforts} {level : EffortName} {stamp : ℤ}

theorem setEffortLevel_eq {target : Option ℕ} {pinned : Bool}
  {source : EffortSource} (stored : site.setEffortLevel own target level pinned source stamp = some after) :
  after = update own target (some ⟨level, pinned, source, some stamp⟩) := by
  unfold setEffortLevel at stored
  split at stored
  · cases stored
    rfl
  · cases stored

/-- What `unlock_effort` does: nothing to a level that is high enough, else it stores a level that
raises. -/
theorem unlockEffort_cases {target : Option ℕ} {returned : EffortName}
  (applied : site.unlockEffort own target level .request stamp = some (after, returned)) :
  (after = own /\ ∃ entry, own target = some entry /\ level <= entry.level) \/
  (∃ pinned, after = update own target (some ⟨level, pinned, .request, some stamp⟩) /\
    ∀ entry, own target = some entry -> entry.level < level) := by
  unfold unlockEffort at applied
  cases current : own target with
  | none =>
    simp only [current, map_eq_some_iff, Prod.mk.injEq] at applied
    rcases applied with ⟨stored, set, rfl, _⟩
    exact .inr ⟨_, site.setEffortLevel_eq set, fun entry clash => nomatch clash⟩
  | some entry =>
    simp only [current] at applied
    by_cases enough : level <= entry.level
    · rw [if_pos enough] at applied
      cases applied
      exact .inl ⟨rfl, entry, rfl, enough⟩
    · simp only [if_neg enough, map_eq_some_iff, Prod.mk.injEq] at applied
      rcases applied with ⟨_, set, rfl, _⟩
      refine .inr ⟨_, site.setEffortLevel_eq set, fun other same => ?_⟩
      cases same
      exact not_le.mp enough

theorem nextLevel_above {levels : List EffortChoice} {current target : EffortName} (next : nextLevel levels current = some target) :
  current < target /\ levels ≠ [] := by
  rcases map_eq_some_iff.mp next with ⟨_, found, rfl⟩
  have fits := find?_some found
  constructor
  · exact (of_decide_eq_true fits).2
  · exact ne_nil_of_mem (mem_of_find?_eq_some found)

theorem autoTarget_above {now : ℤ} {target : EffortName} (chosen : site.autoTarget user model own now = some target) :
  ∀ entry, own (some model.id) = some entry -> entry.level < target := by
  intro entry found
  unfold autoTarget at chosen
  dsimp only at chosen
  split at chosen
  · cases chosen
  · split at chosen
    · cases chosen
    · rename_i limits
      split at chosen
      · cases chosen
      · split at chosen
        · cases chosen
        · split at chosen
          · cases chosen
          · split at chosen
            · cases chosen
            · rename_i next nextIs
              split at chosen
              · cases chosen
              · cases chosen
                rcases nextLevel_above nextIs with ⟨above, reasons⟩
                have limited : site.gated user model := by
                  rw [Bool.or_eq_true, Bool.not_eq_true', not_or] at limits
                  exact Bool.of_not_eq_false limits.2
                rw [site.effortCeiling_chained limited reasons, getD_some, found] at above
                exact (le_chained _ entry).trans_lt above

theorem autoUnlock_cases (userId modelId : ℕ) (own : OwnEfforts) (now : ℤ) :
  site.autoUnlock userId modelId own now = (own, none) \/ ∃ target, site.autoUnlock userId modelId own now =
      (update own (some modelId) (some ⟨target, false, .automatic, some now⟩), some target) /\
    ∀ entry, own (some modelId) = some entry -> entry.level < target := by
  unfold autoUnlock
  split
  · rename_i user model foundUser foundModel
    cases chosen : site.autoTarget user model own now with
    | none => exact .inl rfl
    | some target =>
      dsimp only
      cases set : site.setEffortLevel own (some model.id) target false .automatic now with
      | none => exact .inl rfl
      | some after =>
        have named := find?_some foundModel
        have same : model.id = modelId := of_decide_eq_true named
        have stored := site.setEffortLevel_eq set
        have above := site.autoTarget_above chosen
        rw [same] at stored above
        exact .inr ⟨target, by rw [stored], above⟩
  · exact .inl rfl

/-- A level that was unlocked is stored with a source that only raises, over a lower one, unless
it was reached already. -/
theorem Unlocked.granted {target : Option ℕ} (unlocked : site.Unlocked own target level after) :
  (after = own /\ ∃ entry, own target = some entry /\ level <= entry.level) \/
  (∃ granted : EffortLevel, after = update own target (some granted) /\ granted.level = level /\
    granted.source ≠ .admin /\ ∀ entry, own target = some entry -> entry.level < level) := by
  cases unlocked with
  | request _ _ _ _ _ applied =>
    rcases site.unlockEffort_cases applied with reached | ⟨_, stored, higher⟩
    · exact .inl reached
    · exact .inr ⟨_, stored, rfl, nofun, higher⟩
  | automatic applied =>
    rename_i userId modelId now
    rcases site.autoUnlock_cases userId modelId own now with
      idle | ⟨chosen, stored, higher⟩
    · rw [idle] at applied
      cases applied
    · rw [stored] at applied
      cases applied
      exact .inr ⟨_, rfl, rfl, nofun, higher⟩

/-- Unlocking a level lowers no ceiling. -/
theorem effort_raised {own after : OwnEfforts} {target : Option ℕ} {level : EffortName}
  (unlocked : site.Unlocked own target level after) (user : EffortUser) :
  (∀ model ∈ site.models, site.CeilingKept user own after model) /\
  ((∀ model ∈ site.models, site.CeilingBounded user own after level model) ↔
    site.Covered user own target level) := by
  rcases Unlocked.granted site unlocked with ⟨rfl, entry, found, reached⟩ | ⟨granted, rfl, rfl, raises, higher⟩
  · refine ⟨fun model _ => CeilingKept.refl site user after model, ?_⟩
    constructor
    · intro _ other same _ below
      rw [found] at same
      cases same
      exact absurd reached (not_le.mpr below)
    · intro _ model _ before again foundBefore foundAgain
      rw [foundBefore] at foundAgain
      cases foundAgain
      exact le_max_left _ _
  · exact ⟨fun model _ => site.granted_kept raises higher model, site.granted_bounded_iff raises higher⟩

theorem autoUnlock_kept (userId modelId : ℕ) (own : OwnEfforts) (now : ℤ) (user : EffortUser) (model : EffortModel) :
  site.CeilingKept user own (site.autoUnlock userId modelId own now).1 model := by
  rcases site.autoUnlock_cases userId modelId own now with
    idle | ⟨target, stored, higher⟩
  · rw [idle]
    exact CeilingKept.refl site user own model
  · have raises : EffortSource.automatic ≠ .admin := nofun
    rw [stored]
    exact site.granted_kept raises higher model

theorem autoUnlockEffort_kept (now : ℤ) (levels : ℕ -> OwnEfforts) (user : EffortUser) (model : EffortModel) :
  site.CeilingKept user (levels user.id) (site.autoUnlockEffort now levels user.id) model := by
  unfold autoUnlockEffort
  split
  · exact CeilingKept.refl site user _ model
  · generalize site.effortCandidates now = candidates
    induction candidates generalizing levels with
    | nil => exact CeilingKept.refl site user _ model
    | cons candidate rest ih =>
      rw [foldl_cons]
      refine CeilingKept.trans site ?_ (ih _)
      by_cases same : user.id = candidate.1
      · rw [<- same, update_self]
        exact site.autoUnlock_kept _ _ _ _ _ _
      · rw [update_of_ne same]
        exact CeilingKept.refl site user _ model

end EffortSite

/-- One model of four levels, and a default of `high`. -/
def strictSite : EffortSite where
  users := [⟨1, false, false, none, false, false⟩]
  models := [⟨7, [.named .off, .named .low, .named .medium, .named .high], none, false, false⟩]
  settings := ⟨true, .high, true, 30, 2000000, 60, 90, .high⟩
  ledger := []

/-- The administrator locked the account to `low` for all models. -/
def lockedLow : OwnEfforts := fun model => if model = none then some ⟨.low, false, .admin, some 0⟩ else none

/-- An approved request for `medium` lifts that account to `high`. -/
theorem medium_unlocks_high :
  ¬ ∀ (site : EffortSite) (user : EffortUser) (own after : OwnEfforts) (target : Option ℕ) (level : EffortName),
    site.Unlocked own target level after -> ∀ model ∈ site.models,
      site.CeilingBounded user own after level model := by
  intro bounded
  have unlocked : strictSite.Unlocked lockedLow none .medium _ := .request _ _ 5 _ _ rfl
  have medium := bounded strictSite ⟨1, false, false, none, false, false⟩ _ _ _ _ unlocked _ mem_cons_self .low .high
    (by decide) (by decide)
  exact absurd medium (by decide)

/-- Where the default is no higher than the granted level, it is the new ceiling. -/
theorem effort_raised_covered : ∃ after, strictSite.Unlocked lockedLow none .extra after /\
    ∀ user, ∀ model ∈ strictSite.models, strictSite.CeilingKept user lockedLow after model /\
      strictSite.CeilingBounded user lockedLow after .extra model := by
  have unlocked : strictSite.Unlocked lockedLow none .extra _ := .request _ _ 5 _ _ rfl
  refine ⟨_, unlocked, fun user model mem => ?_⟩
  rcases strictSite.effort_raised unlocked user with ⟨kept, bounded⟩
  refine ⟨kept model mem, bounded.mpr ?_ model mem⟩
  intro entry _ _ _ other inside _ _
  rw [mem_singleton.mp inside]
  exact ⟨fun _ _ => by decide, nofun⟩

end BananaChat.Allowances

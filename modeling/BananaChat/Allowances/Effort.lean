import Mathlib.Data.List.Dedup
import BananaChat.Credits.Ledger

namespace BananaChat.Allowances

/-!
# Reasoning effort levels

What an account may use with a model comes from a chain: the default, the account's level for all
models, its level for this one.
-/

/-- `EFFORT_LEVELS`, lowest first. -/
inductive EffortName
  | off
  | low
  | medium
  | high
  | extra
  | max
deriving DecidableEq

/-- `effort_rank`. -/
def EffortName.rank : EffortName -> ℕ
  | .off => 0
  | .low => 1
  | .medium => 2
  | .high => 3
  | .extra => 4
  | .max => 5

theorem EffortName.rank_injective : Function.Injective EffortName.rank := by
  intro first second same
  cases first <;> cases second <;> first | rfl | cases same

instance : LinearOrder EffortName := LinearOrder.lift' EffortName.rank EffortName.rank_injective

/-- A level a model takes: a named one, or just `on`. -/
inductive EffortChoice
  | named (level : EffortName)
  | on
deriving DecidableEq

/-- A choice as it is stored and ranked: `on` counts as medium. -/
def EffortChoice.stored : EffortChoice -> EffortName
  | .named level => level
  | .on => .medium

/-- `EFFORT_SOURCES`. -/
inductive EffortSource
  | admin
  | request
  | automatic
deriving DecidableEq

/-- `EffortLevel`, less the model it is for. -/
structure EffortLevel where
  level : EffortName
  pinned : Bool
  source : EffortSource
  updatedAt : Option ℤ

/-- `effort_levels`: an account's own levels, by model, with those for all models under `none`. -/
abbrev OwnEfforts := Option ℕ -> Option EffortLevel

structure EffortSettings where
  gating : Bool
  default : EffortName
  auto : Bool
  activeDays : ℕ
  tokens : ℕ
  periodDays : ℕ
  cleanDays : ℕ
  ceiling : EffortName

/-- A model: the levels `supported_efforts` finds for it, lowest first, and its policy. -/
structure EffortModel where
  id : ℕ
  supported : List EffortChoice
  effortDefault : Option EffortName
  gatingOff : Bool
  autoUnlockOff : Bool

structure EffortUser where
  id : ℕ
  admin : Bool
  suspended : Bool
  lastSuspensionAt : Option ℤ
  gatingOff : Bool
  autoUnlockOff : Bool

structure EffortSite where
  users : List EffortUser
  models : List EffortModel
  settings : EffortSettings
  ledger : List Credits.LedgerRow

namespace EffortSite

variable (site : EffortSite)

/-- `effort_gated` for one model. -/
def gated (user : EffortUser) (model : EffortModel) : Bool :=
  !user.admin && site.settings.gating && !user.gatingOff && !model.gatingOff

def defaultFor (model : EffortModel) : EffortName := model.effortDefault.getD site.settings.default

end EffortSite

def chained (level : EffortName) (mine : Option EffortLevel) : EffortName :=
  match mine with
  | none => level
  | some own => if own.source = .admin \/ level < own.level then own.level else level

namespace EffortSite

variable (site : EffortSite)

/-- `effort_ceiling`: none for a model that does not reason. -/
def effortCeiling (user : EffortUser) (own : OwnEfforts) (model : EffortModel) : Option EffortName :=
  match model.supported.getLast? with
  | none => none
  | some highest =>
    if site.gated user model = false then some highest.stored
    else some (chained (chained (site.defaultFor model) (own none)) (own (some model.id)))

section

variable (own : OwnEfforts) (target : Option ℕ) (level : EffortName)

/-- `set_effort_level` for a level; none is its `ValueError` for a model that does not exist. -/
def setEffortLevel (pinned : Bool) (source : EffortSource)
  (stamp : ℤ) : Option OwnEfforts :=
  if target.all (fun id => site.models.any (·.id = id)) then
    some (Function.update own target (some ⟨level, pinned, source, some stamp⟩))
  else none

/-- `unlock_effort`: the levels after it, and the level it returns. -/
def unlockEffort (source : EffortSource) (stamp : ℤ) :
  Option (OwnEfforts × EffortName) :=
  let pinned := ((own target).map EffortLevel.pinned).getD false
  match own target with
  | some current =>
    if level <= current.level then some (own, current.level)
    else (site.setEffortLevel own target level pinned source stamp).map (fun after => (after, level))
  | none => (site.setEffortLevel own target level pinned source stamp).map (fun after => (after, level))

end

def nextLevel (levels : List EffortChoice) (current : EffortName) : Option EffortName :=
  (levels.find? fun choice => choice ≠ .named .off /\ current < choice.stored).map EffortChoice.stored

def daySeconds : ℤ := 86400

/-- `_model_activity`: the days with usage, and the tokens. -/
def modelActivity (userId modelId : ℕ) (since : ℤ) : ℕ × ℕ :=
  let rows := site.ledger.filter (fun row => row.userId = userId /\ row.modelId = some modelId /\ since <= row.createdAt)
  ((rows.map (·.createdAt / daySeconds)).dedup.length, (rows.map fun row => row.tokensIn + row.tokensOut).sum)

def user (id : ℕ) : Option EffortUser := site.users.find? (·.id = id)

def model (id : ℕ) : Option EffortModel := site.models.find? (·.id = id)

def clean (user : EffortUser) (now : ℤ) : Bool :=
  match user.lastSuspensionAt with
  | none => true
  | some suspended => suspended < now - site.settings.cleanDays * daySeconds

def activitySince (mine : Option EffortLevel) (now : ℤ) : ℤ :=
  max (now - site.settings.periodDays * daySeconds) ((mine.bind EffortLevel.updatedAt).getD (now - site.settings.periodDays * daySeconds))

/-- The level the transaction of `auto_unlock_effort` unlocks for one candidate, if any. -/
def autoTarget (user : EffortUser) (model : EffortModel) (own : OwnEfforts) (now : ℤ) : Option EffortName :=
  let mine := own (some model.id)
  let activity := site.modelActivity user.id model.id (site.activitySince mine now)
  if user.suspended || !site.settings.auto || user.autoUnlockOff then none
  else if model.autoUnlockOff || !site.gated user model then none
  else if (own none).any EffortLevel.pinned || mine.any EffortLevel.pinned then none
  else if !site.clean user now then none
  else if activity.1 < site.settings.activeDays \/ activity.2 < site.settings.tokens then none
  else
    match nextLevel model.supported ((site.effortCeiling user own model).getD .off) with
    | none => none
    | some target => if site.settings.ceiling < target then none else some target

def autoUnlock (userId modelId : ℕ) (own : OwnEfforts) (now : ℤ) : OwnEfforts × Option EffortName :=
  match site.user userId, site.model modelId with
  | some user, some model =>
    match site.autoTarget user model own now with
    | none => (own, none)
    | some target =>
      match site.setEffortLevel own (some model.id) target false .automatic now with
      | none => (own, none)
      | some after => (after, some target)
  | _, _ => (own, none)

/-- `effort_candidates`, with the thresholds the caller applies. -/
def effortCandidates (now : ℤ) : List (ℕ × ℕ) :=
  let since := now - site.settings.periodDays * daySeconds
  let used := (site.ledger.filter (since <= ·.createdAt)).filterMap
    (fun row => row.modelId.map fun modelId => (row.userId, modelId))
  used.dedup.filter (fun candidate =>
    site.users.any (fun user => (user.id = candidate.1) && !user.admin && !user.suspended && site.clean user now) &&
    decide (site.settings.activeDays <= (site.modelActivity candidate.1 candidate.2 since).1 /\
      site.settings.tokens <= (site.modelActivity candidate.1 candidate.2 since).2))

/-- `auto_unlock_effort`, over the levels of every account. -/
def autoUnlockEffort (now : ℤ) (levels : ℕ -> OwnEfforts) : ℕ -> OwnEfforts :=
  if !site.settings.gating || !site.settings.auto then levels
  else (site.effortCandidates now).foldl
    (fun levels candidate =>
      Function.update levels candidate.1 (site.autoUnlock candidate.1 candidate.2 (levels candidate.1) now).1) levels

end EffortSite

theorem chained_admin {own : EffortLevel} (exact : own.source = .admin) (level : EffortName) :
    chained level (some own) = own.level := if_pos (.inl exact)

theorem chained_raises {own : EffortLevel} (raises : own.source ≠ .admin) (level : EffortName) :
  chained level (some own) = Max.max level own.level := by
  unfold chained
  dsimp only
  by_cases higher : level < own.level
  · rw [if_pos (.inr higher), max_eq_right higher.le]
  · rw [if_neg (not_or.mpr ⟨raises, higher⟩), max_eq_left (not_lt.mp higher)]

theorem chained_mono {lower higher : EffortName} (below : lower <= higher) (mine : Option EffortLevel) :
  chained lower mine <= chained higher mine := by
  cases mine with
  | none => exact below
  | some own =>
    by_cases exact : own.source = .admin
    · rw [chained_admin exact, chained_admin exact]
    · rw [chained_raises exact, chained_raises exact]
      exact max_le_max below (le_refl _)

variable {granted : EffortLevel} {mine : Option EffortLevel}

section

variable (raises : granted.source ≠ .admin) (higher : ∀ own, mine = some own -> own.level < granted.level) (level : EffortName)
include raises higher level

theorem chained_granted : chained level mine <= chained level (some granted) := by
  rw [chained_raises raises]
  cases mine with
  | none => exact le_max_left _ _
  | some own =>
    have below := (higher own rfl).le
    by_cases exact : own.source = .admin
    · rw [chained_admin exact]
      exact below.trans (le_max_right _ _)
    · rw [chained_raises exact]
      exact max_le_max (le_refl _) below

/-- How far a link can rise when a grant replaces it: above the granted level only what an
administrator's level had held down. -/
theorem chained_jumps : chained level (some granted) <= Max.max (chained level mine) granted.level ↔
    (∀ own, mine = some own -> own.source = .admin -> level <= granted.level) := by
  rw [chained_raises raises, max_le_iff, and_iff_left (le_max_right _ _)]
  cases mine with
  | none =>
    constructor
    · intro _ own clash
      cases clash
    · exact fun _ => le_max_left _ _
  | some own =>
    have below := higher own rfl
    by_cases exact : own.source = .admin
    · rw [chained_admin exact, max_eq_right below.le]
      constructor
      · intro bounded other same _
        exact bounded
      · exact fun bounded => bounded own rfl exact
    · rw [chained_raises exact]
      constructor
      · intro _ _ same held
        cases same
        exact absurd held exact
      · exact fun _ => (le_max_left _ _).trans (le_max_left _ _)

end

theorem le_chained (level : EffortName) (own : EffortLevel) : own.level <= chained level (some own) := by
  by_cases exact : own.source = .admin
  · exact (chained_admin exact level).ge
  · rw [chained_raises exact]
    exact le_max_right _ _

theorem chained_jumps_before {general : Option EffortLevel} (raises : granted.source ≠ .admin)
  (higher : ∀ own, general = some own -> own.level < granted.level) (level : EffortName) :
  chained (chained level (some granted)) mine <= Max.max (chained (chained level general) mine) granted.level ↔
    (∀ own, general = some own -> own.source = .admin ->
      (∀ one, mine = some one -> one.source ≠ .admin /\ one.level < level) -> level <= granted.level) := by
  have alone := chained_jumps raises higher level
  cases mine with
  | none =>
    refine alone.trans (forall_congr' fun own => imp_congr_right fun _ => imp_congr_right fun _ => ?_)
    constructor
    · exact fun bounded _ => bounded
    · exact fun bounded => bounded nofun
  | some one =>
    by_cases exact : one.source = .admin
    · rw [chained_admin exact, chained_admin exact]
      constructor
      · intro _ own _ _ covered
        exact absurd exact (covered one rfl).1
      · exact fun _ => le_max_left _ _
    · rw [chained_raises exact, chained_raises exact]
      by_cases reached : level <= one.level
      · constructor
        · intro _ own _ _ covered
          exact absurd reached (not_le.mpr (covered one rfl).2)
        · intro _
          rw [chained_raises raises]
          exact max_le (max_le (reached.trans ((le_max_right _ _).trans (le_max_left _ _))) (le_max_right _ _))
            ((le_max_right _ _).trans (le_max_left _ _))
      · have below : one.level < level := not_le.mp reached
        have start : level <= chained level (some granted) := by
          rw [chained_raises raises]
          exact le_max_left _ _
        have without : Max.max (chained level (some granted)) one.level <=
            Max.max (Max.max (chained level general) one.level) granted.level ↔
              chained level (some granted) <= Max.max (chained level general) granted.level := by
          rw [max_le_iff, and_iff_left ((le_max_right _ _).trans (le_max_left _ _)), le_max_iff, le_max_iff, le_max_iff]
          constructor
          · rintro ((before | clash) | bounded)
            · exact .inl before
            · exact absurd (start.trans clash) (not_le.mpr below)
            · exact .inr bounded
          · rintro (before | bounded)
            · exact .inl (.inl before)
            · exact .inr bounded
        rw [without, alone]
        constructor
        · exact fun bounded own same held _ => bounded own same held
        · refine fun bounded own same held => bounded own same held fun other equal => ?_
          cases equal
          exact ⟨exact, below⟩

end BananaChat.Allowances

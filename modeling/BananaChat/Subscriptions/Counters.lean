import BananaChat.Foundation.Periods
import BananaChat.Subscriptions.Pool

namespace BananaChat.Subscriptions.Counters

open Foundation List Limits Periods

/-!
# What the counters of an account count

`record_usage` advances both counters of an account and starts a period over that has ended;
`_current` shows a counter by a rule of its own.
-/

/-- A call of `record_usage`. -/
structure Recording where
  now : ℚ
  tokensIn : ℤ
  tokensOut : ℤ
  family : String
  leaseId : Option ℕ

def Recording.total (recording : Recording) : ℕ := recording.tokensIn.toNat + recording.tokensOut.toNat

def Recording.repeated (recording : Recording) (tables : Tables) : Bool :=
  recording.leaseId.any fun leaseId => tables.usage.any fun row => row.leaseId = leaseId

section Account

variable (accountId : ℕ) (provider : Provider)

def Recording.perform (recording : Recording) (tables : Tables) : Tables :=
  match recordUsage accountId recording.tokensIn recording.tokensOut provider recording.family recording.leaseId recording.now
    tables with
  | .ok later => later
  | .error _ => tables

def recorded : List Recording -> Tables -> Tables
  | [], tables => tables
  | recording :: rest, tables => recorded rest (recording.perform accountId provider tables)

def visits : List Recording -> Tables -> List (ℚ × ℕ)
  | [], _ => []
  | recording :: rest, tables =>
    (if recording.repeated tables then [] else [(recording.now, recording.total)]) ++
      visits rest (recording.perform accountId provider tables)

end Account

def periodEnds (length : ℤ) (start : ℚ) : ℚ := ⌊start + length⌋

theorem periodEnds_later {length : ℤ} (positive : 0 < length) (start : ℚ) : start < periodEnds length start := by
  have near := Int.lt_floor_add_one (start + length)
  have second : (1 : ℚ) <= length := by exact_mod_cast positive
  unfold periodEnds
  linarith

theorem rollOver_local (length : ℤ) (used : ℕ) (resetsAt : Option ℤ) (now : ℚ) :
  rollOver .localBudget length used resetsAt now =
    (if (resetsAt.map fun reset : ℤ => (reset : ℚ)).any (· <= now) then 0 else used,
      if (resetsAt.map fun reset : ℤ => (reset : ℚ)).all (· <= now) then some ⌊now + length⌋
      else resetsAt) := by
  cases resetsAt with
  | none => rfl
  | some reset =>
    by_cases ended : (reset : ℚ) <= now <;> simp [rollOver, ended]

structure Follows (row : Account) (past : List (ℚ × ℕ)) : Prop where
  isLocal : row.quotaSource = .localBudget
  window : Periods.Counted (periodEnds windowSeconds) past row.windowUsed (row.windowResetsAt.map fun reset : ℤ => (reset : ℚ))
  weekly : Periods.Counted (periodEnds weekSeconds) past row.weeklyUsed (row.weeklyResetsAt.map fun reset : ℤ => (reset : ℚ))

theorem Follows.current {row : Account} {past : List (ℚ × ℕ)} (follows : Follows row past) (now : ℚ) :
  Pooled.current row now =
    (shown (periodEnds windowSeconds) past now, shown (periodEnds weekSeconds) past now) := by
  have shows : ∀ {used : ℕ} {resetsAt : Option ℤ} {length : ℤ},
      Counted (periodEnds length) past used (resetsAt.map fun reset : ℤ => (reset : ℚ)) ->
      Pooled.currentOf row.quotaSource used resetsAt now = shown (periodEnds length) past now := by
    intro _ _ _ counted
    rw [counted.shown_eq now, Option.any_map, Pooled.currentOf, follows.isLocal]
    simp
  unfold Pooled.current
  rw [shows follows.window, shows follows.weekly]

theorem counted_rollOver {length : ℤ} (positive : 0 < length) {past : List (ℚ × ℕ)} {used : ℕ} {resetsAt : Option ℤ}
  (counted : Counted (periodEnds length) past used (resetsAt.map fun reset : ℤ => (reset : ℚ))) {now : ℚ} {total : ℕ}
  (ordered : (past ++ [(now, total)]).Pairwise fun first second => first.1 <= second.1) :
  Counted (periodEnds length) (past ++ [(now, total)]) ((rollOver .localBudget length used resetsAt now).1 + total)
    ((rollOver .localBudget length used resetsAt now).2.map fun reset : ℤ => (reset : ℚ)) := by
  have onward := counted.visit (periodEnds_later positive) ordered
  rw [rollOver_local]
  rw [apply_ite (Option.map _)]
  exact onward

section Run

variable {accountId : ℕ} {provider : Provider} {tables : Tables} {row : Account} {past : List (ℚ × ℕ)}

theorem insertUsage_cases (entry : UsageRow) (tables : Tables) :
  ((tables.usage.any fun other => other.leaseId = entry.leaseId) /\ insertUsage entry tables = (false, tables)) \/
    ((tables.usage.any fun other => other.leaseId = entry.leaseId) = false /\
      insertUsage entry tables = (true, { tables with usage := tables.usage ++ [entry] })) := by
  by_cases there : ∃ other ∈ tables.usage, other.leaseId = entry.leaseId
  · refine .inl ⟨?_, if_pos there⟩
    simpa using there
  · refine .inr ⟨?_, if_neg there⟩
    simpa using there

theorem bumpCounters_find (found : tables.accounts.find? (·.id = accountId) = some row)
  (windowUsed : ℕ) (windowResetsAt : Option ℤ) (weeklyUsed : ℕ) (weeklyResetsAt : Option ℤ) :
  (bumpCounters accountId windowUsed windowResetsAt weeklyUsed weeklyResetsAt tables).accounts.find?
      (fun account => decide (account.id = accountId)) =
    some { row with windowUsed, windowResetsAt, weeklyUsed, weeklyResetsAt } := by
  have kept : ∀ account : Account,
      { account with windowUsed, windowResetsAt, weeklyUsed, weeklyResetsAt }.id = account.id := fun _ => rfl
  exact Rows.find_updateWhere_key kept found

section

variable (recording : Recording) (found : tables.accounts.find? (·.id = accountId) = some row) (same : row.provider = provider)
include recording found same

theorem perform_repeated (again : recording.repeated tables) :
  recording.perform accountId provider tables = tables := by
  unfold Recording.repeated at again
  cases lease : recording.leaseId with
  | none =>
    rw [lease] at again
    cases again
  | some leaseId =>
    rw [lease, Option.any_some] at again
    have ignored : ∀ entry : UsageRow, entry.leaseId = leaseId -> insertUsage entry tables = (false, tables) := by
      intro entry named
      rcases insertUsage_cases entry tables with ⟨_, kept⟩ | ⟨absent, _⟩
      · exact kept
      · rw [named, again] at absent
        cases absent
    unfold Recording.perform recordUsage
    simp only [found, same, ne_eq, not_true_eq_false, if_false, lease]
    rw [ignored _ rfl]
    rfl

theorem perform_follows (follows : Follows row past) (fresh : recording.repeated tables = false)
  (ordered : (past ++ [(recording.now, recording.total)]).Pairwise fun first second => first.1 <= second.1) : ∃ after,
    (recording.perform accountId provider tables).accounts.find? (·.id = accountId) = some after /\
      after.provider = provider /\ Follows after (past ++ [(recording.now, recording.total)]) := by
  have window := counted_rollOver (by decide) follows.window ordered
  have weekly := counted_rollOver (by decide) follows.weekly ordered
  have performed : ∃ later : Tables, later.accounts = tables.accounts /\
      recording.perform accountId provider tables = bumpCounters accountId
          ((rollOver .localBudget windowSeconds row.windowUsed row.windowResetsAt recording.now).1 + recording.total)
          (rollOver .localBudget windowSeconds row.windowUsed row.windowResetsAt recording.now).2
          ((rollOver .localBudget weekSeconds row.weeklyUsed row.weeklyResetsAt recording.now).1 + recording.total)
          (rollOver .localBudget weekSeconds row.weeklyUsed row.weeklyResetsAt recording.now).2 later := by
    unfold Recording.repeated at fresh
    unfold Recording.perform recordUsage
    cases lease : recording.leaseId with
    | none =>
      refine ⟨tables, rfl, ?_⟩
      simp only [found, same, ne_eq, not_true_eq_false, if_false, if_true, follows.isLocal]
      rfl
    | some leaseId =>
      rw [lease, Option.any_some] at fresh
      have inserted : ∀ entry : UsageRow, entry.leaseId = leaseId ->
          insertUsage entry tables = (true, { tables with usage := tables.usage ++ [entry] }) := by
        intro entry named
        rcases insertUsage_cases entry tables with ⟨there, _⟩ | ⟨_, added⟩
        · rw [named, fresh] at there
          cases there
        · exact added
      refine ⟨{ tables with
        usage := tables.usage ++ [⟨leaseId, accountId, provider, recording.family, recording.tokensIn.toNat,
          recording.tokensOut.toNat, recording.now⟩] }, rfl, ?_⟩
      simp only [found, same, ne_eq, not_true_eq_false, if_false, follows.isLocal]
      rw [inserted _ rfl]
      rfl
  rcases performed with ⟨_, accounts, performed⟩
  rw [performed]
  rw [<- accounts] at found
  exact ⟨_, bumpCounters_find found _ _ _ _, same, ⟨follows.isLocal, window, weekly⟩⟩

end

theorem recorded_follows (recordings : List Recording)
  (found : tables.accounts.find? (·.id = accountId) = some row) (same : row.provider = provider)
  (follows : Follows row past)
  (ordered : (past ++ recordings.map fun recording => (recording.now, recording.total)).Pairwise
    (fun first second => first.1 <= second.1)) :
  ∃ after, (recorded accountId provider recordings tables).accounts.find? (·.id = accountId) = some after /\
      Follows after (past ++ visits accountId provider recordings tables) := by
  induction recordings generalizing tables row past with
  | nil =>
    refine ⟨row, found, ?_⟩
    rw [visits, append_nil]
    exact follows
  | cons recording rest ih =>
    unfold recorded visits
    cases again : recording.repeated tables with
    | true =>
      rw [perform_repeated recording found same again]
      refine ih found same follows (ordered.sublist ?_)
      exact List.Sublist.append_left (sublist_cons_self _ _) _
    | false =>
      have grouped := append_cons past (recording.now, recording.total)
        (rest.map fun recording => (recording.now, recording.total))
      rw [map_cons, grouped] at ordered
      rcases perform_follows recording found same follows again (pairwise_append.mp ordered).1 with
        ⟨after, foundAfter, sameAfter, followsAfter⟩
      rcases ih foundAfter sameAfter followsAfter ordered with ⟨last, foundLast, followsLast⟩
      refine ⟨last, foundLast, ?_⟩
      rw [append_assoc] at followsLast
      exact followsLast

end Run

/--
An account with budgets of its own, in its first calls, in the order of time: at any time from then on both
counters show what was recorded since the current period opened, which was at the first recording after the
former one had ended.
-/
theorem counters_follow {accountId : ℕ} {provider : Provider} {tables : Tables} {row : Account}
  (found : tables.accounts.find? (·.id = accountId) = some row) (same : row.provider = provider)
  (isLocal : row.quotaSource = .localBudget)
  (unused : row.windowUsed = 0 /\ row.windowResetsAt = none /\ row.weeklyUsed = 0 /\ row.weeklyResetsAt = none)
  (recordings : List Recording) (ordered : recordings.Pairwise fun first second => first.now <= second.now) (now : ℚ) :
  ∃ after,
    (recorded accountId provider recordings tables).accounts.find? (·.id = accountId) = some after /\
      Pooled.current after now =
        (Periods.shown (periodEnds windowSeconds) (visits accountId provider recordings tables) now,
          Periods.shown (periodEnds weekSeconds) (visits accountId provider recordings tables) now) := by
  rcases unused with ⟨windowUsed, windowResetsAt, weeklyUsed, weeklyResetsAt⟩
  have follows : Follows row [] := by
    refine ⟨isLocal, ?_, ?_⟩
    · rw [windowUsed, windowResetsAt]
      exact Periods.counted_nil _
    · rw [weeklyUsed, weeklyResetsAt]
      exact Periods.counted_nil _
  have inOrder : (([] : List (ℚ × ℕ)) ++ recordings.map fun recording => (recording.now, recording.total)).Pairwise
      (fun first second => first.1 <= second.1) := by
    rw [nil_append, pairwise_map]
    exact ordered
  rcases recorded_follows recordings found same follows inOrder with ⟨after, foundAfter, followsAfter⟩
  exact ⟨after, foundAfter, followsAfter.current now⟩

def unusedAccount (source : QuotaSource) : Account where
  id := 1
  provider := .claude
  status := .active
  cooldownUntil := none
  lastError := ""
  quotaSource := source
  windowUsed := 0
  windowResetsAt := none
  weeklyUsed := 0
  weeklyResetsAt := none

/-- Three recordings, the last one after five hours: the 5-hour counter starts over with it, and the
weekly one goes on. -/
theorem counters_follow_over_five_hours : ∃ after,
    (recorded 1 .claude [⟨0, 10, 5, "opus", some 1⟩, ⟨60, 20, 0, "opus", some 2⟩, ⟨18000, 3, 4, "opus", some 3⟩]
      ⟨[unusedAccount .localBudget], [], []⟩).accounts.find? (·.id = 1) = some after /\
    Pooled.current after 18001 = (7, 42) := by
  rcases @counters_follow 1 .claude ⟨[unusedAccount .localBudget], [], []⟩ _ rfl rfl rfl ⟨rfl, rfl, rfl, rfl⟩
      [⟨0, 10, 5, "opus", some 1⟩, ⟨60, 20, 0, "opus", some 2⟩, ⟨18000, 3, 4, "opus", some 3⟩] (by decide +kernel) 18001 with
    ⟨after, found, shows⟩
  refine ⟨after, found, shows.trans ?_⟩
  decide +kernel

/-- The snapshot of a provider whose reset was at 100: what was recorded at 50 is still shown at 200. -/
theorem reported_counter_stays : let row : Account := { unusedAccount .reported with windowResetsAt := some 100 }
  ∃ after,
    (recorded 1 .claude [⟨50, 10, 0, "opus", some 1⟩] ⟨[row], [], []⟩).accounts.find?
      (fun account => decide (account.id = 1)) = some after /\
    after.windowResetsAt = some 100 /\ Pooled.current after 200 = (10, 10) := by
  exact ⟨_, rfl, rfl, by decide +kernel⟩

end BananaChat.Subscriptions.Counters

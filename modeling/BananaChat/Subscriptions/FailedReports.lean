import BananaChat.Subscriptions.CapacityKnown

namespace BananaChat.Subscriptions.Pooled

open Foundation List Shares PoolAccount

/-!
# Failed observations

A failed observation can take an account away and cannot give one more than it had.
-/

theorem notAbove_refl (left : Option ℚ) : NotAbove left left := fun value known => ⟨value, known, le_refl value⟩

theorem notAbove_trans {first second third : Option ℚ} (one : NotAbove first second) (two : NotAbove second third) :
  NotAbove first third := by
  intro value known
  rcases one value known with ⟨middle, found, below⟩
  rcases two middle found with ⟨last, foundLast, belowLast⟩
  exact ⟨last, foundLast, belowLast.trans below⟩

theorem notAbove_zero {left : Option ℚ} (inside : IsFraction left) : NotAbove left (some 0) :=
  fun value known => ⟨0, rfl, (inside value known).1⟩

/-- The second pool has the same accounts, and none of them has more left by its provider. -/
structure Tighter (before after : Pool) (now : ℚ) (family : Option String) : Prop where
  accounts : after.accounts = before.accounts
  caps : after.caps = before.caps
  usage : after.usage = before.usage
  window : ∀ row ∈ before.listAccounts,
    NotAbove (upstreamCapacity before row now family).1 (upstreamCapacity after row now family).1
  weekly : ∀ row ∈ before.listAccounts,
    NotAbove (upstreamCapacity before row now family).2 (upstreamCapacity after row now family).2

section Tighter

variable {before after : Pool} {now : ℚ} {family : Option String}

theorem Tighter.listAccounts (tighter : Tighter before after now family) : after.listAccounts = before.listAccounts := by
  unfold Pool.listAccounts
  rw [tighter.accounts]

variable {row : PoolAccount}

theorem Tighter.usable (tighter : Tighter before after now family) (mem : row ∈ before.listAccounts)
  (serving : usable after row now family) : usable before row now family := by
  have serves := usable_iff.mp serving
  refine usable_iff.mpr ⟨serves.active, serves.rested, serves.fresh, ?_, serves.window, serves.weekly, ?_⟩
  · rintro value (known | known)
    · rcases tighter.window row mem value known with ⟨left, found, below⟩
      exact (serves.upstream left (.inl found)).trans_le below
    · rcases tighter.weekly row mem value known with ⟨left, found, below⟩
      exact (serves.upstream left (.inr found)).trans_le below
  · have kept := serves.inScope
    unfold scopedOk scopedUnder Pool.scopedSum at kept ⊢
    rw [tighter.caps, tighter.usage] at kept
    exact kept

theorem leftOf_mono {first second : Bool} (less : second -> first) (used : ℕ) {left right : Option ℚ}
  (fraction : IsFraction left) (below : NotAbove left right) {limit : ℚ} (nonneg : 0 <= limit) :
  leftOf second used right limit <= leftOf first used left limit := by
  cases second with
  | false => exact (leftOf_within first used fraction nonneg).1
  | true =>
    rw [less rfl]
    unfold leftOf
    cases left with
    | none =>
      cases right with
      | none => exact le_refl _
      | some right => exact min_le_left _ _
    | some left =>
      rcases below left rfl with ⟨_, found, small⟩
      rw [found]
      exact min_le_min (le_refl _) (mul_le_mul_of_nonneg_left small nonneg)

theorem Tighter.windowPart (tighter : Tighter before after now family) (mem : row ∈ before.listAccounts) :
  windowPart after now family row <= windowPart before now family row :=
  leftOf_mono (tighter.usable mem) _ (upstreamCapacity_fraction before row now family).1 (tighter.window row mem)
    (Nat.cast_nonneg _)

theorem activeRows_listAccounts (pool : Pool) : activeRows pool.listAccounts = pool.listAccounts := by
  unfold activeRows Pool.listAccounts
  simp

section

variable (tighter : Tighter before after now family)
include tighter

theorem Tighter.windowFraction :
  windowFraction after after.listAccounts now family <= windowFraction before before.listAccounts now family := by
  unfold Pooled.windowFraction
  rw [tighter.listAccounts, activeRows_listAccounts]
  exact pooled_mono (window_within before before.listAccounts now family).weight_nonneg
    fun row mem => tighter.windowPart mem

theorem Tighter.weeklyOpen
  (opened : weeklyOpen after after.listAccounts now family) : weeklyOpen before before.listAccounts now family := by
  rw [tighter.listAccounts] at opened
  rcases weeklyOpen_iff.mp opened with ⟨row, mem, budget, serving, unknown⟩
  refine weeklyOpen_iff.mpr ⟨row, mem, budget, tighter.usable mem serving, ?_⟩
  cases known : (upstreamCapacity before row now family).2 with
  | none => rfl
  | some value =>
    rcases tighter.weekly row mem value known with ⟨_, found, _⟩
    rw [unknown] at found
    cases found

theorem Tighter.weeklyPart
  (closed : Pooled.weeklyOpen before before.listAccounts now family = false) (unbudgeted : Bool)
  (mem : row ∈ before.listAccounts) :
  weeklyPart unbudgeted after now family row <= weeklyPart unbudgeted before now family row := by
  cases unbudgeted with
  | false =>
    exact leftOf_mono (tighter.usable mem) _ (upstreamCapacity_fraction before row now family).2 (tighter.weekly row mem)
      (Nat.cast_nonneg _)
  | true =>
    cases serving : Pooled.usable after row now family with
    | false =>
      rw [weeklyPart_unusable true serving]
      exact ((weekly_within true before [row] now family).nonneg row (mem_singleton_self row))
    | true =>
      have served := tighter.usable mem serving
      unfold Pooled.weeklyPart
      rw [if_pos rfl, if_pos rfl, serving, served, if_pos rfl, if_pos rfl]
      split
      · rename_i budget
        cases known : (upstreamCapacity before row now family).2 with
        | none =>
          have opened := weeklyOpen_iff.mpr ⟨row, mem, Option.isNone_iff_eq_none.mp budget, served, known⟩
          rw [closed] at opened
          cases opened
        | some value =>
          rcases tighter.weekly row mem value known with ⟨_, found, below⟩
          rw [found]
          exact below
      · exact le_refl 0

theorem Tighter.weeklyFraction
  (closed : Pooled.weeklyOpen before before.listAccounts now family = false)
  (same : unbudgetedServes after after.listAccounts now family = unbudgetedServes before before.listAccounts now family) :
  weeklyFraction after after.listAccounts now family <= weeklyFraction before before.listAccounts now family := by
  unfold Pooled.weeklyFraction
  rw [same, tighter.listAccounts, activeRows_listAccounts]
  exact pooled_mono (weekly_within _ before before.listAccounts now family).weight_nonneg
    fun row mem => tighter.weeklyPart closed _ mem

end

end Tighter

def Failed (provider : Provider) (raw : Field RawReport) : Prop := (checkedReport provider raw).available = false

def Reported.observation (reported : Reported) (accountId : ℕ) : Field RawReport :=
  match reported.accountReports with
  | .given reports => (reports.lookup accountId).getD .missing
  | .missing => .missing
  | .invalid => .missing

variable {raw : Field RawReport}

theorem storedReport_failed {provider : Provider} (failed : Failed provider raw) (kept : Option Report) (now : ℚ) :
  (storedReport provider raw kept now).available = false \/ kept = some (storedReport provider raw kept now) := by
  unfold storedReport
  dsimp only
  split
  · rename_i holds
    cases kept with
    | none => cases holds.2.2
    | some report => exact .inr rfl
  · exact .inl failed

theorem storedReport_fresh {provider : Provider} {kept : Report} {now : ℚ} (failed : Failed provider raw)
  (undated : (checkedReport provider raw).observedAt = none) (fresh : reportFresh (some kept) now none) :
  storedReport provider raw (some kept) now = kept := by
  unfold storedReport
  rw [if_pos ⟨failed, undated, fresh⟩]
  rfl

theorem lookup_map_id (rows : List PoolAccount) (stored : ℕ -> Report) {row : PoolAccount} (mem : row ∈ rows) :
  (rows.map fun row => (row.id, stored row.id)).lookup row.id = some (stored row.id) := by
  induction rows with
  | nil => cases mem
  | cons head rows ih =>
    rw [map_cons, lookup_cons]
    by_cases same : row.id = head.id
    · rw [same, beq_self_eq_true]
    · rw [beq_false_of_ne same]
      refine ih ((mem_cons.mp mem).resolve_left ?_)
      rintro rfl
      exact same rfl

section Store

variable {provider : Provider} {reported : Reported} {now : ℚ} {pool after : Pool}

theorem storeAccountReports_cases (given : reported.accountReports ≠ .missing)
  (stored : storeAccountReports provider reported now pool = .ok after) :
  after.accounts = pool.accounts /\ after.caps = pool.caps /\ after.usage = pool.usage /\ after.reporter = pool.reporter /\
    after.chat = pool.chat /\
    ∃ reports, after.reports = some reports /\ ∀ row ∈ pool.listAccounts,
      reports.lookup row.id = some (storedReport provider (reported.observation row.id)
        ((pool.reports.getD []).lookup row.id) now) := by
  unfold storeAccountReports at stored
  split at stored
  · rename_i missing
    exact absurd missing given
  · cases stored
  · rename_i reports isGiven
    split at stored
    · cases stored
    · cases stored
      refine ⟨rfl, rfl, rfl, rfl, rfl, _, rfl, fun row mem => ?_⟩
      unfold Reported.observation
      rw [isGiven]
      exact lookup_map_id pool.listAccounts (fun id => storedReport provider ((reports.lookup id).getD .missing)
        ((pool.reports.getD []).lookup id) now) mem

variable {reports : List (ℕ × Report)} {row : PoolAccount}

theorem upstreamCapacity_unavailable (known : after.accountReports = some reports)
  {report : Report} (found : reports.lookup row.id = some report) (unavailable : report.available = false) :
  upstreamCapacity after row now none = (some 0, some 0) := by
  have stale : reportFresh (some report) now none = false := by
    unfold reportFresh
    dsimp only
    rw [if_pos unavailable]
  simp [upstreamCapacity, Pool.familyPct, known, found, stale]

theorem upstreamCapacity_kept {others : List (ℕ × Report)} (known : pool.accountReports = some reports)
  (knownAfter : after.accountReports = some others) (same : others.lookup row.id = reports.lookup row.id) :
  upstreamCapacity after row now none = upstreamCapacity pool row now none := by
  unfold upstreamCapacity
  rw [known, knownAfter]
  dsimp only
  rw [same]
  rfl

def RaisesNone (provider : Provider) (reported : Reported) (now : ℚ) (pool : Pool) : Prop :=
  ∀ after, storeAccountReports provider reported now pool = .ok after -> ∀ row ∈ pool.listAccounts,
    Failed provider (reported.observation row.id) \/
      (NotAbove (upstreamCapacity pool row now none).1 (upstreamCapacity after row now none).1 /\
        NotAbove (upstreamCapacity pool row now none).2 (upstreamCapacity after row now none).2)

section

variable (reporter : pool.reporter) (given : reported.accountReports ≠ .missing) (stored : storeAccountReports provider reported now pool = .ok after)
include reporter given stored

theorem upstreamCapacity_failed
  (mem : row ∈ pool.listAccounts)
  (failed : Failed provider (reported.observation row.id)) :
  NotAbove (upstreamCapacity pool row now none).1 (upstreamCapacity after row now none).1 /\
    NotAbove (upstreamCapacity pool row now none).2 (upstreamCapacity after row now none).2 := by
  rcases storeAccountReports_cases given stored with ⟨_, _, _, sameReporter, _, reports, isStored, lookups⟩
  have knownAfter : after.accountReports = some reports := by
    unfold Pool.accountReports
    rw [sameReporter, reporter, if_pos rfl, isStored]
  rcases storedReport_failed failed ((pool.reports.getD []).lookup row.id) now with unavailable | stays
  · rw [upstreamCapacity_unavailable knownAfter (lookups row mem) unavailable]
    have fractions := upstreamCapacity_fraction pool row now none
    exact ⟨notAbove_zero fractions.1, notAbove_zero fractions.2⟩
  · cases before : pool.reports with
    | none =>
      rw [before] at stays
      cases stays
    | some kept =>
      have known : pool.accountReports = some kept := by
        unfold Pool.accountReports
        rw [reporter, if_pos rfl, before]
      have same : reports.lookup row.id = kept.lookup row.id := by
        rw [lookups row mem, <- stays, before]
        rfl
      rw [upstreamCapacity_kept known knownAfter same]
      exact ⟨notAbove_refl _, notAbove_refl _⟩

theorem storeAccountReports_tighter
  (raisesNone : RaisesNone provider reported now pool) :
  Tighter pool after now none := by
  rcases storeAccountReports_cases given stored with ⟨accounts, caps, usage, _⟩
  have each : ∀ row ∈ pool.listAccounts,
      NotAbove (upstreamCapacity pool row now none).1 (upstreamCapacity after row now none).1 /\
        NotAbove (upstreamCapacity pool row now none).2 (upstreamCapacity after row now none).2 := by
    intro row mem
    rcases raisesNone after stored row mem with failed | lower
    · exact upstreamCapacity_failed reporter given stored mem failed
    · exact lower
  exact ⟨accounts, caps, usage, fun row mem => (each row mem).1, fun row mem => (each row mem).2⟩

end

end Store

theorem lowered_notAbove {value : Scalar} {stored result : Option ℚ} (found : lowered value stored = .ok result) :
  NotAbove stored result := by
  unfold lowered at found
  split at found
  · cases found
    exact notAbove_refl stored
  · split at found
    · cases found
    · rename_i fraction _
      cases found
      intro _ same
      rw [same]
      exact ⟨_, rfl, min_le_left _ _⟩

theorem loweredBoth_notAbove {reported : Reported} {stored result : Option ℚ × Option ℚ}
  (found : loweredBoth reported stored = .ok result) : NotAbove stored.1 result.1 /\ NotAbove stored.2 result.2 := by
  unfold loweredBoth at found
  cases window : lowered reported.windowLeft stored.1 with
  | error message =>
    rw [window] at found
    cases found
  | ok windowLeft =>
    cases weekly : lowered reported.weeklyLeft stored.2 with
    | error message =>
      rw [window, weekly] at found
      cases found
    | ok weeklyLeft =>
      rw [window, weekly] at found
      cases found
      exact ⟨lowered_notAbove window, lowered_notAbove weekly⟩

theorem withdrawn_notAbove (chat failed : Bool) {stored left : Option ℚ × Option ℚ} (inside : IsFraction stored.1 /\ IsFraction stored.2)
  (below : NotAbove stored.1 left.1 /\ NotAbove stored.2 left.2) :
  NotAbove stored.1 (withdrawn chat failed left).1 /\ NotAbove stored.2 (withdrawn chat failed left).2 := by
  unfold withdrawn
  split
  · exact ⟨notAbove_zero inside.1, notAbove_zero inside.2⟩
  · exact below

theorem aggregated_notAbove (reported : Option Reported) (failed : Bool) (stored : Option ℚ × Option ℚ) :
  NotAbove stored.1 (aggregated reported failed stored).1.1 /\ NotAbove stored.2 (aggregated reported failed stored).1.2 := by
  unfold aggregated
  split
  · exact ⟨notAbove_refl _, notAbove_refl _⟩
  · split
    · exact ⟨notAbove_refl _, notAbove_refl _⟩
    · rename_i found
      exact loweredBoth_notAbove found

def Quiet (provider : Provider) (answer : Answer) (now : ℚ) (pool : Pool) : Prop :=
  match answer with
  | .raised => True
  | .invalid => True
  | .dictionary reported => reported.accountReports ≠ .missing /\ RaisesNone provider reported now pool

section Quota

variable {provider : Provider} {answer : Answer} {monotonic now : ℚ} {pool : Pool}

theorem aggregated_failed (reported : Option Reported) (stored : Option ℚ × Option ℚ) : (aggregated reported true stored).2 := by
  unfold aggregated
  split
  · rfl
  · split <;> rfl

theorem readReporter_cases (reporter : pool.reporter) (quiet : Quiet provider answer now pool) :
  readReporter provider answer now pool = (none, true, pool) \/
    ∃ reported after, readReporter provider answer now pool = (some reported, false, after) /\
      after.chat = pool.chat /\ Tighter pool after now none := by
  unfold readReporter
  rw [reporter, if_pos rfl]
  cases answer with
  | raised | invalid => exact .inl rfl
  | dictionary reported =>
    dsimp only
    cases stored : storeAccountReports provider reported now pool with
    | error message => exact .inl rfl
    | ok after =>
      refine .inr ⟨reported, after, rfl, ?_, storeAccountReports_tighter reporter quiet.1 stored quiet.2⟩
      exact (storeAccountReports_cases quiet.1 stored).2.2.2.2.1

theorem Tighter.fractions {after : Pool} (tighter : Tighter pool after now none) {before later : Option ℚ × Option ℚ}
  (found : fractionsFromAccounts pool pool.listAccounts now none = .ok before)
  (foundLater : fractionsFromAccounts after after.listAccounts now none = .ok later) :
  NotAbove before.1 later.1 /\
    (unbudgetedServes after after.listAccounts now none = unbudgetedServes pool pool.listAccounts now none ->
      NotAbove before.2 later.2) := by
  rw [fractionsFromAccounts_eq] at found foundLater
  cases found
  cases foundLater
  constructor
  · intro value known
    cases known
    exact ⟨_, rfl, tighter.windowFraction⟩
  · intro same _ known
    dsimp only at known ⊢
    split at known
    · cases known
    · rename_i closed
      cases known
      rw [if_neg fun opened => closed (tighter.weeklyOpen opened)]
      exact ⟨_, rfl, tighter.weeklyFraction (Bool.eq_false_of_not_eq_true closed) same⟩

theorem pooledQuota_notAbove (reporter : pool.reporter) (quiet : Quiet provider answer now pool)
  {before : Option ℚ × Option ℚ} (found : fractionsFromAccounts pool pool.listAccounts now none = .ok before)
  {fractions : Option ℚ × Option ℚ}
  (foundLater : fractionsFromAccounts (readReporter provider answer now pool).2.2
    (readReporter provider answer now pool).2.2.listAccounts now none = .ok fractions)
  {left : Option ℚ × Option ℚ}
  (isLeft : left = withdrawn (readReporter provider answer now pool).2.2.chat
    (aggregated (readReporter provider answer now pool).1 (readReporter provider answer now pool).2.1 fractions).2
    (aggregated (readReporter provider answer now pool).1 (readReporter provider answer now pool).2.1 fractions).1) :
  NotAbove (withdrawn pool.chat false before).1 left.1 /\
    (unbudgetedServes (readReporter provider answer now pool).2.2 (readReporter provider answer now pool).2.2.listAccounts now none =
        unbudgetedServes pool pool.listAccounts now none ->
      NotAbove (withdrawn pool.chat false before).2 left.2) := by
  have inside := isFraction_withdrawn pool.chat false (fractionsFromAccounts_fraction found)
  subst isLeft
  rcases readReporter_cases reporter quiet with failed | ⟨reported, _, read, chat, tighter⟩
  · rw [failed]
    have nothing : withdrawn pool.chat (aggregated none true fractions).2 (aggregated none true fractions).1 = (some 0, some 0) :=
      if_pos (.inr (aggregated_failed none fractions))
    rw [nothing]
    exact ⟨notAbove_zero inside.1, fun _ => notAbove_zero inside.2⟩
  · rw [read] at foundLater ⊢
    dsimp only at foundLater ⊢
    rw [chat]
    cases registered : pool.chat with
    | false =>
      rw [registered] at inside
      have nothing : ∀ left, withdrawn false (aggregated (some reported) false fractions).2 left = (some 0, some 0) :=
        fun left => if_pos (.inl rfl)
      exact ⟨notAbove_zero inside.1, fun _ => notAbove_zero inside.2⟩
    | true =>
      have unchanged : withdrawn true false before = before := if_neg (by simp)
      have lower := tighter.fractions found foundLater
      have aggregate := aggregated_notAbove (some reported) false fractions
      have last := withdrawn_notAbove true (aggregated (some reported) false fractions).2
        (fractionsFromAccounts_fraction foundLater) aggregate
      exact ⟨notAbove_trans lower.1 last.1, fun same => notAbove_trans (lower.2 same) last.2⟩

end Quota

def PoolAccount.lastGood (row : PoolAccount) : PoolAccount :=
  { row with
    status := .active
    lastError := ""
    lastCheckedAt := none }

section Storage

variable {accountId : ℕ} {report : QuotaReport} {now : ℚ} {pool after : Pool}

section

variable (failed : report.error ≠ "") (stored : reportQuota accountId report now pool = .ok after)
include failed stored

theorem reportQuota_failed :
  after = { pool with
    accounts := Rows.updateWhere (·.id = accountId) (·.failed report.error now) pool.accounts
    cache := none } := by
  unfold reportQuota at stored
  split at stored
  · cases stored
  · rcases except_bind_ok stored with ⟨_, _, stored⟩
    rcases except_bind_ok stored with ⟨_, _, stored⟩
    rcases except_bind_ok stored with ⟨_, _, stored⟩
    rcases except_bind_ok stored with ⟨_, _, stored⟩
    rcases except_bind_ok stored with ⟨_, _, stored⟩
    rcases except_bind_ok stored with ⟨_, _, stored⟩
    cases stored
    simp [failed]

theorem reportQuota_lastGood :
  after.accounts.map lastGood = pool.accounts.map lastGood := by
  rw [reportQuota_failed failed stored]
  exact Rows.map_updateWhere lastGood fun row => rfl

theorem reportQuota_active :
  after.listAccounts = pool.listAccounts.filter (fun row => !decide (row.id = accountId)) := by
  rw [reportQuota_failed failed stored]
  unfold Pool.listAccounts
  induction pool.accounts with
  | nil => rfl
  | cons row rows ih =>
    unfold Rows.updateWhere at ih ⊢
    have inactive : (row.failed report.error now).status ≠ .active := by
      unfold PoolAccount.failed
      split <;> exact nofun
    simp only [decide_eq_true_eq, filter_filter] at ih
    by_cases named : row.id = accountId
    · by_cases active : row.status = .active <;> simp [named, active, inactive, ih]
    · by_cases active : row.status = .active <;> simp [named, active, ih]

theorem reportQuota_total :
  total (windowPart after now none) after.listAccounts <= total (windowPart pool now none) pool.listAccounts := by
  have same : windowPart after now none = windowPart pool now none := by
    rw [reportQuota_failed failed stored]
    rfl
  rw [same, reportQuota_active failed stored, total_filter]
  refine total_mono fun row mem => ?_
  split
  · exact le_refl _
  · exact (window_within pool pool.listAccounts now none).nonneg row mem

end

end Storage

/-- For every pool and every instant. -/
theorem failures_raise_nothing (provider : Provider) (monotonic now : ℚ) (pool : Pool) :
  (∀ accountId report after, report.error ≠ "" -> reportQuota accountId report now pool = .ok after ->
    after.accounts.map PoolAccount.lastGood = pool.accounts.map PoolAccount.lastGood /\
      Shares.total (windowPart after now none) after.listAccounts <= Shares.total (windowPart pool now none) pool.listAccounts) /\
  (∀ reported after, reported.accountReports ≠ .missing -> storeAccountReports provider reported now pool = .ok after ->
    ∀ row ∈ pool.listAccounts, Failed provider (reported.observation row.id) ->
      (checkedReport provider (reported.observation row.id)).observedAt = none ->
      ∀ kept, (pool.reports.getD []).lookup row.id = some kept -> reportFresh (some kept) now none ->
        (after.reports.getD []).lookup row.id = some kept) /\
  (pool.reporter -> ∀ answer, ∃ before quota stored,
    fractionsFromAccounts pool pool.listAccounts now none = .ok before /\
    pooledQuota provider monotonic now true answer pool = .ok (quota, stored) /\
    ((readReporter provider answer now pool).2.1 -> quota.windowLeft = some 0 /\ quota.weeklyLeft = some 0) /\
    (Quiet provider answer now pool ->
      NotAbove (withdrawn pool.chat false before).1 quota.windowLeft /\
      (unbudgetedServes (readReporter provider answer now pool).2.2
            (readReporter provider answer now pool).2.2.listAccounts now none =
          unbudgetedServes pool pool.listAccounts now none ->
        NotAbove (withdrawn pool.chat false before).2 quota.weeklyLeft))) := by
  refine ⟨?_, ?_, ?_⟩
  · intro accountId report after failed stored
    exact ⟨reportQuota_lastGood failed stored, reportQuota_total failed stored⟩
  · intro reported after given stored row mem failed undated kept last fresh
    rcases storeAccountReports_cases given stored with ⟨_, _, _, _, _, reports, isStored, lookups⟩
    rw [isStored, Option.getD_some, lookups row mem, last, storedReport_fresh failed undated fresh]
  · intro reporter answer
    have found := fractionsFromAccounts_eq pool pool.listAccounts now none
    rcases pooledQuota_cases provider monotonic now true answer pool with ⟨_, young, _⟩ | ⟨_, quota, asked, fractions, foundLater, isLeft⟩
    · cases young
    · refine ⟨_, quota, _, found, asked, ?_, fun quiet => pooledQuota_notAbove reporter quiet found foundLater isLeft⟩
      intro failed
      rw [failed, aggregated_failed, withdrawn, if_pos (.inr rfl), Prod.mk.injEq] at isLeft
      exact isLeft

def observedReport (windowLeft : Fraction) : Report where
  available := true
  source := .native
  status := .available
  observedAt := some 0
  windowResetsAt := none
  weeklyResetsAt := none
  windowLeft := some windowLeft
  weeklyLeft := none
  modelLimits := []

def observedPool : Pool :=
  { localPool [localAccount 1 100 0, localAccount 2 100 0] with
    reporter := true
    reports := some [(1, observedReport ⟨1 / 2, by norm_num⟩), (2, observedReport ⟨1 / 5, by norm_num⟩)] }

def goodReport : RawReport where
  available := .flag true
  source := .text "claude_code"
  status := .null
  observedAt := .number 0
  windowResetsAt := .null
  weeklyResetsAt := .null
  windowLeft := .number (9 / 10)
  weeklyLeft := .null
  modelLimits := .missing

/-- Both observations fail, and the pool has what it had. -/
theorem failures_raise_nothing_undated :
  let answer : Answer := .dictionary ⟨.null, .null, .given [(1, .invalid), (2, .missing)]⟩
  ∃ before quota stored,
    fractionsFromAccounts observedPool observedPool.listAccounts 0 none = .ok before /\
    pooledQuota .claude 0 0 true answer observedPool = .ok (quota, stored) /\
    NotAbove (withdrawn observedPool.chat false before).1 quota.windowLeft := by
  intro answer
  have quiet : Quiet .claude answer 0 observedPool := by
    refine ⟨nofun, fun after stored row mem => .inl ?_⟩
    rcases mem_cons.mp (mem_of_mem_filter mem) with rfl | other
    · rfl
    · rw [mem_singleton.mp other]
      rfl
  rcases (failures_raise_nothing .claude 0 0 observedPool).2.2 rfl answer with ⟨before, quota, stored, found, asked, _, lower⟩
  exact ⟨before, quota, stored, found, asked, (lower quiet).1⟩

/-- One observation fails and the other one is good: 35% of the pool were left, and 70% are. -/
theorem failure_beside_raise :
  ((fractionsFromAccounts observedPool observedPool.listAccounts 0 none).map fun fractions => fractions.1).toOption =
      some (some (7 / 20)) /\
    ((pooledQuota .claude 0 0 true (.dictionary ⟨.null, .null, .given [(1, .invalid), (2, .given goodReport)]⟩) observedPool).map
      fun result => result.1.windowLeft).toOption = some (some (7 / 10)) /\
    ((fractionsFromAccounts (localPool [localAccount 1 100 100, localAccount 2 100 0])
      [localAccount 1 100 100, localAccount 2 100 0] 0 none).map fun fractions => fractions.1).toOption = some (some (1 / 2)) /\
    ((reportQuota 1 ⟨none, none, none, none, none, none, "No answer"⟩ 0
        (localPool [localAccount 1 100 100, localAccount 2 100 0])).bind fun after =>
      (fractionsFromAccounts after after.listAccounts 0 none).map fun fractions => fractions.1).toOption = some (some 1) := by
  decide +kernel

end BananaChat.Subscriptions.Pooled

import BananaChat.Subscriptions.PoolReports
import BananaChat.Subscriptions.PoolShares

namespace BananaChat.Subscriptions.Pooled


/-!
# What a capacity report knows

The capacity of a model is the smaller of the pooled quota and of what its own accounts have, where
both are known.
-/

theorem pooledQuota_cases (provider : Provider) (monotonic now : ℚ) (force : Bool) (answer : Answer) (pool : Pool) :
  (∃ quota, cached monotonic force pool = some quota /\
    pooledQuota provider monotonic now force answer pool = .ok (quota, pool)) \/
  (cached monotonic force pool = none /\ ∃ quota, pooledQuota provider monotonic now force answer pool =
      .ok (quota, { (readReporter provider answer now pool).2.2 with cache := some (monotonic, quota) }) /\
    ∃ fractions, fractionsFromAccounts (readReporter provider answer now pool).2.2
        (readReporter provider answer now pool).2.2.listAccounts now none = .ok fractions /\
      (quota.windowLeft, quota.weeklyLeft) = withdrawn (readReporter provider answer now pool).2.2.chat
        (aggregated (readReporter provider answer now pool).1 (readReporter provider answer now pool).2.1 fractions).2
        (aggregated (readReporter provider answer now pool).1 (readReporter provider answer now pool).2.1 fractions).1) := by
  unfold pooledQuota
  cases young : cached monotonic force pool with
  | some quota => exact .inl ⟨quota, rfl, rfl⟩
  | none =>
    refine .inr ⟨rfl, ?_⟩
    dsimp only
    split
    · rename_i message failed
      rw [fractionsFromAccounts_eq] at failed
      cases failed
    · rename_i fractions found
      exact ⟨_, rfl, fractions, found, rfl⟩

theorem pooledQuota_ok (provider : Provider) (monotonic now : ℚ) (force : Bool) (answer : Answer) (pool : Pool) :
  ∃ quota stored, pooledQuota provider monotonic now force answer pool = .ok (quota, stored) := by
  rcases pooledQuota_cases provider monotonic now force answer pool with ⟨quota, _, found⟩ | ⟨_, quota, found, _⟩
  · exact ⟨quota, _, found⟩
  · exact ⟨quota, _, found⟩

def NotAbove (pooled own : Option ℚ) : Prop :=
  ∀ value, pooled = some value -> ∃ capacity, own = some capacity /\ capacity <= value

theorem combined_known (pooled : Option ℚ) (own : ℚ) : NotAbove pooled (combined pooled (some own)) := by
  intro value known
  rw [known]
  exact ⟨min value own, rfl, min_le_left _ _⟩

theorem combined_unknown (pooled : Option ℚ) : combined pooled none = none := by
  cases pooled <;> rfl

def LeavesOpen (pool : Pool) (descriptor : Descriptor) (now : ℚ) (row : PoolAccount) : Prop :=
  row ∈ pool.servers descriptor /\ row.weeklyLimit = none /\ usable pool row now (some descriptor.family) /\
    (upstreamCapacity pool row now (some descriptor.family)).2 = none

section Report

variable {provider : Provider} {discovery : Discovery} {name : String} {monotonic now later : ℚ} {answer : Answer} {pool : Pool}

theorem capacityReport_offered {descriptor : Descriptor} (isOffered : offered discovery name pool = some descriptor) {quota : Quota}
  {stored : Pool} (found : pooledQuota provider monotonic now false answer pool = .ok (quota, stored)) :
  capacityReport provider discovery name monotonic now later answer pool =
    .ok (⟨combined quota.windowLeft (some (windowFraction stored (stored.servers descriptor) later (some descriptor.family))),
      combined quota.weeklyLeft
        (if weeklyOpen stored (stored.servers descriptor) later (some descriptor.family) then none
          else some (weeklyFraction stored (stored.servers descriptor) later (some descriptor.family)))⟩, stored) := by
  unfold capacityReport
  rw [isOffered]
  rw [found]
  change (fractionsFromAccounts stored (stored.servers descriptor) later (some descriptor.family) >>= _) = _
  rw [fractionsFromAccounts_eq]
  rfl

theorem capacityReport_withdrawn (withdrawn : offered discovery name pool = none) :
  capacityReport provider discovery name monotonic now later answer pool = .ok (⟨some 0, some 0⟩, pool) := by
  unfold capacityReport
  rw [withdrawn]

end Report

/--
For every pool, report and clock: the capacity of a model knows the 5-hour fraction wherever the pool knows
it, and none that is larger.
-/
theorem capacityReport_known (provider : Provider) (discovery : Discovery) (name : String) (monotonic now later : ℚ)
  (answer : Answer) (pool : Pool) : ∃ quota stored capacity after,
    pooledQuota provider monotonic now false answer pool = .ok (quota, stored) /\
    capacityReport provider discovery name monotonic now later answer pool = .ok (capacity, after) /\
    NotAbove quota.windowLeft capacity.windowLeft /\
    ∀ weekly, quota.weeklyLeft = some weekly ->
      ((∃ own, capacity.weeklyLeft = some own /\ own <= weekly) ↔
        ∀ descriptor, offered discovery name pool = some descriptor -> ∀ row, ¬ LeavesOpen stored descriptor later row) := by
  rcases pooledQuota_ok provider monotonic now false answer pool with ⟨quota, stored, found⟩
  cases isOffered : offered discovery name pool with
  | none =>
    refine ⟨quota, stored, _, _, found, capacityReport_withdrawn isOffered, ?_, ?_⟩
    · intro value known
      exact ⟨0, rfl, (quota.windowFraction value known).1⟩
    · intro weekly known
      exact iff_of_true ⟨0, rfl, (quota.weeklyFraction weekly known).1⟩ (fun descriptor clash => nomatch clash)
  | some descriptor =>
    refine ⟨quota, stored, _, _, found, capacityReport_offered isOffered found, combined_known _ _, ?_⟩
    intro weekly known
    cases opened : weeklyOpen stored (stored.servers descriptor) later (some descriptor.family) with
    | true =>
      rcases weeklyOpen_iff.mp opened with ⟨row, opens⟩
      rw [if_pos rfl, combined_unknown]
      refine iff_of_false (fun ⟨_, clash, _⟩ => (nomatch clash)) fun closed => ?_
      exact closed descriptor rfl row opens
    | false =>
      refine iff_of_true (combined_known _ _ weekly known) ?_
      intro other same row opens
      cases same
      rw [weeklyOpen_iff.mpr ⟨row, opens⟩] at opened
      cases opened

/-- The pool knows the weekly fraction that the reporter told, and the capacity of the model does not. -/
theorem weekly_report_dropped : let pool : Pool := { localPool [localAccount 1 100 20] with reporter := true }
  let answer : Answer := .dictionary ⟨.null, .number (3 / 10), .missing⟩
  let discovery : Discovery := ⟨true, [⟨"claude-opus", "opus", none⟩]⟩
  ((pooledQuota .claude 0 0 false answer pool).map fun result => result.1.weeklyLeft).toOption = some (some (3 / 10)) /\
    ((capacityReport .claude discovery "claude-opus" 0 0 0 answer pool).map fun result => result.1.weeklyLeft).toOption =
      some none := by
  decide +kernel

end BananaChat.Subscriptions.Pooled

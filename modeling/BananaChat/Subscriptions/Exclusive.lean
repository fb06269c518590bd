import BananaChat.Foundation.Machine
import BananaChat.Subscriptions.Accounts

namespace BananaChat.Subscriptions

open Foundation List Rows

/-!
# Leases are exclusive

Processes claim, renew, release, rest, quarantine and record in any order, each operation with a
clock reading of its own.
-/

inductive Action
  | claim (accountId leaseId : ℕ) (provider : Provider) (now : ℚ)
  | renew (accountId leaseId : ℕ) (now : ℚ)
  | release (accountId leaseId : ℕ)
  | quarantine (accountId leaseId : ℕ) (now : ℚ)
  | rest (accountId : ℕ) (cooldownUntil : ℤ) (error : String) (leaseId : Option ℕ) (now : ℚ)
  | recordUsage (accountId : ℕ) (tokensIn tokensOut : ℤ) (provider : Provider) (family : String)
      (leaseId : Option ℕ) (now : ℚ)
  | clearCooldown (accountId : ℕ)
  | updateStatus (accountId : ℕ) (status : AccountStatus)

def perform (tables : Tables) : Action -> Tables
  | .claim accountId leaseId provider now =>
    match claim accountId leaseId provider now tables with
    | .ok (_, claimed) => claimed
    | .error _ => tables
  | .renew accountId leaseId now => (renew accountId leaseId now tables).2
  | .release accountId leaseId => release accountId leaseId tables
  | .quarantine accountId leaseId now => (quarantine accountId leaseId now tables).2
  | .rest accountId cooldownUntil error leaseId now => (rest accountId cooldownUntil error leaseId now tables).2
  | .recordUsage accountId tokensIn tokensOut provider family leaseId now =>
    match recordUsage accountId tokensIn tokensOut provider family leaseId now tables with
    | .ok recorded => recorded
    | .error _ => tables
  | .clearCooldown accountId => clearCooldown accountId tables
  | .updateStatus accountId status => updateStatus accountId status tables

structure Tables.Keyed (tables : Tables) : Prop where
  accounts : (tables.accounts.map Account.id).Nodup
  leases : (tables.leases.map Lease.accountId).Nodup
  usage : (tables.usage.map UsageRow.leaseId).Nodup

instance (tables : Tables) : Decidable tables.Keyed :=
  decidable_of_iff ((tables.accounts.map Account.id).Nodup /\ (tables.leases.map Lease.accountId).Nodup /\
      (tables.usage.map UsageRow.leaseId).Nodup)
    ⟨fun keys => ⟨keys.1, keys.2.1, keys.2.2⟩, fun keyed => ⟨keyed.accounts, keyed.leases, keyed.usage⟩⟩

def pool : Machine Tables Action where
  initial := Tables.Keyed
  enabled := fun _ _ => True
  next := perform

def heldLeases (tables : Tables) (accountId : ℕ) (now : ℚ) : List Lease :=
  tables.leases.filter (Lease.unexpired accountId now)

def Holds (tables : Tables) (accountId leaseId : ℕ) (now : ℚ) : Prop :=
  ∃ lease ∈ tables.leases, lease.heldBy accountId leaseId now

instance (tables : Tables) (accountId leaseId : ℕ) (now : ℚ) : Decidable (Holds tables accountId leaseId now) :=
  inferInstanceAs (Decidable (∃ lease ∈ tables.leases, lease.heldBy accountId leaseId now))

structure Counters where
  accountId : ℕ
  windowUsed : ℕ
  windowResetsAt : Option ℤ
  weeklyUsed : ℕ
  weeklyResetsAt : Option ℤ
deriving DecidableEq

def Account.counters (account : Account) : Counters :=
  { accountId := account.id, windowUsed := account.windowUsed, windowResetsAt := account.windowResetsAt,
    weeklyUsed := account.weeklyUsed, weeklyResetsAt := account.weeklyResetsAt }

def Tables.counters (tables : Tables) : List Counters := tables.accounts.map Account.counters

structure Standing where
  accountId : ℕ
  status : AccountStatus
  cooldownUntil : Option ℤ
  lastError : String

def Account.standing (account : Account) : Standing :=
  { accountId := account.id, status := account.status, cooldownUntil := account.cooldownUntil, lastError := account.lastError }

def Tables.standings (tables : Tables) : List Standing := tables.accounts.map Account.standing

def charged (tables : Tables) : Action -> List ℕ
  | .recordUsage accountId tokensIn tokensOut provider family (some leaseId) now =>
    if (perform tables (.recordUsage accountId tokensIn tokensOut provider family (some leaseId) now)).counters
        = tables.counters then [] else [leaseId]
  | _ => []

section Claims

variable {accountId leaseId : ℕ} {provider : Provider} {now : ℚ} {tables : Tables}

theorem claim_cases {claimed : Bool} {after : Tables} (done : claim accountId leaseId provider now tables = .ok (claimed, after)) :
  after.accounts = tables.accounts /\ after.usage = tables.usage /\ ∃ swept, List.Sublist swept tables.leases /\
      ((claimed = false /\ after.leases = swept) \/ (claimed /\ (∀ lease ∈ swept, lease.accountId ≠ accountId) /\
          after.leases = swept ++
            [{ accountId, leaseId, provider, heartbeatAt := now, expiresAt := now + leaseSeconds }])) := by
  unfold claim at done
  by_cases free : (tables.accounts.any fun account => account.serving accountId && decide (account.provider = provider)) /\
      ∀ lease, lease ∈ deleteWhere
        (fun lease : Lease => decide (lease.accountId = accountId /\ lease.expiresAt <= now)) tables.leases -> lease.accountId ≠ accountId
  · rw [if_pos free] at done
    split at done
    · cases done
    · cases done
      exact ⟨rfl, rfl, _, deleteWhere_sublist, .inr ⟨rfl, free.2, rfl⟩⟩
  · rw [if_neg free] at done
    cases done
    exact ⟨rfl, rfl, _, deleteWhere_sublist, .inl ⟨rfl, rfl⟩⟩

end Claims

variable {accountId leaseId : ℕ} {now : ℚ} {tables : Tables}

theorem release_heldLeases {later : ℚ} (lost : ¬ Holds tables accountId leaseId now) (after : now <= later) (other : ℕ) :
  heldLeases (release accountId leaseId tables) other later = heldLeases tables other later := by
  unfold heldLeases release deleteWhere
  rw [filter_filter]
  apply filter_congr
  intro lease mem
  by_cases named : lease.named accountId leaseId
  · have ended : ¬ Lease.unexpired other later lease := by
      intro unexpired
      have own := of_decide_eq_true named
      have current := of_decide_eq_true unexpired
      exact lost ⟨lease, mem, decide_eq_true ⟨own.1, own.2, lt_of_le_of_lt after current.2⟩⟩
    rw [Bool.not_eq_true] at ended
    rw [ended, Bool.false_and]
  · rw [Bool.not_eq_true] at named
    rw [named, Bool.not_false, Bool.and_true]

theorem unselected_of_not_holds (lost : ¬ Holds tables accountId leaseId now) : ∀ account ∈ tables.accounts,
  ¬ (account.named accountId && tables.leases.any (Lease.heldBy accountId leaseId now)) := by
  have noHolder : tables.leases.any (Lease.heldBy accountId leaseId now) = false := by
    rw [any_eq_false]
    intro lease mem held
    exact lost ⟨lease, mem, held⟩
  intro _ _
  rw [noHolder, Bool.and_false]
  exact Bool.false_ne_true

theorem quarantine_of_not_holds (lost : ¬ Holds tables accountId leaseId now) :
  quarantine accountId leaseId now tables = (false, tables) := by
  have unselected := unselected_of_not_holds lost
  unfold quarantine
  dsimp only
  rw [updateWhere_eq_self unselected, affected_eq_zero_iff.mpr unselected]
  rfl

theorem rest_of_not_holds (cooldownUntil : ℤ) (error : String) (lost : ¬ Holds tables accountId leaseId now) :
  rest accountId cooldownUntil error (some leaseId) now tables = (false, tables) := by
  have unselected := unselected_of_not_holds lost
  unfold rest
  dsimp only
  rw [updateWhere_eq_self unselected, affected_eq_zero_iff.mpr unselected]
  rfl

section Recordings

variable {accountId : ℕ} {tokensIn tokensOut : ℤ} {provider : Provider} {family : String} {now : ℚ} {tables after : Tables}

theorem bumpCounters_keeps {windowUsed weeklyUsed : ℕ} {windowResetsAt weeklyResetsAt : Option ℤ} :
  (bumpCounters accountId windowUsed windowResetsAt weeklyUsed weeklyResetsAt tables).standings = tables.standings /\
    (bumpCounters accountId windowUsed windowResetsAt weeklyUsed weeklyResetsAt tables).accounts.map Account.id =
      tables.accounts.map Account.id :=
  ⟨map_updateWhere Account.standing (fun _ => rfl), map_updateWhere Account.id fun _ => rfl⟩

theorem insertUsage_cases (row : UsageRow) (tables : Tables) :
  (insertUsage row tables = (false, tables) /\ row.leaseId ∈ tables.usage.map UsageRow.leaseId) \/
    (insertUsage row tables = (true, { tables with usage := tables.usage ++ [row] }) /\
      row.leaseId ∉ tables.usage.map UsageRow.leaseId) := by
  unfold insertUsage
  rw [mem_map]
  by_cases recorded : ∃ other ∈ tables.usage, other.leaseId = row.leaseId
  · rw [if_pos recorded]
    exact .inl ⟨rfl, recorded⟩
  · rw [if_neg recorded]
    exact .inr ⟨rfl, recorded⟩

theorem recordUsage_cases
  (done : recordUsage accountId tokensIn tokensOut provider family (some leaseId) now tables = .ok after) :
  (after = tables /\ leaseId ∈ tables.usage.map UsageRow.leaseId) \/ (leaseId ∉ tables.usage.map UsageRow.leaseId /\
      after.usage.map UsageRow.leaseId = tables.usage.map UsageRow.leaseId ++ [leaseId]) := by
  unfold recordUsage at done
  cases found : tables.accounts.find? (·.id = accountId) with
  | none =>
    rw [found] at done
    cases done
  | some account =>
    simp only [found] at done
    by_cases foreign : account.provider ≠ provider
    · rw [if_pos foreign] at done
      cases done
    · rw [if_neg foreign] at done
      rcases insertUsage_cases
        { leaseId, accountId, provider, family, tokensIn := tokensIn.toNat, tokensOut := tokensOut.toNat, createdEpoch := now }
        tables with ⟨inserted, recorded⟩ | ⟨inserted, fresh⟩
      · rw [inserted, if_neg Bool.false_ne_true] at done
        cases done
        exact .inl ⟨rfl, recorded⟩
      · rw [inserted, if_pos rfl] at done
        cases done
        refine .inr ⟨fresh, ?_⟩
        change (tables.usage ++ [_]).map UsageRow.leaseId = _
        rw [map_append, map_singleton]

theorem recordUsage_keeps {leaseId : Option ℕ}
  (done : recordUsage accountId tokensIn tokensOut provider family leaseId now tables = .ok after) :
  after.leases = tables.leases /\ after.standings = tables.standings /\
    after.accounts.map Account.id = tables.accounts.map Account.id /\ (leaseId = none -> after.usage = tables.usage) := by
  unfold recordUsage at done
  cases found : tables.accounts.find? (·.id = accountId) with
  | none =>
    rw [found] at done
    cases done
  | some account =>
    simp only [found] at done
    by_cases foreign : account.provider ≠ provider
    · rw [if_pos foreign] at done
      cases done
    · rw [if_neg foreign] at done
      cases leaseId with
      | none =>
        cases done
        exact ⟨rfl, bumpCounters_keeps.1, bumpCounters_keeps.2, fun _ => rfl⟩
      | some leaseId =>
        rcases insertUsage_cases
          { leaseId, accountId, provider, family, tokensIn := tokensIn.toNat, tokensOut := tokensOut.toNat,
            createdEpoch := now } tables with ⟨inserted, _⟩ | ⟨inserted, _⟩
        · simp only [inserted, Bool.false_eq_true, if_false] at done
          cases done
          exact ⟨rfl, rfl, rfl, fun _ => rfl⟩
        · simp only [inserted, if_true] at done
          cases done
          exact ⟨rfl, bumpCounters_keeps.1, bumpCounters_keeps.2, fun unguarded => absurd unguarded (by simp)⟩

end Recordings

def Tables.recorded (tables : Tables) : List ℕ := tables.usage.map UsageRow.leaseId

theorem claim_perform (tables : Tables) {provider : Provider} :
  perform tables (.claim accountId leaseId provider now) = tables \/
    ∃ claimed, claim accountId leaseId provider now tables =
      .ok (claimed, perform tables (.claim accountId leaseId provider now)) := by
  unfold perform
  dsimp only
  cases done : claim accountId leaseId provider now tables with
  | error problem => exact .inl rfl
  | ok result => exact .inr ⟨result.1, rfl⟩

theorem recordUsage_perform (tables : Tables) {tokensIn tokensOut : ℤ} {provider : Provider} {family : String}
  {leaseId : Option ℕ} :
  perform tables (.recordUsage accountId tokensIn tokensOut provider family leaseId now) = tables \/
    recordUsage accountId tokensIn tokensOut provider family leaseId now tables =
      .ok (perform tables (.recordUsage accountId tokensIn tokensOut provider family leaseId now)) := by
  unfold perform
  dsimp only
  cases done : recordUsage accountId tokensIn tokensOut provider family leaseId now tables with
  | error problem => exact .inl rfl
  | ok result => exact .inr rfl

/-- A step leaves the ledger alone and charges nothing, or records one lease that
was not recorded and charges that one at most. -/
theorem perform_recorded (tables : Tables) (action : Action) :
  ((perform tables action).recorded = tables.recorded /\ charged tables action = []) \/
    ∃ leaseId, leaseId ∉ tables.recorded /\ (perform tables action).recorded = tables.recorded ++ [leaseId] /\
      (charged tables action = [] \/ charged tables action = [leaseId]) := by
  cases action with
  | claim accountId leaseId provider now =>
    refine .inl ⟨?_, rfl⟩
    rcases claim_perform tables with same | ⟨_, done⟩
    · rw [same]
    · unfold Tables.recorded
      rw [(claim_cases done).2.1]
  | renew accountId leaseId now | release accountId leaseId | quarantine accountId leaseId now
  | rest accountId cooldownUntil error leaseId now | clearCooldown accountId | updateStatus accountId status =>
    exact .inl ⟨rfl, rfl⟩
  | recordUsage accountId tokensIn tokensOut provider family leaseId now =>
    cases leaseId with
    | none =>
      refine .inl ⟨?_, rfl⟩
      rcases recordUsage_perform tables with same | done
      · rw [same]
      · unfold Tables.recorded
        rw [(recordUsage_keeps done).2.2.2 rfl]
    | some leaseId =>
      have reported : charged tables (.recordUsage accountId tokensIn tokensOut provider family (some leaseId) now) =
          if (perform tables (.recordUsage accountId tokensIn tokensOut provider family (some leaseId) now)).counters =
            tables.counters then [] else [leaseId] := rfl
      rcases recordUsage_perform tables with same | done
      · rw [reported, same, if_pos rfl]
        exact .inl ⟨rfl, rfl⟩
      · rcases recordUsage_cases done with ⟨same, _⟩ | ⟨fresh, grown⟩
        · rw [reported, same, if_pos rfl]
          exact .inl ⟨rfl, rfl⟩
        · refine .inr ⟨leaseId, fresh, grown, ?_⟩
          exact ite_eq_or_eq _ _ _

theorem perform_keys (tables : Tables) (action : Action) (distinct : (tables.leases.map Lease.accountId).Nodup) :
  (perform tables action).accounts.map Account.id = tables.accounts.map Account.id /\
    ((perform tables action).leases.map Lease.accountId).Nodup := by
  cases action with
  | claim accountId leaseId provider now =>
    rcases claim_perform tables with same | ⟨_, done⟩
    · rw [same]
      exact ⟨rfl, distinct⟩
    · rcases claim_cases done with ⟨accounts, _, _, fewer, ⟨_, leases⟩ | ⟨_, free, leases⟩⟩
      · rw [accounts, leases]
        exact ⟨rfl, (fewer.map Lease.accountId).nodup distinct⟩
      · rw [accounts, leases, map_append, map_singleton]
        refine ⟨rfl, List.Nodup.append ((fewer.map Lease.accountId).nodup distinct) (nodup_singleton _) ?_⟩
        rw [disjoint_singleton]
        intro taken
        rcases mem_map.mp taken with ⟨lease, mem, own⟩
        exact free lease mem own
  | renew accountId leaseId now =>
    have kept : (perform tables (.renew accountId leaseId now)).leases.map Lease.accountId =
        tables.leases.map Lease.accountId := map_updateWhere Lease.accountId (fun _ => rfl)
    exact ⟨rfl, by rwa [kept]⟩
  | release accountId leaseId => exact ⟨rfl, (deleteWhere_sublist.map Lease.accountId).nodup distinct⟩
  | quarantine accountId leaseId now | rest accountId cooldownUntil error leaseId now | clearCooldown accountId
  | updateStatus accountId status => exact ⟨map_updateWhere Account.id (fun _ => rfl), distinct⟩
  | recordUsage accountId tokensIn tokensOut provider family leaseId now =>
    rcases recordUsage_perform tables with same | done
    · rw [same]
      exact ⟨rfl, distinct⟩
    · rcases recordUsage_keeps done with ⟨leases, _, accounts, _⟩
      rw [leases]
      exact ⟨accounts, distinct⟩

theorem perform_keyed (tables : Tables) (action : Action) (keyed : tables.Keyed) : (perform tables action).Keyed := by
  rcases perform_keys tables action keyed.leases with ⟨accounts, leases⟩
  refine ⟨accounts ▸ keyed.accounts, leases, ?_⟩
  change (perform tables action).recorded.Nodup
  rcases perform_recorded tables action with ⟨same, _⟩ | ⟨_, fresh, grown, _⟩
  · rw [same]
    exact keyed.usage
  · rw [grown]
    exact List.Nodup.append keyed.usage (nodup_singleton _) (disjoint_singleton.mpr fresh)

structure Accounted (past : List ℕ) (tables : Tables) : Prop where
  keyed : tables.Keyed
  charges : ∀ leaseId, past.count leaseId <= tables.recorded.count leaseId

theorem accounted_of_trace {past : List ℕ} (trace : pool.Trace charged past tables) : Accounted past tables := by
  apply trace.induct
  · intro tables keyed
    exact ⟨keyed, fun leaseId => Nat.zero_le _⟩
  · intro _ tables action accounted _
    refine ⟨perform_keyed tables action accounted.keyed, ?_⟩
    intro leaseId
    have before := accounted.charges leaseId
    change _ <= (perform tables action).recorded.count leaseId
    rw [count_append]
    rcases perform_recorded tables action with ⟨same, silent⟩ | ⟨_, _, grown, silent | one⟩
    · rw [same, silent, count_nil]
      exact before
    · rw [grown, silent, count_nil, count_append]
      omega
    · rw [grown, one, count_append]
      omega

theorem heldLeases_length_le_one (keyed : tables.Keyed) (accountId : ℕ) (now : ℚ) :
  (heldLeases tables accountId now).length <= 1 := by
  have counted : (heldLeases tables accountId now).length <=
      affected (·.accountId = accountId) tables.leases := by
    unfold heldLeases affected
    rw [<- countP_eq_length_filter]
    apply countP_mono_left
    intro _ _ unexpired
    exact decide_eq_true (of_decide_eq_true unexpired).1
  rw [affected_key keyed.leases] at counted
  split at counted
  · exact counted
  · exact counted.trans (Nat.zero_le 1)

/--
In every state of every run an account has one unexpired lease at most, an operation with a lease the account
does not hold leaves its leases, status and counters alone, and a lease is in the ledger and in the counters
once at most.
-/
theorem leases_exclusive {past : List ℕ} {tables : Tables} (trace : pool.Trace charged past tables) :
  (∀ accountId now, (heldLeases tables accountId now).length <= 1) /\
    (∀ accountId leaseId now, ¬ Holds tables accountId leaseId now ->
      ((release accountId leaseId tables).accounts = tables.accounts /\
        ∀ other later, now <= later -> heldLeases (release accountId leaseId tables) other later = heldLeases tables other later) /\
      (∀ cooldownUntil error, rest accountId cooldownUntil error (some leaseId) now tables = (false, tables)) /\
      quarantine accountId leaseId now tables = (false, tables)) /\
    (∀ accountId tokensIn tokensOut provider family leaseId now after,
      recordUsage accountId tokensIn tokensOut provider family leaseId now tables = .ok after ->
        after.leases = tables.leases /\ after.standings = tables.standings) /\
    ∀ leaseId, tables.recorded.count leaseId <= 1 /\ past.count leaseId <= tables.recorded.count leaseId := by
  have accounted := accounted_of_trace trace
  refine ⟨heldLeases_length_le_one accounted.keyed, ?_, ?_, ?_⟩
  · intro accountId leaseId now lost
    exact ⟨⟨rfl, fun other later after => release_heldLeases lost after other⟩,
      fun cooldownUntil error => rest_of_not_holds cooldownUntil error lost, quarantine_of_not_holds lost⟩
  · intro accountId tokensIn tokensOut provider family leaseId now after done
    exact ⟨(recordUsage_keeps done).1, (recordUsage_keeps done).2.1⟩
  · intro leaseId
    exact ⟨nodup_iff_count_le_one.mp accounted.keyed.usage leaseId, accounted.charges leaseId⟩

def oneAccount : Tables :=
  { accounts := [{ id := 1, provider := .claude, status := .active, cooldownUntil := none, lastError := "",
                   quotaSource := .localBudget, windowUsed := 0, windowResetsAt := none, weeklyUsed := 0,
                   weeklyResetsAt := none }],
    leases := [], usage := [] }

def slowHolder : List Action := [.claim 1 7 .claude 0, .claim 1 8 .claude 100]

theorem slowHolder_trace : pool.Trace charged (pool.reports charged oneAccount slowHolder) (pool.run oneAccount slowHolder) :=
  Machine.Trace.run (Machine.Trace.start (show oneAccount.Keyed by decide)) slowHolder ⟨trivial, trivial, trivial⟩

/-- The slow request records what it used and is counted once, the account being another's. -/
theorem leases_exclusive_slowHolder :
  (heldLeases (pool.run oneAccount slowHolder) 1 101).length <= 1 /\ ¬ Holds (pool.run oneAccount slowHolder) 1 7 101 /\
    quarantine 1 7 101 (pool.run oneAccount slowHolder) = (false, pool.run oneAccount slowHolder) := by
  have lost : ¬ Holds (pool.run oneAccount slowHolder) 1 7 101 := by decide +kernel
  have exclusive := leases_exclusive slowHolder_trace
  exact ⟨exclusive.1 1 101, lost, (exclusive.2.1 1 7 101 lost).2.2⟩

/-- A recording with a lease that the account no longer holds changes its counters. -/
theorem recordUsage_counts_lost_lease :
  pool.Reachable (pool.run oneAccount slowHolder) /\ ¬ Holds (pool.run oneAccount slowHolder) 1 7 101 /\
    (pool.run oneAccount slowHolder).counters.map Counters.windowUsed = [0] /\
    (perform (pool.run oneAccount slowHolder) (.recordUsage 1 8 4 .claude "" (some 7) 101)).counters.map Counters.windowUsed
      = [12] :=
  ⟨slowHolder_trace.reachable, by decide +kernel, by decide +kernel, by decide +kernel⟩

end BananaChat.Subscriptions

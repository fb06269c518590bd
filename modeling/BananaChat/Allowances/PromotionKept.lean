import BananaChat.Allowances.Promotion

namespace BananaChat.Allowances.Promotion

open Foundation List Function

/-!
# What promotion keeps

A turn of the loop writes for an account it has just found unlocked and not suspended
(`Due.spared`).
-/

theorem eligibleIndex_suspended {stats : Candidate} {clock : ℚ} (suspended : isSuspended clock stats.account)
  (tiers : List TierRow) (now : ℚ) : eligibleIndex tiers stats now clock = 0 := by
  have unmet : ∀ tier, (requirements tier stats now clock).all Requirement.met = false := by
    intro _
    simp [requirements, suspensionClean, suspended]
  unfold eligibleIndex
  generalize tiers.zipIdx = entries
  induction entries with
  | nil => rfl
  | cons entry rest ih =>
    rw [foldl_cons, unmet]
    simpa using ih

variable {now : ℚ} {tiers : List TierRow} {state : State} {row : Candidate} {database : Database}

theorem eligibleIndex_lt {stats : Candidate} {clock : ℚ} (chosen : eligibleIndex tiers stats now clock ≠ 0) :
  eligibleIndex tiers stats now clock < tiers.length := by
  have bounded : ∀ (entries : List (TierRow × ℕ)) (best : ℕ), best = 0 \/ best < tiers.length ->
      (∀ entry ∈ entries, entry.2 < tiers.length) ->
      entries.foldl (fun best entry =>
        if entry.2 ≠ 0 /\ (requirements entry.1 stats now clock).all Requirement.met then entry.2 else best) best = 0 \/
      entries.foldl (fun best entry =>
        if entry.2 ≠ 0 /\ (requirements entry.1 stats now clock).all Requirement.met then entry.2 else best) best <
          tiers.length := by
    intro entries
    induction entries with
    | nil => exact fun best start _ => start
    | cons entry rest ih =>
      intro _ start inside
      refine ih _ ?_ (fun other mem => inside other (.tail _ mem))
      dsimp only
      split
      · exact .inr (inside entry mem_cons_self)
      · exact start
  refine (bounded tiers.zipIdx 0 (.inl rfl) fun entry mem => ?_).resolve_left chosen
  have range := snd_lt_of_mem_zipIdx mem
  omega

theorem eligibleIndex_congr {first second : Candidate} (account : first.account = second.account)
  (activeDays : first.activeDays = second.activeDays) (tokens : first.tokens = second.tokens) (tiers : List TierRow)
  (now clock : ℚ) : eligibleIndex tiers first now clock = eligibleIndex tiers second now clock := by
  unfold eligibleIndex requirements
  rw [account, activeDays, tokens]

theorem findIdx?_getElem (distinct : (tiers.map TierRow.id).Nodup) {index : ℕ} {tier : TierRow}
  (found : tiers[index]? = some tier) : tiers.findIdx? (·.id = tier.id) = some index := by
  induction tiers generalizing index with
  | nil => cases found
  | cons head rest ih =>
    rw [map_cons, nodup_cons] at distinct
    cases index with
    | zero =>
      rw [getElem?_cons_zero, Option.some_inj] at found
      rw [findIdx?_cons, found, decide_eq_true rfl]
      rfl
    | succ index =>
      have apart : head.id ≠ tier.id := by
        intro same
        exact distinct.1 (same ▸ mem_map.mpr ⟨tier, mem_of_getElem? found, rfl⟩)
      rw [findIdx?_cons, decide_eq_false apart, ih distinct.2 found]
      rfl

theorem standing_getElem (distinct : (tiers.map TierRow.id).Nodup) {index : ℕ} {tier : TierRow}
  (found : tiers[index]? = some tier) : standing tiers (some tier.id) = index := by
  simp [standing, findIdx?_getElem distinct found]

section Turn

variable {tiers : List TierRow} {row : Candidate} {now asked clock : ℚ} {database : Database} {tier : TierRow}

/-- The account of a candidate is due for the tier that was chosen: it was free to move up, it still
is as it was read, and it still may go as high. -/
structure Due (tiers : List TierRow) (row : Candidate) (now asked clock : ℚ) (database : Database) : Prop where
  unlocked : row.tierLocked = false
  above : standing tiers row.tierId < eligibleIndex tiers row now asked
  stillUnlocked : (database.preferences row.account.id).tierLocked = false
  sameTier : (database.preferences row.account.id).tierId = row.tierId
  eligible : ∃ account,
    database.accounts.find? (·.id = row.account.id) = some account /\
      eligibleIndex tiers row now asked <= eligibleIndex tiers (row.refreshed account) now clock

theorem wantedTier_iff : wantedTier tiers row now asked clock database = some tier ↔
    Due tiers row now asked clock database /\ tiers[eligibleIndex tiers row now asked]? = some tier := by
  constructor
  · intro wanted
    unfold wantedTier at wanted
    dsimp only at wanted
    split at wanted
    · cases wanted
    · rename_i chosen
      split at wanted
      · cases wanted
      · rename_i account found
        split at wanted
        · cases wanted
        · rename_i current
          split at wanted
          · cases wanted
          · rename_i eligible
            rw [not_or] at chosen current
            exact ⟨⟨Bool.eq_false_of_not_eq_true chosen.1, not_le.mp chosen.2, Bool.eq_false_of_not_eq_true current.1,
              not_ne_iff.mp current.2, account, found, not_lt.mp eligible⟩, wanted⟩
  · rintro ⟨⟨unlocked, above, stillUnlocked, sameTier, _, found, eligible⟩, chosen⟩
    have free : ¬ (row.tierLocked \/ eligibleIndex tiers row now asked <= standing tiers row.tierId) := by
      rw [unlocked, not_or]
      exact ⟨nofun, not_le.mpr above⟩
    have current : ¬ ((database.preferences row.account.id).tierLocked \/
        (database.preferences row.account.id).tierId ≠ row.tierId) := by
      rw [stillUnlocked, not_or]
      exact ⟨nofun, not_ne_iff.mpr sameTier⟩
    simp only [wantedTier, if_neg free, found, if_neg current, if_neg (not_lt.mpr eligible), chosen]

theorem Due.spared (due : Due tiers row now asked clock database) :
  (database.preferences row.account.id).tierLocked = false /\
    ∃ account ∈ database.accounts, account.id = row.account.id /\ isSuspended clock account = false := by
  rcases due.eligible with ⟨account, found, eligible⟩
  have named := find?_some found
  refine ⟨due.stillUnlocked, account, mem_of_find?_eq_some found, of_decide_eq_true named, ?_⟩
  refine Bool.eq_false_of_not_eq_true fun suspended => ?_
  have refreshed : isSuspended clock (row.refreshed account).account := suspended
  have above := due.above
  rw [eligibleIndex_suspended refreshed] at eligible
  omega

theorem decideOne_promote_iff : decideOne tiers row now asked clock database = .promote tier ↔
    wantedTier tiers row now asked clock database = some tier /\ tier.id ∈ database.tiers.map TierRow.id := by
  unfold decideOne
  cases wanted : wantedTier tiers row now asked clock database with
  | none => exact ⟨fun clash => (nomatch clash), fun clash => (nomatch clash.1)⟩
  | some chosen =>
    dsimp only
    by_cases there : chosen.id ∈ database.tiers.map TierRow.id
    · rw [if_pos there]
      constructor
      · intro same
        cases same
        exact ⟨rfl, there⟩
      · rintro ⟨same, _⟩
        cases same
        rfl
    · rw [if_neg there]
      constructor
      · intro clash
        cases clash
      · rintro ⟨same, found⟩
        cases same
        exact absurd found there

theorem decideOne_fail_iff : decideOne tiers row now asked clock database = .fail ↔
    ∃ tier, wantedTier tiers row now asked clock database = some tier /\ tier.id ∉ database.tiers.map TierRow.id := by
  unfold decideOne
  cases wanted : wantedTier tiers row now asked clock database with
  | none => exact ⟨fun clash => (nomatch clash), fun ⟨_, clash, _⟩ => (nomatch clash)⟩
  | some chosen =>
    dsimp only
    by_cases there : chosen.id ∈ database.tiers.map TierRow.id
    · rw [if_pos there]
      constructor
      · intro clash
        cases clash
      · rintro ⟨_, same, gone⟩
        cases same
        exact absurd there gone
    · rw [if_neg there]
      exact ⟨fun _ => ⟨chosen, rfl, there⟩, fun _ => rfl⟩

theorem promoteOne_preferences {userId : ℕ} (other : userId ≠ row.account.id) :
  (promoteOne tiers row now asked clock database).preferences userId = database.preferences userId := by
  unfold promoteOne
  split
  · exact update_of_ne other _ _
  · rfl
  · rfl

theorem promoteOne_rest (tiers : List TierRow) (row : Candidate) (now asked clock : ℚ) (database : Database) :
  (promoteOne tiers row now asked clock database).tiers = database.tiers /\
    (promoteOne tiers row now asked clock database).accounts = database.accounts /\
    (promoteOne tiers row now asked clock database).ledger = database.ledger /\
    (promoteOne tiers row now asked clock database).countedTypes = database.countedTypes /\
    (promoteOne tiers row now asked clock database).autoTiers = database.autoTiers := by
  unfold promoteOne
  split <;> exact ⟨rfl, rfl, rfl, rfl, rfl⟩

theorem promoteOne_promoted (promoted : decideOne tiers row now asked clock database = .promote tier) :
  (promoteOne tiers row now asked clock database).preferences row.account.id =
    { database.preferences row.account.id with tierId := some tier.id, tierChangedAt := some ⌊now⌋ } := by
  unfold promoteOne
  rw [promoted]
  exact update_self _ _ _

theorem promoteOne_same (idle : ∀ tier, decideOne tiers row now asked clock database ≠ .promote tier) :
  promoteOne tiers row now asked clock database = database := by
  unfold promoteOne
  split
  · rename_i tier promoted
    exact absurd promoted (idle tier)
  · rfl
  · rfl

end Turn

section

variable (state : State) (action : Action)

/-- A turn of `promote` changes nobody who is locked or suspended at that moment. -/
def Spares : Prop :=
  ∀ run asked clock, action = .promoteNext run asked clock -> ∀ userId,
    (next state action).database.preferences userId ≠ state.database.preferences userId ->
      (state.database.preferences userId).tierLocked = false /\
        ∃ account ∈ state.database.accounts, account.id = userId /\ isSuspended clock account = false

/-- A turn of `promote` moves nobody to a tier that is lower in the order at that moment, and the
loop goes on after it. -/
def Upward : Prop :=
  ∀ run asked clock, action = .promoteNext run asked clock ->
    (∀ userId, (next state action).database.preferences userId ≠ state.database.preferences userId ->
      standing state.database.tiers (state.database.preferences userId).tierId <=
        standing state.database.tiers ((next state action).database.preferences userId).tierId) /\
    ∀ now tiers row rest, state.runs run = .working now tiers (row :: rest) ->
      (next state action).runs run = .working now tiers rest

/-- Where the account of a turn is due for a tier, that tier is still there and not below the
account's tier. -/
def Timely : Prop :=
  ∀ run asked clock, action = .promoteNext run asked clock ->
    ∀ now tiers row rest, state.runs run = .working now tiers (row :: rest) ->
    Due tiers row now asked clock state.database ->
    ∀ tier, tiers[eligibleIndex tiers row now asked]? = some tier -> tier.id ∈ state.database.tiers.map TierRow.id /\
        standing state.database.tiers (state.database.preferences row.account.id).tierId <=
          standing state.database.tiers (some tier.id)

end

theorem next_idle {run : ℕ} (idle : ∀ now tiers row rest, state.runs run ≠ .working now tiers (row :: rest))
  (asked clock : ℚ) : next state (.promoteNext run asked clock) = state := by
  unfold next
  dsimp only
  split
  · rename_i now tiers row rest working
    exact absurd working (idle now tiers row rest)
  · rfl

theorem next_working {run : ℕ} {rest : List Candidate} (working : state.runs run = .working now tiers (row :: rest))
  (asked clock : ℚ) :
  (next state (.promoteNext run asked clock)).database = promoteOne tiers row now asked clock state.database /\
    ((next state (.promoteNext run asked clock)).runs run = .working now tiers rest ↔
      decideOne tiers row now asked clock state.database ≠ .fail) := by
  simp only [next, working, update_self]
  refine ⟨trivial, ?_⟩
  cases decideOne tiers row now asked clock state.database with
  | keep | promote tier => exact iff_of_true rfl nofun
  | fail => exact iff_of_false nofun (not_not_intro rfl)

theorem promoteOne_changes {asked clock : ℚ} {userId : ℕ}
  (changed : (promoteOne tiers row now asked clock database).preferences userId ≠ database.preferences userId) :
  userId = row.account.id /\ ∃ tier, decideOne tiers row now asked clock database = .promote tier := by
  have ours : userId = row.account.id := by
    by_contra other
    exact changed (promoteOne_preferences other)
  refine ⟨ours, ?_⟩
  by_contra none
  exact changed (by rw [promoteOne_same fun tier promoted => none ⟨tier, promoted⟩])

theorem spares_always (state : State) (action : Action) : Spares state action := by
  intro run asked clock isTurn _ changed
  subst isTurn
  by_cases working : ∃ now tiers row rest, state.runs run = .working now tiers (row :: rest)
  · rcases working with ⟨now, tiers, row, rest, working⟩
    rw [(next_working working asked clock).1] at changed
    rcases promoteOne_changes changed with ⟨rfl, _, promoted⟩
    exact (wantedTier_iff.mp (decideOne_promote_iff.mp promoted).1).1.spared
  · rw [next_idle fun now tiers row rest found => working ⟨now, tiers, row, rest, found⟩] at changed
    exact absurd rfl changed

theorem upward_iff_timely (state : State) (action : Action) : Upward state action ↔ Timely state action := by
  constructor
  · intro upward run asked clock isTurn now tiers row rest working due tier chosen
    subst isTurn
    have wanted := wantedTier_iff.mpr ⟨due, chosen⟩
    rcases upward run asked clock rfl with ⟨higher, onward⟩
    have notFailed := (next_working working asked clock).2.mp (onward now tiers row rest working)
    have there : tier.id ∈ state.database.tiers.map TierRow.id := by
      by_contra gone
      exact notFailed (decideOne_fail_iff.mpr ⟨tier, wanted, gone⟩)
    have written := promoteOne_promoted (decideOne_promote_iff.mpr ⟨wanted, there⟩)
    refine ⟨there, ?_⟩
    by_cases changed : (next state (.promoteNext run asked clock)).database.preferences row.account.id =
        state.database.preferences row.account.id
    · rw [(next_working working asked clock).1, written] at changed
      rw [<- changed]
    · have raised := higher row.account.id changed
      rwa [(next_working working asked clock).1, written] at raised
  · intro timely run asked clock isTurn
    subst isTurn
    constructor
    · intro _ changed
      by_cases working : ∃ now tiers row rest, state.runs run = .working now tiers (row :: rest)
      · rcases working with ⟨now, tiers, row, rest, working⟩
        have database := (next_working working asked clock).1
        rw [database] at changed ⊢
        rcases promoteOne_changes changed with ⟨rfl, tier, promoted⟩
        rw [promoteOne_promoted promoted]
        rcases wantedTier_iff.mp (decideOne_promote_iff.mp promoted).1 with ⟨due, chosen⟩
        exact (timely run asked clock rfl now tiers row rest working due tier chosen).2
      · rw [next_idle fun now tiers row rest found => working ⟨now, tiers, row, rest, found⟩] at changed
        exact absurd rfl changed
    · intro now tiers row rest working
      refine (next_working working asked clock).2.mpr fun failed => ?_
      rcases decideOne_fail_iff.mp failed with ⟨tier, wanted, gone⟩
      rcases wantedTier_iff.mp wanted with ⟨due, chosen⟩
      exact gone (timely run asked clock rfl now tiers row rest working due tier chosen).1

def Keyed (database : Database) : Prop :=
  (database.tiers.map TierRow.id).Nodup /\ (database.accounts.map Account.id).Nodup

theorem swapAt_perm {Item : Type} (items : List Item) (index : ℕ) : (swapAt items index).Perm items := by
  unfold swapAt
  split
  · rename_i first second rest dropped
    conv_rhs => rw [<- take_append_drop index items, dropped]
    exact List.Perm.append_left _ (List.Perm.swap first second rest)
  · exact List.Perm.refl items

theorem moveTier_perm (tierId : ℕ) (down : Bool) (tiers : List TierRow) : (moveTier tierId down tiers).Perm tiers := by
  unfold moveTier
  split
  · exact List.Perm.refl tiers
  · split
    · exact swapAt_perm _ _
    · split
      · exact List.Perm.refl tiers
      · exact swapAt_perm _ _

theorem map_id_of_kept {Row : Type} (rows : List Row) (id : Row -> ℕ) (changed : Row -> Row)
  (kept : ∀ row, id (changed row) = id row) : (rows.map changed).map id = rows.map id := by
  rw [map_map]
  exact map_congr_left fun row _ => kept row

theorem keyed_change (keyed : Keyed database) (change : Change)
  (allowed : enabled ⟨database, fun _ => .idle⟩ (.change change)) : Keyed (change.perform database) := by
  rcases keyed with ⟨tiers, accounts⟩
  cases change with
  | lock userId locked | useTokens row | setPolicies countedTypes autoTiers => exact ⟨tiers, accounts⟩
  | move userId tierId stamp =>
    unfold Change.perform
    dsimp only
    split <;> exact ⟨tiers, accounts⟩
  | suspend userId ends stamp | unsuspend userId stamp =>
    refine ⟨tiers, ?_⟩
    simp only [Change.perform]
    rw [map_id_of_kept _ Account.id]
    · exact accounts
    · intro account
      split <;> rfl
  | createAccount account =>
    refine ⟨tiers, ?_⟩
    have fresh : account.id ∉ database.accounts.map Account.id := allowed
    simp only [Change.perform, map_append, map_singleton]
    exact accounts.append (nodup_singleton _) (disjoint_singleton.mpr fresh)
  | deleteAccount userId => exact ⟨tiers, accounts.sublist (filter_sublist.map _)⟩
  | createTier tier =>
    have fresh : tier.id ∉ database.tiers.map TierRow.id := allowed
    unfold Change.perform
    dsimp only
    split
    · refine ⟨?_, accounts⟩
      simp only [map_append, map_singleton]
      exact tiers.append (nodup_singleton _) (disjoint_singleton.mpr fresh)
    · exact ⟨tiers, accounts⟩
  | updateTier tier =>
    refine ⟨?_, accounts⟩
    simp only [Change.perform]
    rw [map_id_of_kept _ TierRow.id]
    · exact tiers
    · intro _
      split
      · rename_i same
        exact same.symm
      · rfl
  | moveTier tierId down => exact ⟨((moveTier_perm tierId down database.tiers).map _).nodup_iff.mpr tiers, accounts⟩
  | deleteTier tierId =>
    unfold Change.perform
    dsimp only
    split
    · exact ⟨tiers.sublist (filter_sublist.map _), accounts⟩
    · exact ⟨tiers, accounts⟩

theorem keyed_promoteOne (keyed : Keyed database) (tiers : List TierRow) (row : Candidate) (now asked clock : ℚ) :
  Keyed (promoteOne tiers row now asked clock database) := by
  rcases promoteOne_rest tiers row now asked clock database with ⟨sameTiers, sameAccounts, _⟩
  unfold Keyed
  rw [sameTiers, sameAccounts]
  exact keyed

theorem keyed_next (keyed : Keyed state.database) (action : Action) (allowed : enabled state action) :
  Keyed (next state action).database := by
  cases action with
  | start run now => exact keyed
  | read run =>
    unfold next
    dsimp only
    split <;> exact keyed
  | promoteNext run asked clock =>
    unfold next
    dsimp only
    split
    · exact keyed_promoteOne keyed _ _ _ _ _
    · exact keyed
  | change change => exact keyed_change keyed change allowed

theorem keyed_run (keyed : Keyed state.database) (actions : List Action)
  (admitted : promotionMachine.Admits state actions) : Keyed (promotionMachine.run state actions).database := by
  induction actions generalizing state with
  | nil => exact keyed
  | cons action rest ih =>
    exact ih (keyed_next keyed action admitted.1) admitted.2

section Twice

variable {tiers : List TierRow} {now clock : ℚ}

structure Current (row : Candidate) (database : Database) : Prop where
  account : row.account ∈ database.accounts
  tierId : (database.preferences row.account.id).tierId = row.tierId
  tierLocked : (database.preferences row.account.id).tierLocked = row.tierLocked

def Placed (tiers : List TierRow) (now clock : ℚ) (row : Candidate) (database : Database) : Prop :=
  row.tierLocked \/ eligibleIndex tiers row now clock <= standing tiers (database.preferences row.account.id).tierId

theorem promoteOne_places (now clock : ℚ) (keyed : Keyed database) (sameTiers : database.tiers = tiers)
  (current : Current row database) : decideOne tiers row now clock clock database ≠ .fail /\
    Placed tiers now clock row (promoteOne tiers row now clock clock database) := by
  have found : database.accounts.find? (·.id = row.account.id) = some row.account := by
    cases search : database.accounts.find? (·.id = row.account.id) with
    | none => exact absurd (decide_eq_true rfl) (find?_eq_none.mp search row.account current.account)
    | some account =>
      have named := find?_some search
      rw [inj_on_of_nodup_map keyed.2 (mem_of_find?_eq_some search) current.account (of_decide_eq_true named)]
  have refreshed : row.refreshed row.account = row := rfl
  by_cases chosen : row.tierLocked \/ eligibleIndex tiers row now clock <= standing tiers row.tierId
  · have unwanted : wantedTier tiers row now clock clock database = none := by
      exact if_pos chosen
    have idle : decideOne tiers row now clock clock database = .keep := by
      unfold decideOne
      rw [unwanted]
    refine ⟨by rw [idle]; exact nofun, ?_⟩
    rw [promoteOne_same (by rw [idle]; exact nofun)]
    unfold Placed
    rw [current.tierId]
    exact chosen
  · have positive : eligibleIndex tiers row now clock ≠ 0 := fun zero => chosen (.inr (by rw [zero]; exact Nat.zero_le _))
    have inside := eligibleIndex_lt positive
    have wanted : wantedTier tiers row now clock clock database = some tiers[eligibleIndex tiers row now clock] := by
      have unlocked : ¬ (row.tierLocked \/ row.tierId ≠ row.tierId) := by
        rintro (locked | moved)
        · exact chosen (.inl locked)
        · exact moved rfl
      simp only [wantedTier, if_neg chosen, found, current.tierId, current.tierLocked, if_neg unlocked, refreshed,
        if_neg (lt_irrefl _), getElem?_eq_getElem inside]
    have there : tiers[eligibleIndex tiers row now clock].id ∈ database.tiers.map TierRow.id := by
      rw [sameTiers]
      exact mem_map.mpr ⟨_, getElem_mem inside, rfl⟩
    have promoted := decideOne_promote_iff.mpr ⟨wanted, there⟩
    refine ⟨by rw [promoted]; exact nofun, .inr ?_⟩
    rw [promoteOne_promoted promoted]
    have distinct : (tiers.map TierRow.id).Nodup := sameTiers ▸ keyed.1
    exact (standing_getElem distinct (getElem?_eq_getElem inside)).ge

theorem promoteAll_rest (rows : List Candidate) (database : Database) :
  (promoteAll tiers now clock rows database).1.tiers = database.tiers /\
    (promoteAll tiers now clock rows database).1.accounts = database.accounts /\
    (promoteAll tiers now clock rows database).1.ledger = database.ledger /\
    (promoteAll tiers now clock rows database).1.countedTypes = database.countedTypes /\
    (promoteAll tiers now clock rows database).1.autoTiers = database.autoTiers /\
    (∀ userId, ((promoteAll tiers now clock rows database).1.preferences userId).tierLocked =
      (database.preferences userId).tierLocked) /\
    ∀ userId, userId ∉ rows.map (·.account.id) ->
      (promoteAll tiers now clock rows database).1.preferences userId = database.preferences userId := by
  induction rows generalizing database with
  | nil => exact ⟨rfl, rfl, rfl, rfl, rfl, fun _ => rfl, fun _ _ => rfl⟩
  | cons row rest ih =>
    unfold promoteAll
    cases decided : decideOne tiers row now clock clock database with
    | keep =>
      rcases ih database with ⟨one, two, three, four, five, locked, others⟩
      exact ⟨one, two, three, four, five, locked, fun userId absent => others userId fun mem =>
        absent (.tail _ mem)⟩
    | fail => exact ⟨rfl, rfl, rfl, rfl, rfl, fun _ => rfl, fun _ _ => rfl⟩
    | promote tier =>
      rcases ih (promoteOne tiers row now clock clock database) with
        ⟨one, two, three, four, five, locked, others⟩
      rcases promoteOne_rest tiers row now clock clock database with ⟨tiersKept, accountsKept, ledgerKept, typesKept, autoKept⟩
      refine ⟨one.trans tiersKept, two.trans accountsKept, three.trans ledgerKept, four.trans typesKept,
        five.trans autoKept, fun userId => (locked userId).trans ?_, fun userId absent => ?_⟩
      · by_cases ours : userId = row.account.id
        · rw [ours, promoteOne_promoted decided]
        · rw [promoteOne_preferences ours]
      · rw [map_cons, mem_cons, not_or] at absent
        exact (others userId absent.2).trans (promoteOne_preferences absent.1)

theorem promoteAll_places (rows : List Candidate) (distinct : (rows.map (·.account.id)).Nodup)
  (keyed : Keyed database) (sameTiers : database.tiers = tiers) (current : ∀ row ∈ rows, Current row database) :
  ∀ row ∈ rows, Placed tiers now clock row (promoteAll tiers now clock rows database).1 := by
  induction rows generalizing database with
  | nil => exact fun row clash => nomatch clash
  | cons head rest ih =>
    rw [map_cons, nodup_cons] at distinct
    rcases promoteOne_places now clock keyed sameTiers (current head mem_cons_self) with ⟨notFailed, placed⟩
    have loop : (promoteAll tiers now clock (head :: rest) database).1 =
        (promoteAll tiers now clock rest (promoteOne tiers head now clock clock database)).1 := by
      conv_lhs => unfold promoteAll
      cases decided : decideOne tiers head now clock clock database with
      | keep =>
        rw [promoteOne_same (by rw [decided]; exact nofun)]
      | promote tier => rfl
      | fail => exact absurd decided notFailed
    rw [loop]
    rcases promoteOne_rest tiers head now clock clock database with ⟨tiersKept, accountsKept, _⟩
    intro row mem
    rcases mem_cons.mp mem with rfl | later
    · unfold Placed at placed ⊢
      rw [(promoteAll_rest rest _).2.2.2.2.2.2 row.account.id distinct.1]
      exact placed
    · refine ih distinct.2 (keyed_promoteOne keyed _ _ _ _ _) (tiersKept.trans sameTiers) ?_ row later
      intro other inside
      have apart : other.account.id ≠ head.account.id := by
        intro same
        exact distinct.1 (same ▸ mem_map.mpr ⟨other, inside, rfl⟩)
      have before := current other (.tail _ inside)
      refine ⟨by rw [accountsKept]; exact before.account, ?_, ?_⟩
      · rw [promoteOne_preferences apart]
        exact before.tierId
      · rw [promoteOne_preferences apart]
        exact before.tierLocked

theorem promoteAll_placed {rows : List Candidate}
  (placed : ∀ row ∈ rows, row.tierLocked \/ eligibleIndex tiers row now clock <= standing tiers row.tierId) :
  promoteAll tiers now clock rows database = (database, []) := by
  induction rows with
  | nil => rfl
  | cons row rest ih =>
    have unwanted : wantedTier tiers row now clock clock database = none := if_pos (placed row mem_cons_self)
    have idle : decideOne tiers row now clock clock database = .keep := by
      unfold decideOne
      rw [unwanted]
    unfold promoteAll
    rw [idle]
    exact ih fun other mem => placed other (.tail _ mem)

theorem promote_started (clock : ℚ) (started : opened now database = .started now tiers) :
  promote now clock database = promoteAll tiers now clock (promotionCandidates database (historySince now)) database := by
  unfold promote
  rw [started]

theorem promote_twice (keyed : Keyed database) (now clock : ℚ) :
  (promote now clock (promote now clock database).1).2 = [] := by
  by_cases idle : database.autoTiers = false \/ database.tiers.length < 2
  · have nothing : promote now clock database = (database, []) := by
      unfold promote opened
      rw [if_pos idle]
    rw [nothing, nothing]
  · have whole := promote_started clock (if_neg idle : opened now database = .started now database.tiers)
    rcases promoteAll_rest (promotionCandidates database (historySince now)) database with
      ⟨tiersKept, accountsKept, ledgerKept, typesKept, autoKept, lockedKept, _⟩
    have reopened : opened now (promote now clock database).1 = .started now database.tiers := by
      unfold opened
      rw [whole, tiersKept, autoKept, if_neg idle]
    have rows : (promotionCandidates database (historySince now)).map (·.account.id) =
        (database.accounts.filter (!·.admin)).map Account.id := by
      unfold promotionCandidates
      rw [map_map]
      rfl
    have distinct : ((promotionCandidates database (historySince now)).map (·.account.id)).Nodup := by
      rw [rows]
      exact keyed.2.sublist (filter_sublist.map _)
    have current : ∀ row ∈ promotionCandidates database (historySince now), Current row database := by
      intro row mem
      rcases mem_map.mp mem with ⟨account, inside, rfl⟩
      exact ⟨mem_of_mem_filter inside, rfl, rfl⟩
    rw [promote_started clock reopened, promoteAll_placed]
    intro _ mem
    rcases mem_map.mp mem with ⟨account, inside, rfl⟩
    rw [whole, accountsKept] at inside
    have before : (⟨account, _, _, _, _⟩ : Candidate) ∈ promotionCandidates database (historySince now) :=
      mem_map.mpr ⟨account, inside, rfl⟩
    have placed : Placed database.tiers now clock _ _ := promoteAll_places _ distinct keyed rfl current _ before
    dsimp only at placed ⊢
    rw [whole]
    refine placed.imp (fun locked => ?_) (fun high => ?_)
    · rw [lockedKept]
      exact locked
    · refine le_trans (le_of_eq ?_) high
      refine eligibleIndex_congr (by rfl) ?_ ?_ _ _ _
      · rw [ledgerKept, typesKept]
      · rw [ledgerKept, typesKept]

end Twice

def twoAccounts : State where
  database :=
    { tiers := [⟨1, "Entry", 0, 0, 0, 0⟩, ⟨2, "Middle", 1, 0, 0, 0⟩, ⟨3, "Top", 2, 0, 0, 0⟩]
      accounts := [⟨1, "ann", false, some 0, false, none, none⟩, ⟨2, "ben", false, some 86400, false, none, none⟩]
      preferences := fun _ => ⟨none, false, none⟩
      ledger := []
      countedTypes := []
      autoTiers := true }
  runs := fun _ => .idle

end BananaChat.Allowances.Promotion

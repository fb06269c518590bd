import Mathlib.Algebra.BigOperators.Ring.List
import BananaChat.Answers.Answer

namespace BananaChat.Answers

open Foundation Limits Credits Runs List Rows Hundredths

/-!
# Held allowance never overdraws

An authorization reads what is used and held, and holds what it takes in the same transaction.
-/

inductive Party
  | authorization (answer : ℕ)
  | settlement (answer : ℕ)
  | release (answer : ℕ)
  | expiry
  | other
deriving DecidableEq

def Party.ofAnswer (party : Party) (answer : ℕ) : Prop :=
  party = .authorization answer \/ party = .settlement answer \/ party = .release answer

def Action.party : Action -> Party
  | .authorize answer _ _ _ _ _ => .authorization answer
  | .settle answer _ _ _ _ => .settlement answer
  | .release answer _ => .release answer
  | .purgeHolds _ _ => .expiry
  | _ => .other

def State.holds (state : State) : List ℕ := state.store.reservations.rows.map Reservation.id

inductive HoldEvent
  | removed (hold : ℕ) (party : Party)
  | taken (hold : ℕ) (party : Party)
deriving DecidableEq

def diffEvents (before after : List ℕ) (party : Party) : List HoldEvent :=
  (before.filter (· ∉ after)).map (.removed · party) ++ (after.filter (· ∉ before)).map (.taken · party)

def holdEvents (limits : ℕ -> TokenLimits) (resets : ℕ -> Resets) (state : State) (action : Action) : List HoldEvent :=
  diffEvents state.holds (next limits resets state action).holds action.party

def takenHolds (past : List HoldEvent) : List ℕ :=
  past.filterMap fun event =>
    match event with
    | .taken hold _ => some hold
    | .removed _ _ => none

def removedHolds (past : List HoldEvent) : List ℕ :=
  past.filterMap fun event =>
    match event with
    | .taken _ _ => none
    | .removed hold _ => some hold

/-- What a step may do to holds: it takes the next id for its answer, it removes
holds that its answer keeps in memory or that expired, and an answer keeps in
memory only what it kept or took. -/
structure HoldStep (state after : State) (party : Party) : Prop where
  keys : after.holds.Nodup
  grows : state.store.reservations.nextId <= after.store.reservations.nextId
  fresh : ∀ hold ∈ after.holds, hold ∈ state.holds \/
    (hold = state.store.reservations.nextId /\ state.store.reservations.nextId < after.store.reservations.nextId /\
      ∃ answer, party = .authorization answer)
  removed : ∀ hold ∈ state.holds, hold ∉ after.holds -> party = .expiry \/
    ∃ answer ∈ state.answers, answer.hold = some hold /\ party.ofAnswer answer.id
  held : ∀ answer ∈ after.answers, ∀ hold, answer.hold = some hold ->
    (∃ before ∈ state.answers, before.id = answer.id /\ before.hold = some hold) \/
      (hold = state.store.reservations.nextId /\ hold ∈ after.holds /\ party = .authorization answer.id)

structure HoldsKept (past : List HoldEvent) (state : State) : Prop where
  keys : state.holds.Nodup
  stored : ∀ hold ∈ state.holds, hold ∈ takenHolds past
  takenBelow : ∀ hold ∈ takenHolds past, hold < state.store.reservations.nextId
  takenOnce : (takenHolds past).Nodup
  takenBy : ∀ hold party, HoldEvent.taken hold party ∈ past -> ∃ answer, party = .authorization answer
  removedTaken : ∀ hold ∈ removedHolds past, hold ∈ takenHolds past
  gone : ∀ hold ∈ removedHolds past, hold ∉ state.holds
  removedOnce : (removedHolds past).Nodup
  removedBy : ∀ hold party, HoldEvent.removed hold party ∈ past -> party = .expiry \/
    ∃ answer, party.ofAnswer answer /\ HoldEvent.taken hold (.authorization answer) ∈ past
  held : ∀ answer ∈ state.answers, ∀ hold, answer.hold = some hold ->
    HoldEvent.taken hold (.authorization answer.id) ∈ past

theorem takenHolds_diff (before after : List ℕ) (party : Party) :
  takenHolds (diffEvents before after party) = after.filter (· ∉ before) := by
  unfold takenHolds diffEvents
  simp [filterMap_append, filterMap_map]

theorem removedHolds_diff (before after : List ℕ) (party : Party) :
  removedHolds (diffEvents before after party) = before.filter (· ∉ after) := by
  unfold removedHolds diffEvents
  simp [filterMap_append, filterMap_map]

variable {before after : List ℕ} {hold : ℕ}

theorem taken_mem_diff {party holder : Party} :
  HoldEvent.taken hold holder ∈ diffEvents before after party ↔ hold ∈ after /\ hold ∉ before /\ holder = party := by
  unfold diffEvents
  simp only [mem_append, mem_map, mem_filter, decide_eq_true_eq, reduceCtorEq, and_false, exists_false,
    false_or, HoldEvent.taken.injEq]
  constructor
  · rintro ⟨_, ⟨mem, new⟩, rfl, rfl⟩
    exact ⟨mem, new, rfl⟩
  · rintro ⟨mem, new, rfl⟩
    exact ⟨hold, ⟨mem, new⟩, rfl, rfl⟩

theorem removed_mem_diff {party holder : Party} :
  HoldEvent.removed hold holder ∈ diffEvents before after party ↔ hold ∈ before /\ hold ∉ after /\ holder = party := by
  unfold diffEvents
  simp only [mem_append, mem_map, mem_filter, decide_eq_true_eq, reduceCtorEq, and_false, exists_false,
    or_false, HoldEvent.removed.injEq]
  constructor
  · rintro ⟨_, ⟨mem, left⟩, rfl, rfl⟩
    exact ⟨mem, left, rfl⟩
  · rintro ⟨mem, left, rfl⟩
    exact ⟨hold, ⟨mem, left⟩, rfl, rfl⟩

variable {state : State} {past : List HoldEvent} (site : Credits.Site) {now : ℚ} {store : Store}

/-- A step that does no more than `HoldStep` says keeps every hold in order. -/
theorem HoldsKept.step {after : State} {party : Party} (kept : HoldsKept past state)
  (moved : HoldStep state after party) : HoldsKept (past ++ diffEvents state.holds after.holds party) after := by
  have takenAppend : takenHolds (past ++ diffEvents state.holds after.holds party) =
      takenHolds past ++ after.holds.filter (· ∉ state.holds) := by
    rw [<- takenHolds_diff, takenHolds, takenHolds, takenHolds, filterMap_append]
  have removedAppend : removedHolds (past ++ diffEvents state.holds after.holds party) =
      removedHolds past ++ state.holds.filter (· ∉ after.holds) := by
    rw [<- removedHolds_diff, removedHolds, removedHolds, removedHolds, filterMap_append]
  -- a hold that appears has the next id
  have appears : ∀ hold ∈ after.holds, hold ∉ state.holds ->
      hold = state.store.reservations.nextId /\ state.store.reservations.nextId < after.store.reservations.nextId /\
        ∃ answer, party = .authorization answer := by
    intro hold mem new
    rcases moved.fresh hold mem with old | next
    · exact absurd old new
    · exact next
  constructor
  · exact moved.keys
  · intro hold mem
    rw [takenAppend, mem_append]
    by_cases old : hold ∈ state.holds
    · exact .inl (kept.stored hold old)
    · exact .inr (mem_filter.mpr ⟨mem, decide_eq_true old⟩)
  · intro hold mem
    rw [takenAppend, mem_append, mem_filter, decide_eq_true_eq] at mem
    rcases mem with before | ⟨present, new⟩
    · exact (kept.takenBelow hold before).trans_le moved.grows
    · rcases appears hold present new with ⟨rfl, later, _⟩
      exact later
  · rw [takenAppend]
    apply kept.takenOnce.append (moved.keys.filter _)
    intro hold before present
    rw [mem_filter, decide_eq_true_eq] at present
    have older := kept.takenBelow hold before
    rcases appears hold present.1 present.2 with ⟨rfl, _⟩
    exact lt_irrefl _ older
  · intro hold holder mem
    rcases mem_append.mp mem with before | new
    · exact kept.takenBy hold holder before
    · rcases taken_mem_diff.mp new with ⟨present, isNew, rfl⟩
      exact (appears hold present isNew).2.2
  · intro hold mem
    rw [removedAppend, mem_append, mem_filter] at mem
    rw [takenAppend, mem_append]
    rcases mem with before | ⟨present, _⟩
    · exact .inl (kept.removedTaken hold before)
    · exact .inl (kept.stored hold present)
  · intro hold mem present
    rw [removedAppend, mem_append, mem_filter, decide_eq_true_eq] at mem
    rcases mem with before | ⟨_, absent⟩
    · have older := kept.takenBelow hold (kept.removedTaken hold before)
      rcases appears hold present (kept.gone hold before) with ⟨rfl, _⟩
      exact lt_irrefl _ older
    · exact absent present
  · rw [removedAppend]
    apply kept.removedOnce.append (kept.keys.filter _)
    intro hold before present
    exact kept.gone hold before (mem_filter.mp present).1
  · intro hold holder mem
    rcases mem_append.mp mem with before | new
    · rcases kept.removedBy hold holder before with expired | ⟨answer, own, taken⟩
      · exact .inl expired
      · exact .inr ⟨answer, own, mem_append_left _ taken⟩
    · rcases removed_mem_diff.mp new with ⟨present, absent, rfl⟩
      rcases moved.removed hold present absent with expired | ⟨answer, member', holds, own⟩
      · exact .inl expired
      · exact .inr ⟨answer.id, own, mem_append_left _ (kept.held answer member' hold holds)⟩
  · intro answer mem hold holds
    rcases moved.held answer mem hold holds with ⟨before, beforeMember, sameId, beforeHolds⟩ | ⟨_, present, byOwn⟩
    · rw [<- sameId]
      exact mem_append_left _ (kept.held before beforeMember hold beforeHolds)
    · apply mem_append_right
      refine taken_mem_diff.mpr ⟨present, ?_, byOwn.symm⟩
      intro old
      have older := kept.takenBelow hold (kept.stored hold old)
      omega

/-- The effects of an answer's step on its hold and on the reservation table;
only an authorization takes a new hold. -/
inductive HoldEffect (party : Party) (answer : Answer) (store : Store) (result : Answer × Store) : Prop
  | same (hold : result.1.hold = answer.hold) (table : result.2.reservations = store.reservations)
  | forgotten (hold : result.1.hold = none) (table : result.2.reservations = store.reservations)
  | released (hold : result.1.hold = none) (table : result.2.reservations = refundReservation answer.hold store.reservations)
  | replaced (authorizes : party = .authorization answer.id) (tokens : ℚ) (modelId : Option ℕ) (now : ℚ) (hold : result.1.hold = some store.reservations.nextId)
      (table : result.2.reservations =
        (holdAnswer (refundReservation answer.hold store.reservations) answer.userId tokens modelId answer.tokenId now).1)

theorem nextId_refund (hold : Option ℕ) (reservations : Reservations) :
  (refundReservation hold reservations).nextId = reservations.nextId := by
  cases hold <;> rfl

variable {reservations : Reservations}

theorem mem_rows_refund {hold : Option ℕ} {row : Reservation} :
  row ∈ (refundReservation hold reservations).rows ↔ row ∈ reservations.rows /\ hold ≠ some row.id := by
  cases hold with
  | none => simp [refundReservation]
  | some id =>
    simp only [refundReservation, mem_deleteWhere, decide_eq_true_eq, ne_eq, Option.some_inj]
    exact and_congr_right fun _ => not_congr eq_comm

theorem ids_refund_sublist (hold : Option ℕ) (reservations : Reservations) :
  ((refundReservation hold reservations).rows.map Reservation.id).Sublist (reservations.rows.map Reservation.id) := by
  cases hold with
  | none => exact List.Sublist.refl _
  | some id => exact deleteWhere_sublist.map Reservation.id

theorem refunded_of_gone {hold : Option ℕ} {id : ℕ} (before : id ∈ reservations.rows.map Reservation.id)
  (after : id ∉ (refundReservation hold reservations).rows.map Reservation.id) : hold = some id := by
  rcases mem_map.mp before with ⟨row, mem, rfl⟩
  by_contra other
  exact after (mem_map.mpr ⟨row, mem_rows_refund.mpr ⟨mem, other⟩, rfl⟩)

theorem authorize_holdEffect (now : ℚ) (limits : TokenLimits) (resets : Resets) (model : AiModel) (verdict : Verdict)
  (estimate : ℕ) (answer : Answer) (store : Store) :
  HoldEffect (.authorization answer.id) answer store (authorize site now limits resets model verdict estimate answer store) := by
  rcases authorize_cases site now limits resets model verdict estimate answer store with
    same | same | ⟨allowance, same, _⟩
  · rw [same]
    exact .same rfl rfl
  · rw [same]
    exact .released rfl rfl
  · rw [same, holdAllowance]
    cases takeHold allowance (site.chargeTerms (some model.id)).1 estimate with
    | none => exact .released rfl rfl
    | some tokens =>
      refine .replaced rfl tokens (some model.id) now ?_ rfl
      exact congrArg some (nextId_refund answer.hold store.reservations)

theorem settle_holdEffect (now : ℚ) (ending : Ending) (committed : Bool) (answer : Answer) (store : Store) :
  HoldEffect (.settlement answer.id) answer store (settle site now ending committed answer store) := by
  unfold settle
  split
  · exact .same rfl rfl
  · split
    · exact .same rfl rfl
    · split
      · exact .released (settleAdmitted_answer site now ending answer store).2.2.2
          (settleAdmitted_tables site now ending answer store).2.2.1
      · exact .forgotten rfl rfl

theorem release_holdEffect (committed : Bool) (answer : Answer) (store : Store) :
  HoldEffect (.release answer.id) answer store (release committed answer store) := by
  unfold release
  split
  · exact .released rfl rfl
  · exact .forgotten rfl rfl

theorem holdStep_quiet {after : State} (kept : HoldsKept past state) (party : Party)
  (holds : after.holds = state.holds) (nextId : after.store.reservations.nextId = state.store.reservations.nextId)
  (held : ∀ answer ∈ after.answers, answer.hold = none \/
    ∃ before ∈ state.answers, before.id = answer.id /\ before.hold = answer.hold) :
  HoldStep state after party := by
  constructor
  · rw [holds]
    exact kept.keys
  · rw [nextId]
  · intro hold present
    exact .inl (holds ▸ present)
  · intro hold present absent
    exact absurd (holds ▸ present) absent
  · intro answer mem _ holds'
    rcases held answer mem with none | ⟨before, beforeMember, sameId, sameHold⟩
    · rw [none] at holds'
      cases holds'
    · exact .inl ⟨before, beforeMember, sameId, sameHold.trans holds'⟩

theorem holdStep_perform (kept : HoldsKept past state) {answerId : ℕ} {answer : Answer}
  (found : state.answer answerId = some answer) {step : Answer -> Store -> Answer × Store} {party : Party}
  (own : party.ofAnswer answer.id) (sameId : (step answer state.store).1.id = answer.id)
  (effect : HoldEffect party answer state.store (step answer state.store)) :
  HoldStep state (perform state answerId step) party := by
  rcases State.answer_mem found with ⟨mem, rfl⟩
  have below : ∀ hold ∈ state.holds, hold < state.store.reservations.nextId :=
    fun hold present => kept.takenBelow hold (kept.stored hold present)
  have table : (perform state answer.id step).store.reservations = (step answer state.store).2.reservations := by
    rw [perform_eq found]
  have holds : (perform state answer.id step).holds = (step answer state.store).2.reservations.rows.map Reservation.id := by
    rw [State.holds, table]
  -- an answer other than the moving one keeps its memory
  have others : ∀ other ∈ (perform state answer.id step).answers,
      (∃ before ∈ state.answers, before.id = other.id /\ before.hold = other.hold) \/
        other = (step answer state.store).1 := by
    intro other otherIn
    rcases mem_perform found otherIn with ⟨before, _⟩ | same
    · exact .inl ⟨other, before, rfl, rfl⟩
    · exact .inr same
  cases effect with
  | same hold sameTable =>
    refine holdStep_quiet kept party (by rw [holds, sameTable]; rfl) (by rw [table, sameTable]) ?_
    intro other otherIn
    rcases others other otherIn with before | rfl
    · exact .inr before
    · exact .inr ⟨answer, mem, sameId.symm, hold.symm⟩
  | forgotten hold sameTable =>
    refine holdStep_quiet kept party (by rw [holds, sameTable]; rfl) (by rw [table, sameTable]) ?_
    intro other otherIn
    rcases others other otherIn with before | rfl
    · exact .inr before
    · exact .inl hold
  | released hold refunded =>
    constructor
    · rw [holds, refunded]
      exact kept.keys.sublist (ids_refund_sublist _ _)
    · rw [table, refunded, nextId_refund]
    · intro id present
      rw [holds, refunded] at present
      exact .inl ((ids_refund_sublist _ _).subset present)
    · intro id present absent
      rw [holds, refunded] at absent
      exact .inr ⟨answer, mem, refunded_of_gone present absent, own⟩
    · intro other otherIn id otherHolds
      rcases others other otherIn with ⟨before, beforeMember, same, sameHold⟩ | rfl
      · exact .inl ⟨before, beforeMember, same, sameHold.trans otherHolds⟩
      · rw [hold] at otherHolds
        cases otherHolds
  | replaced authorizes tokens modelId now hold replacedTable =>
    have ids : (perform state answer.id step).holds =
        (refundReservation answer.hold state.store.reservations).rows.map Reservation.id ++
          [state.store.reservations.nextId] := by
      rw [holds, replacedTable]
      simp [holdAnswer, nextId_refund]
    constructor
    · rw [ids]
      apply (kept.keys.sublist (ids_refund_sublist _ _)).append (nodup_singleton _)
      intro id present last
      rw [mem_singleton] at last
      have older := below id ((ids_refund_sublist _ _).subset present)
      omega
    · rw [table, replacedTable]
      simp only [holdAnswer, nextId_refund]
      omega
    · intro id present
      rw [ids, mem_append, mem_singleton] at present
      rcases present with before | rfl
      · exact .inl ((ids_refund_sublist _ _).subset before)
      · refine .inr ⟨rfl, ?_, answer.id, authorizes⟩
        rw [table, replacedTable]
        simp only [holdAnswer, nextId_refund]
        omega
    · intro id present absent
      rw [ids, mem_append, not_or] at absent
      exact .inr ⟨answer, mem, refunded_of_gone present absent.1, own⟩
    · intro other otherIn _ otherHolds
      rcases others other otherIn with ⟨before, beforeMember, same, sameHold⟩ | rfl
      · exact .inl ⟨before, beforeMember, same, sameHold.trans otherHolds⟩
      · rw [hold, Option.some_inj] at otherHolds
        subst otherHolds
        refine .inr ⟨rfl, ?_, authorizes.trans (by rw [sameId])⟩
        rw [ids]
        exact mem_append_right _ (mem_singleton.mpr rfl)

theorem holdStep_act (kept : HoldsKept past state) {answerId : ℕ} {step : Answer -> Store -> Answer × Store}
  {party : Party} (own : party.ofAnswer answerId) (sameId : ∀ answer, (step answer state.store).1.id = answer.id)
  (effect : ∀ answer, answer.id = answerId -> HoldEffect party answer state.store (step answer state.store)) :
  HoldStep state (perform state answerId step) party := by
  cases found : state.answer answerId with
  | none =>
    rw [perform_of_none found]
    exact holdStep_quiet kept party rfl rfl (fun answer mem => .inr ⟨answer, mem, rfl, rfl⟩)
  | some answer =>
    have named := (State.answer_mem found).2
    exact holdStep_perform kept found (named.symm ▸ own) (sameId answer) (effect answer named)

theorem settle_id (now : ℚ) (ending : Ending) (committed : Bool) (answer : Answer) (store : Store) :
  (settle site now ending committed answer store).1.id = answer.id := by
  by_cases due : answer.unsettled /\ committed
  · rcases due with ⟨unsettled, rfl⟩
    rw [settle_admitted unsettled]
    exact (settleAdmitted_answer site now ending answer store).1
  · exact (settle_untouched due site now ending store).id

theorem start_holds (site : Credits.Site) (now : ℚ) (modelId : ℕ) (queueWaitMs : ℤ) (recorded : Bool) (answer : Answer)
  (store : Store) :
  let result := start site now modelId queueWaitMs recorded answer store
  result.2.reservations = store.reservations /\ result.1.hold = answer.hold /\ result.1.id = answer.id := by
  rcases start_cases site now modelId queueWaitMs recorded answer store with ⟨_, same⟩ | ⟨_, _, same⟩
  · rw [same]
    exact ⟨rfl, rfl, rfl⟩
  · rw [same]
    exact ⟨rfl, rfl, rfl⟩

theorem recoverCompletions_reservations (now : ℚ) (rows : List CompletionLease) (store : Store) :
  (recoverCompletions site now rows store).reservations = store.reservations := by
  induction rows generalizing store with
  | nil => rfl
  | cons row rest ih =>
    refine (ih (recoverCompletion site now store row)).trans ?_
    unfold recoverCompletion
    cases site.user row.userId <;> rfl

theorem holdStep_next (kept : HoldsKept past state) (limits : ℕ -> TokenLimits) (resets : ℕ -> Resets)
  (action : Action) : HoldStep state (next limits resets state action) action.party := by
  have still : ∀ answer ∈ state.answers, answer.hold = none \/
      ∃ before ∈ state.answers, before.id = answer.id /\ before.hold = answer.hold :=
    fun answer mem => .inr ⟨answer, mem, rfl, rfl⟩
  cases action with
  | create userId requestType tokenId =>
    refine holdStep_quiet kept _ rfl rfl ?_
    exact forall_mem_snoc still (.inl rfl)
  | authorize answerId site now model verdict estimate =>
    refine holdStep_act kept (.inl rfl)
      (fun answer => (authorize_untouched site now _ _ model verdict estimate answer state.store).id) ?_
    rintro answer rfl
    exact authorize_holdEffect site now _ _ model verdict estimate answer state.store
  | start answerId site now modelId queueWaitMs recorded =>
    simp only [next]
    cases found : state.answer answerId with
    | none =>
      rw [perform_of_none found]
      exact holdStep_quiet kept _ rfl rfl still
    | some answer =>
      rcases start_holds site now modelId queueWaitMs recorded answer state.store with ⟨table, sameHold, sameId⟩
      apply holdStep_quiet kept
      · rw [State.holds, perform_eq found, table]
        rfl
      · rw [perform_eq found, table]
      · intro other mem
        rcases mem_perform found mem with ⟨before, _⟩ | same
        · exact still other before
        · rw [same]
          exact .inr ⟨answer, (State.answer_mem found).1, sameId.symm, sameHold.symm⟩
  | settle answerId site now ending committed =>
    refine holdStep_act kept (.inr (.inl rfl))
      (settle_id site now ending committed · state.store) ?_
    rintro answer rfl
    exact settle_holdEffect site now ending committed answer state.store
  | release answerId committed =>
    refine holdStep_act kept (.inr (.inr rfl))
      (fun answer => (release_untouched committed answer state.store).id) ?_
    rintro answer rfl
    exact release_holdEffect committed answer state.store
  | renewHold hold now =>
    exact holdStep_quiet kept _ (map_updateWhere Reservation.id fun _ => rfl) rfl still
  | purgeHolds ttlSeconds now =>
    have fewer : (next limits resets state (.purgeHolds ttlSeconds now)).holds.Sublist state.holds :=
      deleteWhere_sublist.map Reservation.id
    constructor
    · exact kept.keys.sublist fewer
    · exact le_refl _
    · intro hold present
      exact .inl (fewer.subset present)
    · intro hold _ _
      exact .inl rfl
    · intro answer mem _ holds
      exact .inl ⟨answer, mem, rfl, holds⟩
  | checkpoint lease site now modelId tokensIn tokensOut | abandon lease | chargeElsewhere site now request =>
    exact holdStep_quiet kept _ rfl rfl still
  | recover site now rows =>
    have table := recoverCompletions_reservations site now rows state.store
    refine holdStep_quiet kept _ ?_ ?_ still
    · simp [State.holds, next, table]
    · simp [next, table]
  | crash answers =>
    refine holdStep_quiet kept _ rfl rfl ?_
    intro answer mem
    exact still answer (mem_deleteWhere.mp mem).1

variable {limits : ℕ -> TokenLimits} {resets : ℕ -> Resets}

theorem holdsKept_of_trace
  (trace : (answerMachine limits resets).Trace (holdEvents limits resets) past state) : HoldsKept past state := by
  apply trace.induct
  · intro start isInitial
    have empty : start = ⟨emptyStore, [], 0⟩ := isInitial
    subst empty
    constructor
    · exact nodup_nil
    · intro hold mem
      cases mem
    · intro hold mem
      cases mem
    · exact nodup_nil
    · intro hold party mem
      cases mem
    · intro hold mem
      cases mem
    · intro hold mem
      cases mem
    · exact nodup_nil
    · intro _ _ mem
      cases mem
    · intro _ mem
      cases mem
  · intro _ _ action kept _
    exact kept.step (holdStep_next kept limits resets action)

/-- Every amount of the tables is in hundredths of a token, and every charge is
dated. -/
structure Exact (store : Store) : Prop where
  dated : ∀ row ∈ store.books.ledger, row.createdAt < never
  counted : ∀ row ∈ store.books.ledger, Hundredths (row.creditsUsed * tokensPerCredit)
  reserved : ∀ row ∈ store.reservations.rows, Hundredths (row.creditsReserved * tokensPerCredit)

theorem tokensToCredits_mul (tokens : ℚ) : tokensToCredits tokens * tokensPerCredit = tokens := by
  unfold tokensToCredits tokensPerCredit
  ring

theorem countedSince_hundredths {ledger : List LedgerRow}
  (counted : ∀ row ∈ ledger, Hundredths (row.creditsUsed * tokensPerCredit)) (userId : ℕ) (pool : Pool)
  (since : Option ℤ) : Hundredths (countedSince ledger userId pool since) := by
  cases since with
  | none => exact zero
  | some start =>
    rw [countedSince, <- sum_map_mul_right]
    apply list_sum
    intro _ mem
    rcases mem_map.mp mem with ⟨row, rowMember, rfl⟩
    exact counted row (mem_filter.mp rowMember).1

theorem reservedCredits_hundredths {reservations : List Reservation}
  (reserved : ∀ row ∈ reservations, Hundredths (row.creditsReserved * tokensPerCredit)) (userId : ℕ)
  (pool : Pool) : Hundredths (reservedCredits reservations userId pool * tokensPerCredit) := by
  cases pool with
  | chat | agent =>
    rw [reservedCredits, zero_mul]
    exact zero
  | api =>
    rw [reservedCredits, <- sum_map_mul_right]
    apply list_sum
    intro _ mem
    rcases mem_map.mp mem with ⟨row, rowMember, rfl⟩
    exact reserved row (mem_filter.mp rowMember).1

theorem chargeTerms_hundredths (modelId : Option ℕ) (estimate : ℕ) :
  Hundredths ((estimate : ℚ) * (site.chargeTerms modelId).1) := by
  unfold Site.chargeTerms
  cases modelId.bind site.model with
  | none =>
    rw [mul_one]
    exact ofNat estimate
  | some model =>
    refine ⟨estimate * model.policy.hundredths, ?_⟩
    unfold ModelPolicy.weight
    push_cast
    ring

variable {request : ChargeRequest}

theorem charge_exact {site : Credits.Site} {books : Books} (date : now < never)
  (dated : ∀ row ∈ books.ledger, row.createdAt < never)
  (counted : ∀ row ∈ books.ledger, Hundredths (row.creditsUsed * tokensPerCredit)) :
  ∀ row ∈ (charge site now request books).1.ledger,
    row.createdAt < never /\ Hundredths (row.creditsUsed * tokensPerCredit) := by
  intro row mem
  cases known : site.user request.userId with
  | none =>
    rw [charge_of_no_user known] at mem
    exact ⟨dated row mem, counted row mem⟩
  | some user =>
    rw [charge_of_user (by rw [known]; rfl)] at mem
    rcases mem_snoc.mp mem with before | new
    · exact ⟨dated row before, counted row before⟩
    · rw [new]
      refine ⟨Int.floor_lt.mpr date, ?_⟩
      simp only [ChargeRequest.row, tokensToCredits_mul]
      exact countedTokens_hundredths site request

theorem apiUsage_eq (exact : Exact store) (resets : Resets) (now : ℚ) (userId : ℕ) :
  let counts := starts store.books.windows userId (.pool .api) resets now
  let held := reservedCredits store.reservations.rows userId .api * tokensPerCredit
  apiUsage resets now userId store = (countedSince store.books.ledger userId .api counts.windowSince + held,
      countedSince store.books.ledger userId .api counts.weekSince + held) :=
  usage_eq exact.dated store.reservations.rows userId .api _ _

theorem exact_refund (exact : Exact store) (answer : Answer) : Exact (releaseHold answer store).2 where
  dated := exact.dated
  counted := exact.counted
  reserved := fun row mem => exact.reserved row (mem_rows_refund.mp mem).1

theorem reservedCredits_holdAnswer (reservations : Reservations) (userId : ℕ) (tokens : ℚ) (modelId tokenId : Option ℕ)
  (now : ℚ) :
  reservedCredits (holdAnswer reservations userId tokens modelId tokenId now).1.rows userId .api * tokensPerCredit =
    reservedCredits reservations.rows userId .api * tokensPerCredit + tokens := by
  simp only [holdAnswer, reservedCredits, filter_append, map_append, sum_append]
  simp [add_mul, tokensToCredits_mul]

section

variable (exact : Exact store)
include exact

theorem holdAllowance_within (site : Credits.Site) (now : ℚ) (admin : Bool) (limits : TokenLimits)
  (resets : Resets) (model : AiModel) (estimate : ℕ) (answer : Answer) :
  let allowance := budget admin limits (apiUsage resets now answer.userId store)
  let after := (holdAllowance site now allowance model estimate answer store).2
  let counts := starts after.books.windows answer.userId (.pool .api) resets now
  let held := reservedCredits after.reservations.rows answer.userId .api * tokensPerCredit
  Exact after /\ (after.reservations.nextId ≠ store.reservations.nextId -> (∀ limit, limits.window = some limit ->
      countedSince after.books.ledger answer.userId .api counts.windowSince + held <= limit) /\
    (∀ limit, limits.weekly = some limit ->
      countedSince after.books.ledger answer.userId .api counts.weekSince + held <= limit)) := by
  intro allowance after counts held
  cases taken : takeHold allowance (site.chargeTerms (some model.id)).1 estimate with
  | none =>
    have unchanged : after = store := by
      simp [after, holdAllowance, taken]
    rw [unchanged]
    exact ⟨exact, fun changed => absurd rfl changed⟩
  | some tokens =>
    have changed : after = { store with
        reservations := (holdAnswer store.reservations answer.userId tokens (some model.id) answer.tokenId now).1 } := by
      simp [after, holdAllowance, taken]
    have figures := apiUsage_eq exact resets now answer.userId
    have heldBefore := reservedCredits_hundredths exact.reserved answer.userId .api
    have within := takeHold_within
      (by
        rw [figures]
        exact (countedSince_hundredths exact.counted answer.userId .api _).add heldBefore)
      (by
        rw [figures]
        exact (countedSince_hundredths exact.counted answer.userId .api _).add heldBefore)
      (chargeTerms_hundredths site (some model.id) estimate) taken
    rw [figures] at within
    have heldAfter : held = reservedCredits store.reservations.rows answer.userId .api * tokensPerCredit + tokens := by
      simp only [held, changed]
      exact reservedCredits_holdAnswer store.reservations answer.userId tokens (some model.id) answer.tokenId now
    constructor
    · rw [changed]
      refine ⟨exact.dated, exact.counted, ?_⟩
      intro row mem
      rcases mem_snoc.mp mem with before | new
      · exact exact.reserved row before
      · rw [new]
        simp only [tokensToCredits_mul]
        exact within.2.2
    · intro _
      constructor
      · intro limit limited
        rw [heldAfter, <- add_assoc]
        simp only [counts, changed]
        exact within.1 limit limited
      · intro limit limited
        rw [heldAfter, <- add_assoc]
        simp only [counts, changed]
        exact within.2.1 limit limited

theorem authorize_within (site : Credits.Site) (now : ℚ) (limits : TokenLimits) (resets : Resets)
  (model : AiModel) (verdict : Verdict) (estimate : ℕ) (answer : Answer) :
  let after := (authorize site now limits resets model verdict estimate answer store).2
  let counts := starts after.books.windows answer.userId (.pool .api) resets now
  let held := reservedCredits after.reservations.rows answer.userId .api * tokensPerCredit
  Exact after /\ (after.reservations.nextId ≠ store.reservations.nextId -> (∀ limit, limits.window = some limit ->
      countedSince after.books.ledger answer.userId .api counts.windowSince + held <= limit) /\
    (∀ limit, limits.weekly = some limit ->
      countedSince after.books.ledger answer.userId .api counts.weekSince + held <= limit)) := by
  intro after counts held
  have released := exact_refund exact { answer with modelId := some model.id }
  have sameId : (releaseHold { answer with modelId := some model.id } store).2.reservations.nextId =
      store.reservations.nextId := nextId_refund answer.hold store.reservations
  rcases authorize_cases site now limits resets model verdict estimate answer store with
    same | same | ⟨allowance, same, source⟩
  · have unchanged : after = store := congrArg Prod.snd same
    rw [unchanged]
    exact ⟨exact, fun changed => absurd rfl changed⟩
  · have refunded : after = (releaseHold { answer with modelId := some model.id } store).2 := congrArg Prod.snd same
    rw [refunded]
    exact ⟨released, fun changed => absurd sameId changed⟩
  · have result : after = (holdAllowance site now allowance model estimate
        (releaseHold { answer with modelId := some model.id } store).1
        (releaseHold { answer with modelId := some model.id } store).2).2 := congrArg Prod.snd same
    rcases source with unlimited | ⟨admin, metered⟩
    · have nothing : after = (releaseHold { answer with modelId := some model.id } store).2 := by
        rw [result, unlimited]
        rfl
      rw [nothing]
      exact ⟨released, fun changed => absurd sameId changed⟩
    · have fits := holdAllowance_within released site now admin limits resets model estimate
        (releaseHold { answer with modelId := some model.id } store).1
      rw [sameId] at fits
      simp only [counts, held, result, metered]
      exact fits

theorem Exact.of_tables {after : Store} (books : after.books = store.books)
  (rows : ∀ row ∈ after.reservations.rows, row ∈ store.reservations.rows) : Exact after where
  dated := by
    rw [books]
    exact exact.dated
  counted := by
    rw [books]
    exact exact.counted
  reserved := fun row mem => exact.reserved row (rows row mem)

theorem Exact.charged {after : Store} {site : Credits.Site}
  (date : now < never) (books : after.books = (charge site now request store.books).1)
  (rows : ∀ row ∈ after.reservations.rows, row ∈ store.reservations.rows) : Exact after where
  dated := by
    rw [books]
    exact fun row mem => (charge_exact date exact.dated exact.counted row mem).1
  counted := by
    rw [books]
    exact fun row mem => (charge_exact date exact.dated exact.counted row mem).2
  reserved := fun row mem => exact.reserved row (rows row mem)

end

theorem recoverCompletions_exact (date : now < never) (rows : List CompletionLease) (exact : Exact store) :
  Exact (recoverCompletions site now rows store) := by
  induction rows generalizing store with
  | nil => exact exact
  | cons row rest ih =>
    apply ih
    unfold recoverCompletion
    cases site.user row.userId with
    | none => exact exact.of_tables rfl (fun _ mem => mem)
    | some user =>
      by_cases zero : row.tokensIn = 0 /\ row.tokensOut = 0
      · exact exact.of_tables (if_pos zero) (fun _ mem => mem)
      · exact exact.charged date (if_neg zero) (fun _ mem => mem)

theorem settle_exact {site : Credits.Site} (date : now < never) (ending : Ending) (committed : Bool) (answer : Answer)
  (exact : Exact store) : Exact (settle site now ending committed answer store).2 := by
  have rows : ∀ row ∈ (settle site now ending committed answer store).2.reservations.rows,
      row ∈ store.reservations.rows := by
    intro _ mem
    cases settle_holdEffect site now ending committed answer store with
    | same hold table | forgotten hold table =>
      rw [table] at mem
      exact mem
    | released hold table =>
      rw [table] at mem
      exact (mem_rows_refund.mp mem).1
    | replaced authorizes => cases authorizes
  by_cases due : answer.unsettled /\ committed
  · rcases due with ⟨unsettled, rfl⟩
    rw [settle_admitted unsettled] at rows ⊢
    have books := (settleAdmitted_tables site now ending answer store).2.2.2
    by_cases free : (closeLease answer.lease store.leases).2 = false \/ ending.free
    · rw [if_pos free] at books
      exact exact.of_tables books rows
    · rw [if_neg free] at books
      exact exact.charged date books rows
  · exact exact.of_tables (settle_untouched due site now ending store).books rows

theorem exact_next (exact : Exact state.store) (limits : ℕ -> TokenLimits) (resets : ℕ -> Resets) (action : Action)
  (allowed : enabled state action) : Exact (next limits resets state action).store := by
  -- a step of an answer that no live process runs is no step
  have performed : ∀ (answerId : ℕ) (step : Answer -> Store -> Answer × Store),
      (∀ answer, Exact (step answer state.store).2) -> Exact (perform state answerId step).store := by
    intro answerId _ each
    cases found : state.answer answerId with
    | none =>
      rw [perform_of_none found]
      exact exact
    | some answer =>
      rw [perform_eq found]
      exact each answer
  cases action with
  | create userId requestType tokenId | crash answers => exact exact
  | authorize answerId site now model verdict estimate =>
    apply performed
    intro answer
    exact (authorize_within exact site now _ _ model verdict estimate answer).1
  | start answerId site now modelId queueWaitMs recorded =>
    apply performed
    intro answer
    rcases start_cases site now modelId queueWaitMs recorded answer state.store with ⟨_, same⟩ | ⟨_, _, same⟩
    · rw [same]
      exact exact
    · rw [same]
      exact exact.of_tables rfl (fun _ mem => mem)
  | settle answerId site now ending committed =>
    apply performed
    intro answer
    exact settle_exact allowed.1 ending committed answer exact
  | release answerId committed =>
    apply performed
    intro answer
    unfold release
    split
    · exact exact_refund exact answer
    · exact exact
  | renewHold hold now =>
    refine ⟨exact.dated, exact.counted, ?_⟩
    intro row mem
    rcases mem_updateWhere.mp mem with ⟨before, _⟩ | ⟨old, oldIn, _, rfl⟩
    · exact exact.reserved row before
    · exact exact.reserved old oldIn
  | purgeHolds ttlSeconds now => exact exact.of_tables rfl (fun row mem => (mem_deleteWhere.mp mem).1)
  | checkpoint lease site now modelId tokensIn tokensOut | abandon lease =>
    exact exact.of_tables rfl (fun _ mem => mem)
  | recover site now rows => exact recoverCompletions_exact site allowed.1 rows exact
  | chargeElsewhere site now request => exact exact.charged allowed.1 rfl (fun _ mem => mem)

theorem exact_of_reachable (reachable : (answerMachine limits resets).Reachable state) : Exact state.store := by
  have invariant : (answerMachine limits resets).Invariant (Exact ·.store) := by
    constructor
    · intro start isInitial
      have empty : start = ⟨emptyStore, [], 0⟩ := isInitial
      subst empty
      constructor
      · intro row mem
        cases mem
      · intro row mem
        cases mem
      · intro _ mem
        cases mem
    · intro _ action exact allowed
      exact exact_next exact limits resets action allowed
  exact invariant.reachable reachable

/-- An authorization that takes a hold leaves, in each window, no more counted and held than the limit. -/
theorem holds_within_limits {past : List HoldEvent} {state : State}
  (trace : (answerMachine limits resets).Trace (holdEvents limits resets) past state) :
  (∀ answerId site now model verdict estimate answer, state.answer answerId = some answer ->
    let after := next limits resets state (.authorize answerId site now model verdict estimate)
    let counts := starts after.store.books.windows answer.userId (.pool .api) (resets answer.userId) now
    let held := reservedCredits after.store.reservations.rows answer.userId .api * tokensPerCredit
    (∃ hold ∈ after.holds, hold ∉ state.holds) ->
      (∀ limit, (limits answer.userId).window = some limit ->
        countedSince after.store.books.ledger answer.userId .api counts.windowSince + held <= limit) /\
      (∀ limit, (limits answer.userId).weekly = some limit ->
        countedSince after.store.books.ledger answer.userId .api counts.weekSince + held <= limit)) /\
    (takenHolds past).Nodup /\ (removedHolds past).Nodup /\
    (∀ hold party, HoldEvent.taken hold party ∈ past ->
      ∃ answer, party = .authorization answer) /\
    (∀ hold party, HoldEvent.removed hold party ∈ past -> party = .expiry \/
      ∃ answer, party.ofAnswer answer /\ HoldEvent.taken hold (.authorization answer) ∈ past) /\
    (∀ answerId site now ending answer hold, state.answer answerId = some answer -> answer.unsettled ->
      answer.hold = some hold -> hold ∉ (next limits resets state (.settle answerId site now ending true)).holds) /\
    (∀ ttlSeconds now, ∀ row ∈ state.store.reservations.rows,
      row.id ∉ (next limits resets state (.purgeHolds ttlSeconds now)).holds ->
      row.updatedAt.getD row.createdAt < ⌊now - ttlSeconds⌋) := by
  have kept := holdsKept_of_trace trace
  refine ⟨?_, kept.takenOnce, kept.removedOnce, kept.takenBy, kept.removedBy, ?_, ?_⟩
  · intro answerId site now model verdict estimate answer found after counts held taken
    rcases taken with ⟨hold, present, new⟩
    have store : after.store = (authorize site now (limits answer.userId) (resets answer.userId) model verdict estimate
        answer state.store).2 := by
      simp only [after, next, perform_eq found]
    have changed : after.store.reservations.nextId ≠ state.store.reservations.nextId := by
      rcases (holdStep_next kept limits resets (.authorize answerId site now model verdict estimate)).fresh hold present with
        old | ⟨_, grown, _⟩
      · exact absurd old new
      · exact Nat.ne_of_gt grown
    rw [store] at changed
    simp only [counts, held, store]
    exact (authorize_within (exact_of_reachable trace.reachable) site now (limits answer.userId) (resets answer.userId)
      model verdict estimate answer).2 changed
  · intro answerId site now ending answer hold found unsettled holds present
    simp only [State.holds, next, perform_eq found, settle_admitted unsettled,
      (settleAdmitted_tables site now ending answer state.store).2.2.1] at present
    rcases mem_map.mp present with ⟨row, mem, same⟩
    exact (mem_rows_refund.mp mem).2 (holds.trans (by rw [same]))
  · intro ttlSeconds now row mem gone
    by_contra fresh
    apply gone
    refine mem_map.mpr ⟨row, mem_deleteWhere.mpr ⟨mem, ?_⟩, rfl⟩
    intro expired
    exact fresh (of_decide_eq_true expired)

/-- Two answers share a window of 100 tokens: the first holds the 60 it may
cost, the second what is left of them. -/
theorem holds_within_limits_witness :
  ∃ past state,
    (answerMachine (fun _ => ⟨some 100, none⟩) fun _ => noResets).Trace
      (holdEvents (fun _ => ⟨some 100, none⟩) fun _ => noResets) past state /\
    past = [.taken 0 (.authorization 0)] /\
    let model : AiModel := ⟨7, .ollama, ⟨100, none⟩⟩
    let site : Credits.Site := ⟨[⟨1, false⟩], [], [model], [], none, none⟩
    let after := next (fun _ => ⟨some 100, none⟩) (fun _ => noResets) state (.authorize 1 site 20 model .usable 60)
    let counts := starts after.store.books.windows 1 (.pool .api) noResets 20
    let held := reservedCredits after.store.reservations.rows 1 .api * tokensPerCredit
    held = 100 /\ countedSince after.store.books.ledger 1 .api counts.windowSince + held <= (100 : ℕ) := by
  let limits : ℕ -> TokenLimits := fun _ => ⟨some 100, none⟩
  let machine := answerMachine limits (fun _ => noResets)
  let model : AiModel := ⟨7, .ollama, ⟨100, none⟩⟩
  let site : Credits.Site := ⟨[⟨1, false⟩], [], [model], [], none, none⟩
  have start : machine.Trace (holdEvents limits fun _ => noResets) [] ⟨emptyStore, [], 0⟩ := .start rfl
  have created := (start.act (.create 1 .api none) trivial).act (.create 1 .api none) trivial
  have first := created.act (.authorize 0 site 10 model .usable 60) trivial
  refine ⟨_, _, first, by decide +kernel, by decide +kernel, ?_⟩
  exact ((holds_within_limits first).1 1 site 20 model .usable 60 (newAnswer 1 1 .api none) (by decide +kernel)
    ⟨1, by decide +kernel, by decide +kernel⟩).1 100 rfl

end BananaChat.Answers

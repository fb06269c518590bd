import Mathlib.Data.List.Induction
import BananaChat.Answers.Answer

namespace BananaChat.Answers

open Foundation Credits Runs List Rows Nat

/-!
# An answer is charged once

`LeaseLife` says what a lease is for, apart from tables and processes: it runs with the usage
recorded last, and what closes it first decides what is charged.
-/

structure Bill where
  tokensIn : ℕ
  tokensOut : ℕ
  usageEstimated : Bool

def billsOf (lease : ℕ) (ledger : List LedgerRow) : List Bill :=
  (ledger.filter (·.origin = some lease)).map
    (fun row => ⟨row.tokensIn, row.tokensOut, row.usageEstimated⟩)

/-- The steps that address a lease: a settlement with what it charges, a
recovery that finds the lease no longer renewed. -/
inductive LeaseEvent
  | opened (lease : ℕ)
  | checkpointed (lease : ℕ) (tokensIn tokensOut : ℤ)
  | settled (lease : ℕ) (bill : Option Bill)
  | recovered (lease : ℕ)

/-- The life of a lease: not opened yet, running with its last record, or closed
with what was charged. -/
inductive LeaseLife
  | unopened
  | running (tokensIn tokensOut : ℕ)
  | closed (bills : List Bill)

def recordBill (tokensIn tokensOut : ℕ) : List Bill :=
  if tokensIn = 0 /\ tokensOut = 0 then [] else [⟨tokensIn, tokensOut, true⟩]

def LeaseLife.after (lease : ℕ) (life : LeaseLife) (event : LeaseEvent) : LeaseLife :=
  match life, event with
  | .unopened, .opened other => if other = lease then .running 0 0 else .unopened
  | .running tokensIn tokensOut, .checkpointed other newIn newOut =>
    if other = lease then .running newIn.toNat newOut.toNat else .running tokensIn tokensOut
  | .running tokensIn tokensOut, .settled other bill =>
    if other = lease then .closed bill.toList else .running tokensIn tokensOut
  | .running tokensIn tokensOut, .recovered other =>
    if other = lease then .closed (recordBill tokensIn tokensOut) else .running tokensIn tokensOut
  | life, _ => life

def lifeOf (lease : ℕ) (past : List LeaseEvent) : LeaseLife := past.foldl (LeaseLife.after lease) .unopened

/-- What `_settle` charges. -/
def Ending.bill (ending : Ending) : Option Bill :=
  if ending.free then none
  else some ⟨ending.usage.1.toNat, ending.usage.2.1.toNat, ending.usage.2.2⟩

def leaseEvents (state : State) : Action -> List LeaseEvent
  | .start answerId _ _ _ _ recorded =>
    match state.answer answerId with
    | none => []
    | some answer => if answer.lease = none /\ recorded then [.opened state.store.nextLease] else []
  | .checkpoint lease _ _ _ tokensIn tokensOut => [.checkpointed lease tokensIn tokensOut]
  | .settle answerId _ _ ending committed =>
    match state.answer answerId with
    | none => []
    | some answer =>
      if answer.unsettled /\ committed then
        answer.lease.toList.map (.settled · ending.bill)
      else []
  | .recover _ _ rows => rows.map (.recovered ·.id)
  | _ => []

def LeaseEvent.lease : LeaseEvent -> ℕ
  | .opened lease => lease
  | .checkpointed lease _ _ => lease
  | .settled lease _ => lease
  | .recovered lease => lease

theorem after_of_ne {lease : ℕ} (event : LeaseEvent) (other : event.lease ≠ lease) (life : LeaseLife) :
  LeaseLife.after lease life event = life := by
  cases event with
  | opened id | checkpointed id newIn newOut | settled id bill | recovered id =>
    cases life <;> first | rfl | exact if_neg other

theorem lifeOf_append (lease : ℕ) (past events : List LeaseEvent) :
  lifeOf lease (past ++ events) = events.foldl (LeaseLife.after lease) (lifeOf lease past) :=
  foldl_append

theorem after_closed (lease : ℕ) (bills : List Bill) (event : LeaseEvent) :
  LeaseLife.after lease (.closed bills) event = .closed bills := by
  cases event <;> rfl

theorem foldl_after_closed (lease : ℕ) (bills : List Bill) (events : List LeaseEvent) :
  events.foldl (LeaseLife.after lease) (.closed bills) = .closed bills := by
  induction events with
  | nil => rfl
  | cons event rest ih => rw [foldl_cons, after_closed, ih]

theorem recordBill_length (tokensIn tokensOut : ℕ) : (recordBill tokensIn tokensOut).length <= 1 := by
  unfold recordBill
  split <;> simp

variable {life : LeaseLife} {site : Credits.Site} {store : Store} {state : State} {past : List LeaseEvent}

theorem after_bills {lease : ℕ} (once : ∀ bills, life = .closed bills -> bills.length <= 1) (event : LeaseEvent) :
  ∀ bills, LeaseLife.after lease life event = .closed bills -> bills.length <= 1 := by
  intro bills closed
  cases life with
  | unopened =>
    cases event with
    | opened other =>
      simp only [LeaseLife.after] at closed
      split at closed <;> cases closed
    | checkpointed other newIn newOut | settled other bill | recovered other => cases closed
  | running tokensIn tokensOut =>
    cases event with
    | opened other => cases closed
    | checkpointed other newIn newOut =>
      simp only [LeaseLife.after] at closed
      split at closed <;> cases closed
    | settled other bill =>
      simp only [LeaseLife.after] at closed
      split at closed
      · cases closed
        exact Option.length_toList_le
      · cases closed
    | recovered other =>
      simp only [LeaseLife.after] at closed
      split at closed
      · cases closed
        exact recordBill_length tokensIn tokensOut
      · cases closed
  | closed before =>
    rw [after_closed] at closed
    exact once bills closed

theorem lifeOf_bills (lease : ℕ) (past : List LeaseEvent) :
  ∀ bills, lifeOf lease past = .closed bills -> bills.length <= 1 := by
  induction past using reverseRecOn with
  | nil =>
    intro _ closed
    cases closed
  | append_singleton past event ih =>
    rw [lifeOf_append, foldl_cons, foldl_nil]
    exact after_bills ih event

def record (row : CompletionLease) : ℕ × ℕ × ℕ := (row.id, row.tokensIn, row.tokensOut)

def Shows (leases : List CompletionLease) (nextLease : ℕ) (ledger : List LedgerRow) (lease : ℕ) : LeaseLife -> Prop
  | .unopened => nextLease <= lease /\ lease ∉ leases.map CompletionLease.id /\ billsOf lease ledger = []
  | .running tokensIn tokensOut =>
    lease < nextLease /\ (lease, tokensIn, tokensOut) ∈ leases.map record /\ billsOf lease ledger = []
  | .closed bills => lease < nextLease /\ lease ∉ leases.map CompletionLease.id /\ billsOf lease ledger = bills

theorem billsOf_append (lease : ℕ) (ledger rows : List LedgerRow) :
  billsOf lease (ledger ++ rows) = billsOf lease ledger ++ billsOf lease rows := by
  unfold billsOf
  rw [filter_append, map_append]

variable {request : ChargeRequest}

theorem billsOf_charge (known : (site.user request.userId).isSome) (now : ℚ)
  (books : Books) (lease : ℕ) :
  billsOf lease (charge site now request books).1.ledger = billsOf lease books.ledger ++
    if request.origin = some lease then
      [⟨request.tokensIn.toNat, request.tokensOut.toNat, request.usageEstimated⟩]
    else [] := by
  rw [charge_of_user known, billsOf_append]
  congr 1
  unfold billsOf
  by_cases ours : request.origin = some lease
  · simp [ChargeRequest.row, ours]
  · simp [ChargeRequest.row, ours]

theorem billsOf_charge_of_ne {lease : ℕ} (other : request.origin ≠ some lease) (now : ℚ)
  (books : Books) : billsOf lease (charge site now request books).1.ledger = billsOf lease books.ledger := by
  cases known : site.user request.userId with
  | none => rw [charge_of_no_user known]
  | some user =>
    rw [billsOf_charge (by rw [known]; rfl), if_neg other, append_nil]

theorem Shows.congr {leases others : List CompletionLease} {nextLease : ℕ} {ledger ledger' : List LedgerRow} {lease : ℕ}
  (shows : Shows leases nextLease ledger lease life) (sameRecords : others.map record = leases.map record)
  (sameBills : billsOf lease ledger' = billsOf lease ledger) : Shows others nextLease ledger' lease life := by
  have sameIds : others.map CompletionLease.id = leases.map CompletionLease.id := by
    have first := congrArg (map Prod.fst) sameRecords
    rwa [map_map, map_map] at first
  cases life with
  | unopened | closed bills => exact ⟨shows.1, sameIds ▸ shows.2.1, sameBills.trans shows.2.2⟩
  | running tokensIn tokensOut => exact ⟨shows.1, sameRecords ▸ shows.2.1, sameBills.trans shows.2.2⟩

section Tables

variable {leases : List CompletionLease} {nextLease : ℕ} {ledger ledger' : List LedgerRow} {lease : ℕ} {life : LeaseLife}

section

variable (shows : Shows leases nextLease ledger lease life)
include shows

theorem Shows.running_of_mem
  (mem : lease ∈ leases.map CompletionLease.id) :
  ∃ tokensIn tokensOut, life = .running tokensIn tokensOut := by
  cases life with
  | unopened | closed bills => exact absurd mem shows.2.1
  | running tokensIn tokensOut => exact ⟨tokensIn, tokensOut, rfl⟩

theorem Shows.after_of_not_mem
  (absent : lease ∉ leases.map CompletionLease.id) (event : LeaseEvent) (notOpened : event ≠ .opened lease) :
  LeaseLife.after lease life event = life := by
  cases life with
  | unopened =>
    cases event with
    | opened other => exact if_neg (fun same => notOpened (by rw [same]))
    | checkpointed other newIn newOut | settled other bill | recovered other => rfl
  | running tokensIn tokensOut =>
    rcases mem_map.mp shows.2.1 with ⟨row, mem, same⟩
    exact absurd (mem_map.mpr ⟨row, mem, congrArg Prod.fst same⟩) absent
  | closed bills => exact after_closed lease bills event

theorem Shows.open (row : CompletionLease) (fresh : row.id = nextLease)
  (noUsage : row.tokensIn = 0 /\ row.tokensOut = 0) :
  Shows (leases ++ [row]) (nextLease + 1) ledger lease (LeaseLife.after lease life (.opened nextLease)) := by
  cases life with
  | unopened =>
    simp only [LeaseLife.after]
    by_cases same : nextLease = lease
    · rw [if_pos same]
      refine ⟨by omega, ?_, shows.2.2⟩
      rw [map_append]
      apply mem_append_right
      simp [record, fresh, noUsage, same]
    · rw [if_neg same]
      have later : nextLease <= lease := shows.1
      refine ⟨by omega, ?_, shows.2.2⟩
      rw [map_append, mem_append, map_singleton, mem_singleton, fresh]
      rintro (before | last)
      · exact shows.2.1 before
      · exact same last.symm
  | running tokensIn tokensOut =>
    refine ⟨lt_succ_of_lt shows.1, ?_, shows.2.2⟩
    rw [map_append]
    exact mem_append_left _ shows.2.1
  | closed bills =>
    refine ⟨lt_succ_of_lt shows.1, ?_, shows.2.2⟩
    rw [map_append, mem_append, map_singleton, mem_singleton, fresh]
    rintro (before | last)
    · exact shows.2.1 before
    · exact absurd shows.1 (by omega)

theorem Shows.checkpoint (addressed : ℕ) (tokensIn tokensOut : ℤ)
  (change : CompletionLease -> CompletionLease)
  (changes : ∀ row, record (change row) = (row.id, tokensIn.toNat, tokensOut.toNat)) :
  Shows (updateWhere (·.id = addressed) change leases) nextLease ledger lease
    (LeaseLife.after lease life (.checkpointed addressed tokensIn tokensOut)) := by
  have sameIds : (updateWhere (·.id = addressed) change leases).map CompletionLease.id =
      leases.map CompletionLease.id :=
    map_updateWhere CompletionLease.id (fun row => congrArg Prod.fst (changes row))
  cases life with
  | unopened | closed bills => exact ⟨shows.1, sameIds ▸ shows.2.1, shows.2.2⟩
  | running oldIn oldOut =>
    rcases mem_map.mp shows.2.1 with ⟨row, mem, same⟩
    have rowId : row.id = lease := congrArg Prod.fst same
    simp only [LeaseLife.after]
    by_cases ours : addressed = lease
    · rw [if_pos ours]
      refine ⟨shows.1, mem_map.mpr ⟨change row, ?_, (changes row).trans (by rw [rowId])⟩, shows.2.2⟩
      exact mem_updateWhere.mpr (.inr ⟨row, mem, by simp [rowId, ours], rfl⟩)
    · rw [if_neg ours]
      refine ⟨shows.1, mem_map.mpr ⟨row, ?_, same⟩, shows.2.2⟩
      exact mem_updateWhere.mpr (.inl ⟨mem, by simp [rowId, Ne.symm ours]⟩)

theorem Shows.delete_of_ne {addressed : ℕ} (other : addressed ≠ lease)
  (sameBills : billsOf lease ledger' = billsOf lease ledger) :
  Shows (deleteWhere (·.id = addressed) leases) nextLease ledger' lease life := by
  have absent : lease ∉ leases.map CompletionLease.id ->
      lease ∉ (deleteWhere (·.id = addressed) leases).map CompletionLease.id :=
    fun before after => before ((deleteWhere_sublist.map _).subset after)
  cases life with
  | unopened | closed bills => exact ⟨shows.1, absent shows.2.1, sameBills.trans shows.2.2⟩
  | running tokensIn tokensOut =>
    rcases mem_map.mp shows.2.1 with ⟨row, mem, same⟩
    have rowId : row.id = lease := congrArg Prod.fst same
    refine ⟨shows.1, mem_map.mpr ⟨row, ?_, same⟩, sameBills.trans shows.2.2⟩
    exact mem_deleteWhere.mpr ⟨mem, by simp [rowId, Ne.symm other]⟩

end

theorem Shows.close {tokensIn tokensOut : ℕ} (shows : Shows leases nextLease ledger lease (.running tokensIn tokensOut))
  {bills : List Bill} (written : billsOf lease ledger' = bills) :
  Shows (deleteWhere (·.id = lease) leases) nextLease ledger' lease (.closed bills) := by
  refine ⟨shows.1, ?_, written⟩
  intro mem
  rcases mem_map.mp mem with ⟨_, kept, same⟩
  exact (mem_deleteWhere.mp kept).2 (by simp [same])

theorem closeCompletion_of_mem (distinct : (leases.map CompletionLease.id).Nodup)
  (mem : lease ∈ leases.map CompletionLease.id) : (closeCompletion lease leases).2 := by
  have affected := affected_key distinct lease
  rw [if_pos mem] at affected
  exact decide_eq_true affected

theorem closeCompletion_of_not_mem (absent : lease ∉ leases.map CompletionLease.id) :
  closeCompletion lease leases = (leases, false) := by
  have unselected : ∀ row ∈ leases, ¬ decide (row.id = lease) := by
    intro row mem selected
    exact absent (mem_map.mpr ⟨row, mem, of_decide_eq_true selected⟩)
  unfold closeCompletion
  simp only [deleteWhere_eq_self unselected, affected_eq_zero_iff.mpr unselected, zero_ne_one, decide_false]

end Tables

variable {answer : Answer}

/-- A settlement closes its own lease, with the bill of its ending, if the lease
is still there; every other lease keeps its life. -/
theorem settleAdmitted_shows (now : ℚ) (ending : Ending)
  (distinct : (store.leases.map CompletionLease.id).Nodup) (exist : AccountsExist site store)
  (owner : ∀ row ∈ store.leases, answer.lease = some row.id -> row.userId = answer.userId) {lease : ℕ}
  (shows : Shows store.leases store.nextLease store.books.ledger lease life) :
  let after := (settleAdmitted site now ending answer store).2
  Shows after.leases after.nextLease after.books.ledger lease
    ((answer.lease.toList.map (LeaseEvent.settled · ending.bill)).foldl (LeaseLife.after lease) life) := by
  intro after
  rcases settleAdmitted_tables site now ending answer store with ⟨leases, nextLease, _, books⟩
  have otherBills : answer.lease ≠ some lease -> billsOf lease after.books.ledger = billsOf lease store.books.ledger := by
    intro other
    rw [books]
    split
    · rfl
    · exact billsOf_charge_of_ne other now store.books
  rw [leases, nextLease]
  cases own : answer.lease with
  | none =>
    apply shows.congr rfl
    exact otherBills (by rw [own]; exact fun same => by cases same)
  | some addressed =>
    simp only [Option.toList_some, map_cons, map_nil, foldl_cons, foldl_nil, closeLease]
    by_cases present : addressed ∈ store.leases.map CompletionLease.id
    · have open' := closeCompletion_of_mem distinct present
      by_cases ours : addressed = lease
      · subst ours
        rcases shows.running_of_mem present with ⟨tokensIn, tokensOut, rfl⟩
        have closes : LeaseLife.after addressed (.running tokensIn tokensOut) (.settled addressed ending.bill) =
            .closed ending.bill.toList := if_pos rfl
        rw [closes]
        apply shows.close
        rw [books, own]
        simp only [closeLease, open', Bool.true_eq_false, false_or]
        by_cases free : ending.free
        · rw [if_pos free, shows.2.2, Ending.bill, if_pos free]
          rfl
        · rcases mem_map.mp present with ⟨row, mem, rowId⟩
          have known : (site.user (answer.chargeRequest ending).userId).isSome := by
            change (site.user answer.userId).isSome
            rw [<- owner row mem (own.trans (by rw [rowId]))]
            exact exist row mem
          have origin : (answer.chargeRequest ending).origin = some addressed := own
          rw [if_neg free, billsOf_charge known, shows.2.2, nil_append, if_pos origin, Ending.bill, if_neg free]
          rfl
      · rw [after_of_ne (.settled addressed ending.bill) ours]
        apply shows.delete_of_ne ours
        exact otherBills (by rw [own]; exact fun same => ours (Option.some_inj.mp same))
    · rw [closeCompletion_of_not_mem present]
      by_cases ours : addressed = lease
      · subst ours
        rw [shows.after_of_not_mem present _ (LeaseEvent.noConfusion ·)]
        apply shows.congr rfl
        rw [books, own]
        simp [closeLease, closeCompletion_of_not_mem present]
      · rw [after_of_ne (.settled addressed ending.bill) ours]
        apply shows.congr rfl
        exact otherBills (by rw [own]; exact fun same => ours (Option.some_inj.mp same))

variable {row : CompletionLease}

theorem recoverCompletion_tables (now : ℚ) (store : Store) (known : (site.user row.userId).isSome) :
  let after := recoverCompletion site now store row
  after.leases = deleteWhere (·.id = row.id) store.leases /\ after.nextLease = store.nextLease /\
    after.books = if row.tokensIn = 0 /\ row.tokensOut = 0 then store.books
      else (charge site now (row.chargeRequest site) store.books).1 := by
  rcases Option.isSome_iff_exists.mp known with ⟨_, found⟩
  simp [recoverCompletion, found]

theorem recoverCompletion_shows (now : ℚ) (mem : row ∈ store.leases)
  (distinct : (store.leases.map CompletionLease.id).Nodup) (known : (site.user row.userId).isSome) {lease : ℕ}
  (shows : Shows store.leases store.nextLease store.books.ledger lease life) :
  let after := recoverCompletion site now store row
  Shows after.leases after.nextLease after.books.ledger lease (LeaseLife.after lease life (.recovered row.id)) := by
  intro _
  rcases recoverCompletion_tables now store known with ⟨leases, nextLease, books⟩
  rw [leases, nextLease]
  by_cases ours : row.id = lease
  · subst ours
    rcases shows.running_of_mem (mem_map.mpr ⟨row, mem, rfl⟩) with ⟨tokensIn, tokensOut, rfl⟩
    -- the row is the only one of its lease, so its record is the lease's
    rcases mem_map.mp shows.2.1 with ⟨shown, shownMember, same⟩
    have sameRow : shown = row := eq_of_key distinct shownMember mem (congrArg Prod.fst same)
    subst sameRow
    have tokens : shown.tokensIn = tokensIn /\ shown.tokensOut = tokensOut := by
      simpa [record] using same
    have closes : LeaseLife.after shown.id (.running tokensIn tokensOut) (.recovered shown.id) =
        .closed (recordBill tokensIn tokensOut) := if_pos rfl
    rw [closes]
    apply shows.close
    rw [books, tokens.1, tokens.2, recordBill]
    by_cases zero : tokensIn = 0 /\ tokensOut = 0
    · rw [if_pos zero, if_pos zero]
      exact shows.2.2
    · rw [if_neg zero, if_neg zero, billsOf_charge known, shows.2.2, nil_append]
      simp [CompletionLease.chargeRequest, tokens]
  · rw [after_of_ne (.recovered row.id) ours]
    apply shows.delete_of_ne ours
    rw [books]
    split
    · rfl
    · exact billsOf_charge_of_ne (fun same => ours (Option.some_inj.mp same)) now store.books

def owner (row : CompletionLease) : ℕ × ℕ := (row.id, row.userId)

theorem recoverCompletions_shows (now : ℚ) (rows : List CompletionLease)
  (distinct : (store.leases.map CompletionLease.id).Nodup) (stored : ∀ row ∈ rows, row ∈ store.leases)
  (rowsDistinct : (rows.map CompletionLease.id).Nodup) (exist : AccountsExist site store) :
  let after := recoverCompletions site now rows store
  (after.leases.map owner).Sublist (store.leases.map owner) /\ after.nextLease = store.nextLease /\
    ∀ lease life, Shows store.leases store.nextLease store.books.ledger lease life ->
      Shows after.leases after.nextLease after.books.ledger lease
        ((rows.map (LeaseEvent.recovered ·.id)).foldl (LeaseLife.after lease) life) := by
  induction rows generalizing store with
  | nil => exact ⟨List.Sublist.refl _, rfl, fun _ _ shows => shows⟩
  | cons row rest ih =>
    rw [map_cons, nodup_cons] at rowsDistinct
    have mem := stored row mem_cons_self
    have known := exist row mem
    rcases recoverCompletion_tables now store known with ⟨leases, nextLease, _⟩
    have fewer : (recoverCompletion site now store row).leases.Sublist store.leases := leases ▸ deleteWhere_sublist
    have later := ih (distinct.sublist (fewer.map CompletionLease.id))
      (by
        intro other otherIn
        rw [leases]
        refine mem_deleteWhere.mpr ⟨stored other (.tail _ otherIn), ?_⟩
        intro same
        exact rowsDistinct.1 (mem_map.mpr ⟨other, otherIn, of_decide_eq_true same⟩))
      rowsDistinct.2 (fun lease leaseMember => exist lease (fewer.subset leaseMember))
    refine ⟨later.1.trans (fewer.map owner), later.2.1.trans nextLease, ?_⟩
    intro lease _ shows
    exact later.2.2 lease _ (recoverCompletion_shows now mem distinct known shows)

structure Consistent (past : List LeaseEvent) (state : State) : Prop where
  keys : (state.store.leases.map CompletionLease.id).Nodup
  leased : ∀ answer ∈ state.answers, ∀ lease, answer.lease = some lease -> lease < state.store.nextLease
  owned : ∀ answer ∈ state.answers, ∀ lease userId, (lease, userId) ∈ state.store.leases.map owner ->
    answer.lease = some lease -> userId = answer.userId
  shown : ∀ lease,
    Shows state.store.leases state.store.nextLease state.store.books.ledger lease (lifeOf lease past)

variable {events : List LeaseEvent}

theorem Consistent.keep {after : State} (consistent : Consistent past state)
  (answers : ∀ answer ∈ after.answers, answer.lease = none \/
    ∃ before ∈ state.answers, answer.lease = before.lease /\ answer.userId = before.userId)
  (rows : (after.store.leases.map owner).Sublist (state.store.leases.map owner))
  (nextLease : after.store.nextLease = state.store.nextLease)
  (shown : ∀ lease, Shows state.store.leases state.store.nextLease state.store.books.ledger lease (lifeOf lease past) ->
    Shows after.store.leases after.store.nextLease after.store.books.ledger lease
      (events.foldl (LeaseLife.after lease) (lifeOf lease past))) : Consistent (past ++ events) after := by
  constructor
  · have ids := rows.map Prod.fst
    rw [map_map, map_map] at ids
    exact consistent.keys.sublist ids
  · intro answer mem lease held
    rw [nextLease]
    rcases answers answer mem with none | ⟨before, beforeMember, sameLease, _⟩
    · rw [none] at held
      cases held
    · exact consistent.leased before beforeMember lease (sameLease ▸ held)
  · intro answer mem lease userId row held
    rcases answers answer mem with none | ⟨before, beforeMember, sameLease, sameUser⟩
    · rw [none] at held
      cases held
    · rw [sameUser]
      exact consistent.owned before beforeMember lease userId (rows.subset row) (sameLease ▸ held)
  · intro lease
    rw [lifeOf_append]
    exact shown lease (consistent.shown lease)

variable {answerId : ℕ}

theorem Consistent.untouched (consistent : Consistent past state) (found : state.answer answerId = some answer)
  {step : Answer -> Store -> Answer × Store} (untouched : Untouched (answer, state.store) (step answer state.store)) :
  Consistent (past ++ []) (perform state answerId step) := by
  apply consistent.keep
  · intro other mem
    right
    rcases mem_perform found mem with ⟨before, _⟩ | same
    · exact ⟨other, before, rfl, rfl⟩
    · exact ⟨answer, (State.answer_mem found).1, same ▸ untouched.lease, same ▸ untouched.userId⟩
  · rw [perform_eq found, untouched.leases]
  · rw [perform_eq found, untouched.nextLease]
  · intro _ shows
    rw [perform_eq found, untouched.leases, untouched.nextLease, untouched.books]
    exact shows

theorem Consistent.silent {past : List LeaseEvent} {state : State} (consistent : Consistent past state)
  (answerId : ℕ) {step : Answer -> Store -> Answer × Store}
  (untouched : ∀ answer, Untouched (answer, state.store) (step answer state.store)) :
  Consistent (past ++ []) (perform state answerId step) := by
  cases found : state.answer answerId with
  | none =>
    rw [perform_of_none found, append_nil]
    exact consistent
  | some answer => exact consistent.untouched found (untouched answer)

section

variable (consistent : Consistent past state)
include consistent

theorem Consistent.settled
  (found : state.answer answerId = some answer) (now : ℚ) (ending : Ending)
  (unsettled : answer.unsettled) (exist : AccountsExist site state.store) :
  Consistent (past ++ answer.lease.toList.map (.settled · ending.bill))
    (perform state answerId (settle site now ending true)) := by
  have settled := settle_admitted unsettled site now ending state.store
  rcases settleAdmitted_answer site now ending answer state.store with ⟨_, sameUser, sameLease, _⟩
  rcases settleAdmitted_tables site now ending answer state.store with ⟨leases, nextLease, _, _⟩
  apply consistent.keep
  · intro other mem
    right
    rcases mem_perform found mem with ⟨before, _⟩ | same
    · exact ⟨other, before, rfl, rfl⟩
    · rw [same, settled]
      exact ⟨answer, (State.answer_mem found).1, sameLease, sameUser⟩
  · rw [perform_eq found, settled]
    simp only [leases]
    cases answer.lease with
    | none => exact List.Sublist.refl _
    | some own => exact deleteWhere_sublist.map owner
  · rw [perform_eq found, settled]
    exact nextLease
  · intro _ shows
    rw [perform_eq found, settled]
    apply settleAdmitted_shows now ending consistent.keys exist _ shows
    intro row mem own
    exact consistent.owned answer (State.answer_mem found).1 row.id row.userId (mem_map.mpr ⟨row, mem, rfl⟩) own

theorem Consistent.stored (store : Store)
  (rows : (store.leases.map owner).Sublist (state.store.leases.map owner))
  (nextLease : store.nextLease = state.store.nextLease)
  (shown : ∀ lease, Shows state.store.leases state.store.nextLease state.store.books.ledger lease (lifeOf lease past) ->
    Shows store.leases store.nextLease store.books.ledger lease
      (events.foldl (LeaseLife.after lease) (lifeOf lease past))) :
  Consistent (past ++ events) { state with store := store } :=
  consistent.keep (fun answer mem => .inr ⟨answer, mem, rfl, rfl⟩) rows nextLease shown

theorem Consistent.opened
  (found : state.answer answerId = some answer) (site : Credits.Site) (now : ℚ) (modelId : ℕ)
  (queueWaitMs : ℤ) (noLease : answer.lease = none) :
  Consistent (past ++ [.opened state.store.nextLease])
    (perform state answerId (start site now modelId queueWaitMs true)) := by
  have result : start site now modelId queueWaitMs true answer state.store =
      ({ answer with
          admitted := true
          modelId := some modelId
          lease := some state.store.nextLease },
        (openCompletion site now answer.userId answer.requestType answer.tokenId (some modelId) queueWaitMs
          state.store).1) := by
    rcases start_cases site now modelId queueWaitMs true answer state.store with ⟨refused, _⟩ | ⟨_, _, same⟩
    · exact absurd ⟨noLease, rfl⟩ refused
    · exact same
  have fresh : ∀ row ∈ state.store.leases, row.id < state.store.nextLease := by
    intro row mem
    have present : row.id ∈ state.store.leases.map CompletionLease.id := mem_map.mpr ⟨row, mem, rfl⟩
    rcases (consistent.shown row.id).running_of_mem present with ⟨_, _, running⟩
    have shows := consistent.shown row.id
    rw [running] at shows
    exact shows.1
  have store : (perform state answerId (start site now modelId queueWaitMs true)).store =
      (openCompletion site now answer.userId answer.requestType answer.tokenId (some modelId) queueWaitMs state.store).1 := by
    rw [perform_eq found, result]
  have members : ∀ other ∈ (perform state answerId (start site now modelId queueWaitMs true)).answers,
      other ∈ state.answers \/ (other.lease = some state.store.nextLease /\ other.userId = answer.userId) := by
    intro other mem
    rcases mem_perform found mem with ⟨before, _⟩ | same
    · exact .inl before
    · rw [same, result]
      exact .inr ⟨rfl, rfl⟩
  constructor
  · rw [store]
    simp only [openCompletion, map_append, map_singleton]
    apply consistent.keys.append (nodup_singleton _)
    intro _ before last
    rw [mem_singleton] at last
    rcases mem_map.mp before with ⟨row, mem, same⟩
    have older := fresh row mem
    omega
  · intro other mem lease held
    rw [store]
    change lease < state.store.nextLease + 1
    rcases members other mem with before | ⟨new, _⟩
    · exact lt_succ_of_lt (consistent.leased other before lease held)
    · rw [new, Option.some_inj] at held
      omega
  · intro other mem lease userId row held
    rw [store] at row
    simp only [openCompletion, map_append, map_singleton, mem_append, mem_singleton] at row
    rcases members other mem with before | ⟨new, sameUser⟩
    · rcases row with old | last
      · exact consistent.owned other before lease userId old held
      · have isNew : lease = state.store.nextLease := congrArg Prod.fst last
        have older := consistent.leased other before lease held
        omega
    · rw [new, Option.some_inj] at held
      rcases row with old | last
      · rcases mem_map.mp old with ⟨oldRow, oldMember, same⟩
        have older := fresh oldRow oldMember
        have isNew : oldRow.id = lease := congrArg Prod.fst same
        omega
      · exact (congrArg Prod.snd last).trans sameUser.symm
  · intro lease
    rw [store, lifeOf_append]
    exact (consistent.shown lease).open _ rfl ⟨rfl, rfl⟩

end

theorem Consistent.next {past : List LeaseEvent} {state : State} (consistent : Consistent past state)
  (limits : ℕ -> TokenLimits) (resets : ℕ -> Resets) (action : Action) (allowed : enabled state action) :
  Consistent (past ++ leaseEvents state action) (next limits resets state action) := by
  cases action with
  | create userId requestType tokenId =>
    apply consistent.keep
    · exact forall_mem_snoc (fun answer before => .inr ⟨answer, before, rfl, rfl⟩) (.inl rfl)
    · exact List.Sublist.refl _
    · rfl
    · exact fun _ shows => shows
  | authorize answerId site now model verdict estimate =>
    exact consistent.silent answerId (fun answer =>
      authorize_untouched site now (limits answer.userId) (resets answer.userId) model verdict estimate answer state.store)
  | start answerId site now modelId queueWaitMs recorded =>
    change Consistent (past ++ leaseEvents state _) (perform state answerId _)
    simp only [leaseEvents]
    cases found : state.answer answerId with
    | none =>
      rw [perform_of_none found, append_nil]
      exact consistent
    | some answer =>
      rcases start_cases site now modelId queueWaitMs recorded answer state.store with
        ⟨refused, same⟩ | ⟨noLease, isRecorded, _⟩
      · simp only [if_neg refused]
        apply consistent.untouched found
        rw [same]
        exact ⟨rfl, rfl, rfl, rfl, rfl, rfl⟩
      · subst isRecorded
        simp only [noLease, and_self, if_true]
        exact consistent.opened found site now modelId queueWaitMs noLease
  | settle answerId site now ending committed =>
    change Consistent (past ++ leaseEvents state _) (perform state answerId _)
    simp only [leaseEvents]
    cases found : state.answer answerId with
    | none =>
      rw [perform_of_none found, append_nil]
      exact consistent
    | some answer =>
      by_cases due : answer.unsettled /\ committed
      · rcases due with ⟨unsettled, rfl⟩
        simp only [unsettled, and_self, if_true]
        exact consistent.settled found now ending unsettled allowed.2
      · simp only [if_neg due]
        exact consistent.untouched found (settle_untouched due site now ending state.store)
  | release answerId committed =>
    exact consistent.silent answerId (release_untouched committed · state.store)
  | renewHold hold now | purgeHolds ttlSeconds now =>
    exact consistent.stored _ (List.Sublist.refl _) rfl (fun _ shows => shows)
  | checkpoint lease site now modelId tokensIn tokensOut =>
    apply consistent.stored
    · exact map_updateWhere_sublist owner (fun _ => rfl)
    · rfl
    · intro other shows
      exact shows.checkpoint lease tokensIn tokensOut _ (fun row => rfl)
  | abandon lease =>
    apply consistent.stored
    · exact map_updateWhere_sublist owner (fun _ => rfl)
    · rfl
    · intro _ shows
      exact shows.congr (map_updateWhere record fun row => rfl) rfl
  | recover site now rows =>
    rcases allowed with ⟨_, exist, recoverable⟩
    rcases recoverCompletions_shows now rows consistent.keys recoverable.stored recoverable.distinct exist with
      ⟨fewer, nextLease, shown⟩
    exact consistent.stored _ fewer nextLease (fun lease shows => shown lease _ shows)
  | chargeElsewhere site now request =>
    refine consistent.stored { state.store with books := (charge site now request state.store.books).1 }
      (List.Sublist.refl _) rfl ?_
    intro _ shows
    apply shows.congr rfl
    apply billsOf_charge_of_ne
    rw [allowed.2]
    exact fun same => by cases same
  | crash answers =>
    apply consistent.keep
    · intro answer mem
      exact .inr ⟨answer, (mem_deleteWhere.mp mem).1, rfl, rfl⟩
    · exact List.Sublist.refl _
    · rfl
    · exact fun _ shows => shows

theorem consistent_of_trace {limits : ℕ -> TokenLimits} {resets : ℕ -> Resets}
  (trace : (answerMachine limits resets).Trace leaseEvents past state) : Consistent past state := by
  apply trace.induct
  · intro start isInitial
    have empty : start = ⟨emptyStore, [], 0⟩ := isInitial
    subst empty
    constructor
    · exact nodup_nil
    · intro answer mem
      cases mem
    · intro _ mem
      cases mem
    · intro _
      exact ⟨zero_le _, not_mem_nil, rfl⟩
  · intro _ _ action consistent allowed
    exact consistent.next limits resets action allowed

theorem lifeOf_closed {lease : ℕ} {before after : List LeaseEvent} {event : LeaseEvent} {bills : List Bill}
  (closes : LeaseLife.after lease (lifeOf lease before) event = .closed bills) :
  lifeOf lease (before ++ event :: after) = .closed bills := by
  rw [lifeOf_append, foldl_cons, closes, foldl_after_closed]

/-- Every lease is charged at most once. -/
theorem completion_charged_once {limits : ℕ -> TokenLimits} {resets : ℕ -> Resets} {past : List LeaseEvent}
  {state : State} (trace : (answerMachine limits resets).Trace leaseEvents past state) (lease : ℕ) :
  (billsOf lease state.store.books.ledger).length <= 1 /\
    (∀ before after bill tokensIn tokensOut, past = before ++ LeaseEvent.settled lease bill :: after ->
      lifeOf lease before = .running tokensIn tokensOut ->
      billsOf lease state.store.books.ledger = bill.toList) /\
    (∀ before after tokensIn tokensOut, past = before ++ LeaseEvent.recovered lease :: after ->
      lifeOf lease before = .running tokensIn tokensOut ->
      billsOf lease state.store.books.ledger =
        if tokensIn = 0 /\ tokensOut = 0 then [] else [⟨tokensIn, tokensOut, true⟩]) /\
    ((∀ bills, lifeOf lease past ≠ .closed bills) -> billsOf lease state.store.books.ledger = []) /\
    (∀ bills, lifeOf lease past = .closed bills ->
      ∀ site now modelId tokensIn tokensOut,
        next limits resets state (.checkpoint lease site now modelId tokensIn tokensOut) = state) := by
  have shows := (consistent_of_trace trace).shown lease
  have closedBills : ∀ bills, lifeOf lease past = .closed bills ->
      lease ∉ state.store.leases.map CompletionLease.id /\ billsOf lease state.store.books.ledger = bills := by
    intro bills closed
    rw [closed] at shows
    exact shows.2
  have openBills : (∀ bills, lifeOf lease past ≠ .closed bills) -> billsOf lease state.store.books.ledger = [] := by
    intro notClosed
    cases life : lifeOf lease past with
    | unopened | running tokensIn tokensOut =>
      rw [life] at shows
      exact shows.2.2
    | closed bills => exact absurd life (notClosed bills)
  refine ⟨?_, ?_, ?_, openBills, ?_⟩
  · by_cases closed : ∃ bills, lifeOf lease past = .closed bills
    · rcases closed with ⟨bills, isClosed⟩
      rw [(closedBills bills isClosed).2]
      exact lifeOf_bills lease past bills isClosed
    · rw [openBills fun bills isClosed => closed ⟨bills, isClosed⟩]
      exact zero_le 1
  · intro before after bill tokensIn tokensOut split running
    apply (closedBills _ _).2
    rw [split]
    apply lifeOf_closed
    rw [running]
    exact if_pos rfl
  · intro before after tokensIn tokensOut split running
    apply (closedBills _ _).2
    rw [split]
    apply lifeOf_closed
    rw [running]
    exact if_pos rfl
  · intro bills closed site now modelId tokensIn tokensOut
    have absent := (closedBills bills closed).1
    have unselected : ∀ row ∈ state.store.leases, ¬ decide (row.id = lease) := by
      intro row mem selected
      exact absent (mem_map.mpr ⟨row, mem, of_decide_eq_true selected⟩)
    simp only [next, checkpointCompletion, updateWhere_eq_self unselected]

/-- An answer records its usage, its process crashes, and another process recovers
the lease. -/
theorem completion_charged_once_witness :
  ∃ past state,
    (answerMachine (fun _ => ⟨none, none⟩) fun _ => noResets).Trace leaseEvents past state /\
    past = [.opened 0, .checkpointed 0 5 7, .recovered 0] /\
    billsOf 0 state.store.books.ledger = [⟨5, 7, true⟩] := by
  let machine := answerMachine (fun _ => ⟨none, none⟩) (fun _ => noResets)
  let site : Credits.Site := ⟨[⟨1, false⟩], [], [], [], none, none⟩
  let row : CompletionLease := ⟨0, 1, none, .api, none, 5, 7, 0, 10, 20⟩
  have start : machine.Trace leaseEvents [] ⟨emptyStore, [], 0⟩ := .start rfl
  have started := (start.act (.create 1 .api none) trivial).act (.start 0 site 10 3 0 true) trivial
  have crashed := (started.act (.checkpoint 0 site 20 (some 3) 5 7) trivial).act (.crash [0]) trivial
  have recovered := crashed.act (.recover site 100 [row])
    ⟨by decide +kernel, by unfold AccountsExist; decide +kernel,
      ⟨by decide +kernel, by decide +kernel, by decide +kernel, by decide +kernel⟩⟩
  refine ⟨_, _, recovered, rfl, ?_⟩
  exact (completion_charged_once recovered 0).2.2.1 [.opened 0, .checkpointed 0 5 7] [] 5 7 rfl rfl

end BananaChat.Answers

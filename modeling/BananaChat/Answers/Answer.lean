import BananaChat.Runs.Completions

namespace BananaChat.Answers

open Foundation Credits Runs Rows

/-!
# API answers

One answer runs in one thread of one process: it is authorized (again for every fallback model),
opens its lease when a model starts, settles, and releases what it still holds.
-/

/-- What a `CompletionRun` keeps in memory. -/
structure Answer where
  id : ℕ
  userId : ℕ
  requestType : RequestType
  tokenId : Option ℕ
  modelId : Option ℕ
  admitted : Bool
  settled : Bool
  lease : Option ℕ
  hold : Option ℕ
  usage : ℤ × ℤ × Bool
  tokensCounted : ℚ
deriving DecidableEq

/-- What the checks other than the token allowance say of an attempt: access,
reasoning effort, the model's own limits and request rate. -/
inductive Verdict
  | barred
  | effortLocked
  | modelRefused
  | usable
deriving DecidableEq

def releaseHold (answer : Answer) (store : Store) : Answer × Store :=
  ({ answer with hold := none }, { store with reservations := refundReservation answer.hold store.reservations })

/-- The figures of `usage` for the API pool, in the windows open now. -/
def apiUsage (resets : Resets) (now : ℚ) (userId : ℕ) (store : Store) : ℚ × ℚ :=
  let counts := starts store.books.windows userId (.pool .api) resets now
  usage store.books.ledger store.reservations.rows userId .api counts.windowSince counts.weekSince

/-- `_take_hold`. -/
def holdAllowance (site : Credits.Site) (now : ℚ) (budget : Budget) (model : AiModel) (estimate : ℕ) (answer : Answer)
  (store : Store) : Answer × Store :=
  match takeHold budget (site.chargeTerms (some model.id)).1 estimate with
  | none => (answer, store)
  | some tokens =>
    let held := holdAnswer store.reservations answer.userId tokens (some model.id) answer.tokenId now
    ({ answer with hold := some held.2 }, { store with reservations := held.1 })

/-- `_authorize`, with the account's limits and the estimate of the prompt and
longest output. -/
def authorize (site : Credits.Site) (now : ℚ) (limits : TokenLimits) (resets : Resets) (model : AiModel) (verdict : Verdict)
  (estimate : ℕ) (answer : Answer) (store : Store) : Answer × Store :=
  let attempt := { answer with modelId := some model.id }
  match site.user answer.userId, verdict with
  | none, _ => (attempt, store)
  | some _, .barred => (attempt, store)
  | some user, verdict =>
    -- a fallback: the previous attempt's hold must not refuse it
    let released := releaseHold attempt store
    let allowance := budget user.admin limits (apiUsage resets now answer.userId released.2)
    let counted := site.countsTowardPool model
    if verdict ≠ .usable then released
    else if user.admin then holdAllowance site now adminBudget model estimate released.1 released.2
    else if counted /\ ¬ allowance.available then released
    else
      holdAllowance site now (if counted then allowance else adminBudget) model estimate released.1 released.2

/-- The `Started` event: the attempt is admitted, and its lease is opened unless
there is one.  `recorded` tells whether the row could be written. -/
def start (site : Credits.Site) (now : ℚ) (modelId : ℕ) (queueWaitMs : ℤ) (recorded : Bool) (answer : Answer) (store : Store) :
  Answer × Store :=
  let started := { answer with admitted := true, modelId := some modelId }
  match answer.lease, recorded with
  | some _, _ => (started, store)
  | none, false => (started, store)
  | none, true =>
    let opened := openCompletion site now answer.userId answer.requestType answer.tokenId (some modelId) queueWaitMs store
    ({ started with lease := some opened.2 }, opened.1)

/-- `inference.Finished`, as far as accounting reads it. -/
structure Finished where
  completed : Bool
  truncated : Bool
  promptTokens : ℤ
  completionTokens : ℤ
  usageEstimated : Bool
  durationMs : ℤ
  waitMs : ℤ

/-- How the generation ended: its last event, what an interrupted answer costs,
whether anything was produced, whether an answer without output has a cost. -/
structure Ending where
  finished : Option Finished
  interruptedUsage : ℤ × ℤ
  produced : Bool
  billable : Bool
  elapsedMs : ℤ

namespace Ending

def completed (ending : Ending) : Bool := ending.finished.any Finished.completed

def usage (ending : Ending) : ℤ × ℤ × Bool :=
  match ending.finished.filter Finished.completed with
  | some finished => (finished.promptTokens, finished.completionTokens, finished.usageEstimated)
  | none => (ending.interruptedUsage.1, ending.interruptedUsage.2, true)

def durationMs (ending : Ending) : ℤ :=
  match ending.finished with
  | some finished => finished.durationMs + finished.waitMs
  | none => ending.elapsedMs

def waitMs (ending : Ending) : ℤ :=
  match ending.finished with
  | some finished => finished.waitMs
  | none => 0

def status (ending : Ending) : MetricStatus :=
  if ending.completed || ending.finished.any Finished.truncated then .ok
  else if ending.produced then .stopped else .error

def free (ending : Ending) : Bool := !ending.completed && !ending.produced && !ending.billable

end Ending

def Answer.chargeRequest (answer : Answer) (ending : Ending) : ChargeRequest where
  userId := answer.userId
  tokensIn := ending.usage.1
  tokensOut := ending.usage.2.1
  requestType := answer.requestType
  modelId := answer.modelId
  tokenId := answer.tokenId
  usageEstimated := ending.usage.2.2
  origin := answer.lease

def Answer.metric (answer : Answer) (now : ℚ) (ending : Ending) (tokensIn tokensOut : ℤ) (usageEstimated : Bool)
  (status : MetricStatus) : RequestMetric where
  requestType := answer.requestType
  modelId := answer.modelId
  userId := some answer.userId
  tokensIn := tokensIn.toNat
  tokensOut := tokensOut.toNat
  durationMs := ending.durationMs.toNat
  queueWaitMs := ending.waitMs.toNat
  status := status
  createdAt := ⌊now⌋
  usageEstimated := usageEstimated

def chargeText (site : Credits.Site) (now : ℚ) (ending : Ending) (answer : Answer) (store : Store) : ℚ × Store :=
  let charged := charge site now (answer.chargeRequest ending) store.books
  (charged.2, { store with
      books := charged.1
      metrics := store.metrics ++
        [answer.metric now ending ending.usage.1 ending.usage.2.1 ending.usage.2.2 ending.status] })

/-- The lease part of a settlement: the leases, and whether the answer may be
charged (it has no lease, or its lease was still there). -/
def closeLease (lease : Option ℕ) (leases : List CompletionLease) : List CompletionLease × Bool :=
  match lease with
  | none => (leases, true)
  | some leaseId => closeCompletion leaseId leases

/-- Whether `_settle` has anything to do. -/
def Answer.unsettled (answer : Answer) : Bool := !answer.settled && answer.admitted && answer.modelId.isSome

section

variable (site : Credits.Site) (now : ℚ) (ending : Ending)

/-- The transaction of `_settle`. -/
def settleAdmitted (answer : Answer) (store : Store) : Answer × Store :=
  let released := releaseHold answer store
  let closed := closeLease answer.lease released.2.leases
  let store := { released.2 with leases := closed.1 }
  let answer := { released.1 with settled := true }
  if closed.2 = false then
    -- another process charged the lease's last record
    ({ answer with usage := (ending.usage.1, ending.usage.2.1, true) }, store)
  else if ending.free then
    ({ answer with usage := (0, 0, false) },
      { store with metrics := store.metrics ++ [answer.metric now ending 0 0 false .error] })
  else
    let charged := chargeText site now ending answer store
    ({ answer with usage := ending.usage, tokensCounted := charged.1 }, charged.2)

/-- `_settle`.  A transaction that fails has no effect on the tables, but the
hold is forgotten when it was released before the failure. -/
def settle (committed : Bool) (answer : Answer) (store : Store) :
  Answer × Store :=
  if answer.settled then (answer, store)
  else if answer.unsettled = false then ({ answer with settled := true }, store)
  else if committed then settleAdmitted site now ending answer store
  else ({ answer with hold := none }, store)

end

/-- `_release`: the hold is given back, or forgotten when that fails. -/
def release (committed : Bool) (answer : Answer) (store : Store) : Answer × Store :=
  if committed then releaseHold answer store else ({ answer with hold := none }, store)

structure State where
  store : Store
  answers : List Answer
  nextAnswer : ℕ

/-- The steps.  `chargeElsewhere` is any charge that is not of an API answer. -/
inductive Action
  | create (userId : ℕ) (requestType : RequestType) (tokenId : Option ℕ)
  | authorize (answer : ℕ) (site : Credits.Site) (now : ℚ) (model : AiModel) (verdict : Verdict) (estimate : ℕ)
  | start (answer : ℕ) (site : Credits.Site) (now : ℚ) (modelId : ℕ) (queueWaitMs : ℤ) (recorded : Bool)
  | settle (answer : ℕ) (site : Credits.Site) (now : ℚ) (ending : Ending) (committed : Bool)
  | release (answer : ℕ) (committed : Bool)
  | renewHold (hold : ℕ) (now : ℚ)
  | purgeHolds (ttlSeconds now : ℚ)
  | checkpoint (lease : ℕ) (site : Credits.Site) (now : ℚ) (modelId : Option ℕ) (tokensIn tokensOut : ℤ)
  | abandon (lease : ℕ)
  | recover (site : Credits.Site) (now : ℚ) (rows : List CompletionLease)
  | chargeElsewhere (site : Credits.Site) (now : ℚ) (request : ChargeRequest)
  | crash (answers : List ℕ)

def State.answer (state : State) (answerId : ℕ) : Option Answer := state.answers.find? (·.id = answerId)

def perform (state : State) (answerId : ℕ) (step : Answer -> Store -> Answer × Store) : State :=
  match state.answer answerId with
  | none => state
  | some answer =>
    let result := step answer state.store
    { state with
      store := result.2
      answers := updateWhere (·.id = answerId) (fun _ => result.1) state.answers }

def newAnswer (id userId : ℕ) (requestType : RequestType) (tokenId : Option ℕ) : Answer where
  id := id
  userId := userId
  requestType := requestType
  tokenId := tokenId
  modelId := none
  admitted := false
  settled := false
  lease := none
  hold := none
  usage := (0, 0, false)
  tokensCounted := 0

def next (limits : ℕ -> TokenLimits) (resets : ℕ -> Resets) (state : State) : Action -> State
  | .create userId requestType tokenId =>
    { state with
      answers := state.answers ++ [newAnswer state.nextAnswer userId requestType tokenId]
      nextAnswer := state.nextAnswer + 1 }
  | .authorize answerId site now model verdict estimate =>
    perform state answerId fun answer =>
      authorize site now (limits answer.userId) (resets answer.userId) model verdict estimate answer
  | .start answerId site now modelId queueWaitMs recorded =>
    perform state answerId (start site now modelId queueWaitMs recorded)
  | .settle answerId site now ending committed => perform state answerId (settle site now ending committed)
  | .release answerId committed => perform state answerId (release committed)
  | .renewHold hold now =>
    { state with store := { state.store with reservations := touchReservation hold now state.store.reservations } }
  | .purgeHolds ttlSeconds now =>
    { state with
      store := { state.store with reservations := purgeExpiredReservations ttlSeconds now state.store.reservations } }
  | .checkpoint lease site now modelId tokensIn tokensOut =>
    { state with store := (checkpointCompletion site now lease modelId tokensIn tokensOut state.store).1 }
  | .abandon lease => { state with store := expireCompletion lease state.store }
  | .recover site now rows => { state with store := recoverCompletions site now rows state.store }
  | .chargeElsewhere site now request =>
    { state with store := { state.store with books := (charge site now request state.store.books).1 } }
  | .crash answers => { state with answers := deleteWhere (·.id ∈ answers) state.answers }

/-- The accounts of the open leases exist: a lease references its account, and
is deleted with it. -/
def AccountsExist (site : Credits.Site) (store : Store) : Prop :=
  ∀ lease ∈ store.leases, (site.user lease.userId).isSome

/-- What the environment respects: clocks read dates, foreign keys hold, the
recovery query answers rows of the table, other charges are nobody's lease. -/
def enabled (state : State) : Action -> Prop
  | .settle _ site now _ _ => now < never /\ AccountsExist site state.store
  | .recover site now rows => now < never /\ AccountsExist site state.store /\ RecoverableRows now state.store.leases rows
  | .chargeElsewhere _ now request => now < never /\ request.origin = none
  | _ => True

def emptyStore : Store := ⟨[], 0, ⟨[], 0⟩, ⟨[], []⟩, []⟩

def answerMachine (limits : ℕ -> TokenLimits) (resets : ℕ -> Resets) : Machine State Action where
  initial := fun state => state = ⟨emptyStore, [], 0⟩
  enabled := enabled
  next := next limits resets

variable {answerId : ℕ} {state : State}

variable {answer : Answer}

theorem perform_eq (found : state.answer answerId = some answer) (step : Answer -> Store -> Answer × Store) :
  perform state answerId step = { state with
      store := (step answer state.store).2
      answers := updateWhere (·.id = answerId)
        (fun _ => (step answer state.store).1) state.answers } := by
  unfold perform
  rw [found]

theorem perform_of_none (absent : state.answer answerId = none) (step : Answer -> Store -> Answer × Store) :
  perform state answerId step = state := by
  unfold perform
  rw [absent]

theorem State.answer_mem (found : state.answer answerId = some answer) :
    answer ∈ state.answers /\ answer.id = answerId := of_find_key found

theorem mem_perform (found : state.answer answerId = some answer)
  {step : Answer -> Store -> Answer × Store} {other : Answer} (mem : other ∈ (perform state answerId step).answers) :
  (other ∈ state.answers /\ other.id ≠ answerId) \/ other = (step answer state.store).1 := by
  rw [perform_eq found] at mem
  rcases mem_updateWhere.mp mem with ⟨before, still⟩ | ⟨_, _, _, same⟩
  · exact .inl ⟨before, by simpa using still⟩
  · exact .inr same.symm

structure Untouched (before after : Answer × Store) : Prop where
  id : after.1.id = before.1.id
  userId : after.1.userId = before.1.userId
  lease : after.1.lease = before.1.lease
  leases : after.2.leases = before.2.leases
  nextLease : after.2.nextLease = before.2.nextLease
  books : after.2.books = before.2.books

theorem releaseHold_untouched (answer : Answer) (store : Store) : Untouched (answer, store) (releaseHold answer store) :=
  ⟨rfl, rfl, rfl, rfl, rfl, rfl⟩

theorem holdAllowance_untouched (site : Credits.Site) (now : ℚ) (budget : Budget) (model : AiModel) (estimate : ℕ) (answer : Answer)
  (store : Store) : Untouched (answer, store) (holdAllowance site now budget model estimate answer store) := by
  unfold holdAllowance
  cases takeHold budget (site.chargeTerms (some model.id)).1 estimate with
  | none | some tokens => exact ⟨rfl, rfl, rfl, rfl, rfl, rfl⟩

theorem release_untouched (committed : Bool) (answer : Answer) (store : Store) :
  Untouched (answer, store) (release committed answer store) := by
  unfold release
  split
  · exact releaseHold_untouched answer store
  · exact ⟨rfl, rfl, rfl, rfl, rfl, rfl⟩

/-- An authorization stops before its transaction, releases the earlier hold, or
also takes a new one from a budget that no limit bounds or that was read after
the release. -/
theorem authorize_cases (site : Credits.Site) (now : ℚ) (limits : TokenLimits) (resets : Resets) (model : AiModel)
  (verdict : Verdict) (estimate : ℕ) (answer : Answer) (store : Store) :
  let attempt := { answer with modelId := some model.id }
  let released := releaseHold attempt store
  let result := authorize site now limits resets model verdict estimate answer store
  result = (attempt, store) \/ result = released \/
    ∃ allowance, result = holdAllowance site now allowance model estimate released.1 released.2 /\
      (allowance = adminBudget \/
        ∃ admin, allowance = budget admin limits (apiUsage resets now answer.userId released.2)) := by
  intro attempt released result
  cases found : site.user answer.userId with
  | none =>
    left
    simp [result, authorize, found, attempt]
  | some user =>
    by_cases barred : verdict = .barred
    · left
      subst barred
      simp [result, authorize, found, attempt]
    · right
      have opened : result =
          if verdict ≠ .usable then released
          else if user.admin then holdAllowance site now adminBudget model estimate released.1 released.2
          else if site.countsTowardPool model /\
              ¬ (budget user.admin limits (apiUsage resets now answer.userId released.2)).available then released
          else
            holdAllowance site now
              (if site.countsTowardPool model then budget user.admin limits (apiUsage resets now answer.userId released.2)
              else adminBudget) model estimate released.1 released.2 := by
        cases verdict with
        | barred => exact absurd rfl barred
        | effortLocked | modelRefused | usable => simp only [result, authorize, found, released, attempt]
      rw [opened]
      split
      · exact .inl rfl
      · split
        · exact .inr ⟨adminBudget, rfl, .inl rfl⟩
        · split
          · exact .inl rfl
          · refine .inr ⟨_, rfl, ?_⟩
            split
            · exact .inr ⟨user.admin, rfl⟩
            · exact .inl rfl

theorem authorize_untouched (site : Credits.Site) (now : ℚ) (limits : TokenLimits) (resets : Resets) (model : AiModel)
  (verdict : Verdict) (estimate : ℕ) (answer : Answer) (store : Store) :
  Untouched (answer, store) (authorize site now limits resets model verdict estimate answer store) := by
  have released : Untouched (answer, store) (releaseHold { answer with modelId := some model.id } store) :=
    ⟨rfl, rfl, rfl, rfl, rfl, rfl⟩
  rcases authorize_cases site now limits resets model verdict estimate answer store with
    same | same | ⟨allowance, same, _⟩
  · rw [same]
    exact ⟨rfl, rfl, rfl, rfl, rfl, rfl⟩
  · rw [same]
    exact released
  · rw [same]
    rcases holdAllowance_untouched site now allowance model estimate
      (releaseHold { answer with modelId := some model.id } store).1
      (releaseHold { answer with modelId := some model.id } store).2 with ⟨id, userId, lease, leases, nextLease, books⟩
    exact ⟨id.trans released.id, userId.trans released.userId, lease.trans released.lease,
      leases.trans released.leases, nextLease.trans released.nextLease, books.trans released.books⟩

theorem settle_untouched {committed : Bool} (idle : ¬ (answer.unsettled /\ committed))
  (site : Credits.Site) (now : ℚ) (ending : Ending) (store : Store) :
  Untouched (answer, store) (settle site now ending committed answer store) := by
  unfold settle
  by_cases settled : answer.settled
  · rw [if_pos settled]
    exact ⟨rfl, rfl, rfl, rfl, rfl, rfl⟩
  · rw [if_neg settled]
    by_cases unsettled : answer.unsettled
    · have failed : ¬ committed := fun commits => idle ⟨unsettled, commits⟩
      rw [if_neg (by simp [unsettled]), if_neg failed]
      exact ⟨rfl, rfl, rfl, rfl, rfl, rfl⟩
    · rw [if_pos (Bool.eq_false_of_not_eq_true unsettled)]
      exact ⟨rfl, rfl, rfl, rfl, rfl, rfl⟩

theorem settle_admitted (unsettled : answer.unsettled) (site : Credits.Site) (now : ℚ) (ending : Ending)
  (store : Store) : settle site now ending true answer store = settleAdmitted site now ending answer store := by
  have notSettled : ¬ answer.settled := by
    intro settled
    rw [Answer.unsettled, settled] at unsettled
    cases unsettled
  unfold settle
  rw [if_neg notSettled, if_neg (by simp [unsettled]), if_pos rfl]

section

variable (site : Credits.Site) (now : ℚ)
include site now

theorem settleAdmitted_answer (ending : Ending) (answer : Answer) (store : Store) :
  let after := (settleAdmitted site now ending answer store).1
  after.id = answer.id /\ after.userId = answer.userId /\ after.lease = answer.lease /\ after.hold = none := by
  unfold settleAdmitted
  simp only [releaseHold]
  by_cases lost : (closeLease answer.lease store.leases).2 = false
  · simp [lost]
  · by_cases free : ending.free
    · simp [lost, free]
    · simp [lost, free, chargeText]

theorem settleAdmitted_tables (ending : Ending) (answer : Answer) (store : Store) :
  let after := (settleAdmitted site now ending answer store).2
  after.leases = (closeLease answer.lease store.leases).1 /\ after.nextLease = store.nextLease /\
    after.reservations = refundReservation answer.hold store.reservations /\
    after.books = if (closeLease answer.lease store.leases).2 = false \/ ending.free then store.books
      else (charge site now (answer.chargeRequest ending) store.books).1 := by
  unfold settleAdmitted
  simp only [releaseHold]
  by_cases lost : (closeLease answer.lease store.leases).2 = false
  · simp [lost]
  · have open' := Bool.eq_true_of_not_eq_false lost
    by_cases free : ending.free
    · simp only [open', free, Bool.true_eq_false, if_false, if_true, or_true, and_self]
    · simp only [open', free, Bool.true_eq_false, Bool.false_eq_true, if_false, or_self, chargeText]
      exact ⟨trivial, trivial, trivial, rfl⟩

/-- The `Started` event opens a lease for an answer without one, or only admits
the answer. -/
theorem start_cases (modelId : ℕ) (queueWaitMs : ℤ) (recorded : Bool) (answer : Answer)
  (store : Store) :
  let result := start site now modelId queueWaitMs recorded answer store
  let opened := openCompletion site now answer.userId answer.requestType answer.tokenId (some modelId) queueWaitMs store
  (¬ (answer.lease = none /\ recorded) /\
      result = ({ answer with admitted := true, modelId := some modelId }, store)) \/
    (answer.lease = none /\ recorded /\
      result = ({ answer with admitted := true, modelId := some modelId, lease := some opened.2 }, opened.1)) := by
  cases held : answer.lease with
  | some lease =>
    left
    simp [start, held]
  | none =>
    cases recorded with
    | false =>
      left
      simp [start, held]
    | true =>
      right
      simp [start, held]

end

end BananaChat.Answers

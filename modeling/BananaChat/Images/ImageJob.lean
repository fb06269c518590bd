import BananaChat.Answers.HeldAllowance

namespace BananaChat.Images

open Foundation Limits Credits Runs

/-!
# Image requests

An image costs a fixed number of tokens, weighted by its model.
-/

def pngStart : List UInt8 := [0x89, 0x50, 0x4e, 0x47, 0x0d, 0x0a, 0x1a, 0x0a]

def jpegStart : List UInt8 := [0xff, 0xd8, 0xff]

def riffMark : List UInt8 := [0x52, 0x49, 0x46, 0x46]

def webpMark : List UInt8 := [0x57, 0x45, 0x42, 0x50]

inductive MimeType
  | png
  | jpeg
  | webp

def detectMime (data : List UInt8) : Option MimeType :=
  if pngStart.isPrefixOf data then some .png
  else if jpegStart.isPrefixOf data then some .jpeg
  else if data.take 4 = riffMark /\ (data.drop 8).take 4 = webpMark then some .webp
  else none

/-- Where `_run` stands. -/
inductive Phase
  | created
  | admitted
  | running
  | validated
  | charged
  | failing
  | refunded
  | ended
  | dead
deriving DecidableEq

/-- What an `ImageJob` keeps in memory.  `admin` is the role its account had
when the request came in. -/
structure ImageJob where
  id : ℕ
  userId : ℕ
  admin : Bool
  tokenId : Option ℕ
  modelId : ℕ
  cost : ℕ
  counted : Bool
  phase : Phase
  reservation : Option ℕ

def weeklyExhausted (budget : Budget) : Bool :=
  !budget.unlimited && budget.weeklyLimit.isSome && (budget.weeklyLeft <= 0)

section

variable (site : Credits.Site)

/-- Whether the rows a request names exist: the foreign keys of a reservation
and of a charge. -/
def ImageJob.referenced (job : ImageJob) : Bool :=
  (site.user job.userId).isSome && (site.model job.modelId).isSome && job.tokenId.all (· ∈ site.apiTokens)

/-- How `reserve_image` ends: with the reservation, if one is needed, with
`InsufficientCredits`, or with a database error. -/
inductive Reserved
  | reserved (reservation : Option ℕ)
  | insufficientCredits (weekly : Bool)
  | failed

/-- `reserve_image`.  An error rolls its transaction back, and the purge with it. -/
def reserveImage (now ttlSeconds : ℚ) (limits : TokenLimits) (resets : Resets) (tokens : ℚ)
  (job : ImageJob) (store : Store) : Store × Reserved :=
  if tokens <= 0 \/ job.counted = false then (store, .reserved none)
  else
    let purged := { store with reservations := purgeExpiredReservations ttlSeconds now store.reservations }
    if job.admin then (purged, .reserved none)
    else
      let current := budget job.admin limits (Answers.apiUsage resets now job.userId purged)
      if current.regularLeft < tokens then
        (store, .insufficientCredits (weeklyExhausted current || (current.weeklyLeft < tokens)))
      else if job.referenced site = false then (store, .failed)
      else
        let held := holdAnswer purged.reservations job.userId tokens (some job.modelId) job.tokenId now
        let opened := openWindows purged.books.windows job.userId [.pool .api] ⌊now⌋
        ({ purged with reservations := held.1, books := { purged.books with windows := opened } },
          .reserved (some held.2))

def ImageJob.ledgerRow (job : ImageJob) (creditsUsed : ℚ) (stamp : ℤ) : LedgerRow where
  userId := job.userId
  tokenId := job.tokenId
  modelId := some job.modelId
  creditsUsed := creditsUsed
  tokensIn := 0
  tokensOut := job.cost
  requestType := .api
  createdAt := stamp
  usageEstimated := false
  consumesLimits := true
  origin := none

def ImageJob.row (job : ImageJob) (store : Store) : Option Reservation :=
  job.reservation.bind fun id => store.reservations.rows.find? (·.id = id)

/-- The credits `finalize_reservation` charges: what was reserved, or the cost
again when the reservation is gone. -/
def ImageJob.creditsDue (job : ImageJob) (store : Store) : ℚ :=
  match job.row store with
  | some row => row.creditsReserved
  | none => if job.counted then tokensToCredits (job.cost * (site.chargeTerms (some job.modelId)).1) else 0

def finalizeReservation (now : ℚ) (job : ImageJob) (store : Store) : Store :=
  let scopes := (if job.counted then [Scope.pool .api] else []) ++ [Scope.model job.modelId]
  { store with
    reservations := refundReservation ((job.row store).map Reservation.id) store.reservations
    books :=
      { ledger := store.books.ledger ++ [job.ledgerRow (job.creditsDue site store) ⌊now⌋]
        windows := openWindows store.books.windows job.userId scopes ⌊now⌋ } }

end

/-- A row of `request_metrics` with the request type `image`. -/
structure ImageMetric where
  modelId : ℕ
  userId : ℕ
  tokensOut : ℕ
  durationMs : ℕ
  queueWaitMs : ℕ
  status : MetricStatus
  createdAt : ℤ

def ImageJob.metric (job : ImageJob) (now : ℚ) (tokensOut : ℕ) (durationMs queueWaitMs : ℤ) (status : MetricStatus) :
  ImageMetric where
  modelId := job.modelId
  userId := job.userId
  tokensOut := tokensOut
  durationMs := durationMs.toNat
  queueWaitMs := queueWaitMs.toNat
  status := status
  createdAt := ⌊now⌋

/-- The tables with the text answers that live processes run, and the image
requests. -/
structure State where
  desk : Answers.State
  images : List ImageJob
  nextImage : ℕ
  imageMetrics : List ImageMetric

/-- A step of one image request.  `failure` is whatever ends the generation: an
error, a timeout, a cancellation, a reader that closes the generator. -/
inductive ImageStep
  | admission (counted : Option Bool) (allowed : Bool)
  | reserve (site : Credits.Site) (now ttlSeconds : ℚ)
  | heartbeat (now : ℚ)
  | generated (data : List UInt8)
  | failure
  | charge (site : Credits.Site) (now : ℚ) (durationMs queueWaitMs : ℤ) (committed : Bool)
  | refund (committed : Bool)
  | recordFailure (now : ℚ) (durationMs queueWaitMs : ℤ) (recorded : Bool)

/-- The steps: those of the answers, among them the purge job, those of an image
request, a new request, and the end of the process of some requests. -/
inductive Action
  | answers (action : Answers.Action)
  | create (userId : ℕ) (admin : Bool) (tokenId : Option ℕ) (modelId cost : ℕ)
  | image (image : ℕ) (step : ImageStep)
  | crash (images : List ℕ)

def State.store (state : State) : Store := state.desk.store

def State.withStore (state : State) (store : Store) : State := { state with desk := { state.desk with store := store } }

def State.image (state : State) (imageId : ℕ) : Option ImageJob := state.images.find? (·.id = imageId)

structure Result where
  job : ImageJob
  store : Store
  metrics : List ImageMetric

/-- `_check_rate` and `_admit`: `counted` is what the model's limits say, if the
account has any. -/
def ImageJob.admission (counted : Option Bool) (allowed : Bool) (job : ImageJob) : ImageJob :=
  if job.phase = .created then
    { job with counted := counted.getD job.counted, phase := if allowed then .admitted else .ended }
  else job

section

variable (limits : ℕ -> TokenLimits) (resets : ℕ -> Resets)

def ImageJob.reserve (site : Credits.Site) (now ttlSeconds : ℚ) (job : ImageJob)
  (store : Store) : ImageJob × Store :=
  if job.phase = .admitted then
    let charge := job.cost * (site.chargeTerms (some job.modelId)).1
    let result := reserveImage site now ttlSeconds (limits job.userId) (resets job.userId) charge job store
    match result.2 with
    | .reserved reservation => ({ job with phase := .running, reservation := reservation }, result.1)
    | .insufficientCredits _ => ({ job with phase := .ended }, result.1)
    | .failed => ({ job with phase := .ended }, result.1)
  else (job, store)

def ImageJob.heartbeat (now : ℚ) (job : ImageJob) (store : Store) : Store :=
  match job.reservation with
  | none => store
  | some reservation =>
    if job.phase = .dead then store
    else { store with reservations := touchReservation reservation now store.reservations }

/-- The end of `_generate`, and the check of what it returned. -/
def ImageJob.generated (data : List UInt8) (job : ImageJob) : ImageJob :=
  if job.phase = .running then { job with phase := if (detectMime data).isSome then .validated else .failing } else job

def ImageJob.failure (job : ImageJob) : ImageJob :=
  match job.phase with
  | .created | .admitted => { job with phase := .ended }
  | .running | .validated => { job with phase := .failing }
  | .charged | .failing | .refunded | .ended | .dead => job

/-- `charge_image`, when its transaction can commit. -/
def ImageJob.chargeImage (site : Credits.Site) (now : ℚ) (durationMs queueWaitMs : ℤ) (committed : Bool) (job : ImageJob)
  (store : Store) (metrics : List ImageMetric) : Result :=
  if job.phase = .validated then
    if committed && job.referenced site then
      { job := { job with phase := .charged }
        store := finalizeReservation site now job store
        metrics := metrics ++ [job.metric now job.cost durationMs queueWaitMs .ok] }
    else ⟨{ job with phase := .failing }, store, metrics⟩
  else ⟨job, store, metrics⟩

/-- The `finally` of a request that was not charged: a refund that fails leaves
the reservation to expire. -/
def ImageJob.refund (committed : Bool) (job : ImageJob) (store : Store) : ImageJob × Store :=
  if job.phase = .failing then
    ({ job with phase := .refunded },
      if committed then { store with reservations := refundReservation job.reservation store.reservations } else store)
  else (job, store)

/-- `_record_failure`, which may fail silently. -/
def ImageJob.recordFailure (now : ℚ) (durationMs queueWaitMs : ℤ) (recorded : Bool) (job : ImageJob)
  (metrics : List ImageMetric) : ImageJob × List ImageMetric :=
  if job.phase = .refunded then
    ({ job with phase := .ended },
      if recorded then metrics ++ [job.metric now 0 durationMs queueWaitMs .error] else metrics)
  else (job, metrics)

def ImageStep.apply (job : ImageJob) (store : Store)
    (metrics : List ImageMetric) : ImageStep -> Result
  | .admission counted allowed => ⟨job.admission counted allowed, store, metrics⟩
  | .reserve site now ttlSeconds =>
    let result := job.reserve limits resets site now ttlSeconds store
    ⟨result.1, result.2, metrics⟩
  | .heartbeat now => ⟨job, job.heartbeat now store, metrics⟩
  | .generated data => ⟨job.generated data, store, metrics⟩
  | .failure => ⟨job.failure, store, metrics⟩
  | .charge site now durationMs queueWaitMs committed =>
    job.chargeImage site now durationMs queueWaitMs committed store metrics
  | .refund committed =>
    let result := job.refund committed store
    ⟨result.1, result.2, metrics⟩
  | .recordFailure now durationMs queueWaitMs recorded =>
    let result := job.recordFailure now durationMs queueWaitMs recorded metrics
    ⟨result.1, store, result.2⟩

end

def newImage (id userId : ℕ) (admin : Bool) (tokenId : Option ℕ) (modelId cost : ℕ) : ImageJob where
  id := id
  userId := userId
  admin := admin
  tokenId := tokenId
  modelId := modelId
  cost := cost
  counted := true
  phase := .created
  reservation := none

def next (limits : ℕ -> TokenLimits) (resets : ℕ -> Resets) (state : State) : Action -> State
  | .answers action => { state with desk := Answers.next limits resets state.desk action }
  | .create userId admin tokenId modelId cost =>
    { state with
      images := state.images ++ [newImage state.nextImage userId admin tokenId modelId cost]
      nextImage := state.nextImage + 1 }
  | .image imageId step =>
    match state.image imageId with
    | none => state
    | some job =>
      let result := step.apply limits resets job state.store state.imageMetrics
      { state.withStore result.store with
        images := Rows.updateWhere (·.id = imageId) (fun _ => result.job) state.images
        imageMetrics := result.metrics }
  | .crash images =>
    { state with
      images := Rows.updateWhere (·.id ∈ images) (fun job => { job with phase := .dead })
        state.images }

def emptyState : State := ⟨⟨Answers.emptyStore, [], 0⟩, [], 0, []⟩

section

variable (limits : ℕ -> TokenLimits) (resets : ℕ -> Resets)

def imageMachine : Machine State Action where
  initial := fun state => state = emptyState
  enabled := fun _ _ => True
  next := next limits resets

inductive Holder
  | image (image : ℕ)
  | answer (answer : ℕ)
deriving DecidableEq

def Action.holder : Action -> Option Holder
  | .answers (.authorize answer _ _ _ _ _) => some (.answer answer)
  | .answers (.settle answer _ _ _ _) => some (.answer answer)
  | .answers (.release answer _) => some (.answer answer)
  | .image imageId _ => some (.image imageId)
  | _ => none

def Action.purges : Action -> Option (ℚ × ℚ)
  | .answers (.purgeHolds ttlSeconds now) => some (ttlSeconds, now)
  | .image _ (.reserve _ now ttlSeconds) => some (ttlSeconds, now)
  | _ => none

inductive Event
  | taken (reservation : ℕ) (holder : Holder) (credits : ℚ)
  | validated (image : ℕ)
  | charged (image : ℕ) (row : LedgerRow)
  | broken (image : ℕ)
deriving DecidableEq

def takenEvents (before after : Store) (holder : Option Holder) : List Event :=
  holder.toList.flatMap fun holder =>
    (after.reservations.rows.filter
        (fun row => row.id ∉ before.reservations.rows.map Reservation.id)).map
      (fun row => .taken row.id holder row.creditsReserved)

def State.phase (state : State) (imageId : ℕ) : Option Phase := (state.image imageId).map ImageJob.phase

/-- What a step makes known of one image: it proved to be an image, or a request
with such an image ended before it was charged. -/
def phaseEvents (imageId : ℕ) (before after : Option Phase) : List Event :=
  if before ≠ some .validated /\ after = some .validated then [.validated imageId]
  else if before = some .validated /\ after ≠ some .validated /\ after ≠ some .charged then [.broken imageId]
  else []

def Action.images : Action -> List ℕ
  | .image imageId _ => [imageId]
  | .crash images => images.dedup
  | _ => []

def chargedEvents (before after : Store) (action : Action) : List Event :=
  action.images.flatMap fun image =>
    (after.books.ledger.drop before.books.ledger.length).map (.charged image ·)

def events (state : State) (action : Action) : List Event :=
  let after := next limits resets state action
  takenEvents state.store after.store action.holder ++
    (action.images.flatMap (fun image => phaseEvents image (state.phase image) (after.phase image)) ++
      chargedEvents state.store after.store action)

end

def chargesOf (past : List Event) (image : ℕ) : List LedgerRow :=
  past.filterMap fun event =>
    match event with
    | .charged other row => if other = image then some row else none
    | _ => none

end BananaChat.Images

import Mathlib.Data.List.Dedup
import BananaChat.Images.ImageJob

namespace BananaChat.Images

open Foundation Credits Runs List Rows Nat Answers ImageStep Event

/-!
# Images are charged once or not at all

A reservation's number is never used twice, so the number a request or an answer remembers names its
own row or none.
-/

def ids (reservations : Reservations) : List ℕ := reservations.rows.map Reservation.id

/-- Rows keep their amounts and vanish only where `gone` allows it; a row that
appears has the next id. -/
structure Moved (before after : Reservations) (gone : Reservation -> Prop) (takes : Prop) : Prop where
  grows : before.nextId <= after.nextId
  appears : ∀ row ∈ after.rows,
    (∃ old ∈ before.rows, old.id = row.id /\ old.creditsReserved = row.creditsReserved) \/
      (takes /\ row.id = before.nextId /\ before.nextId < after.nextId)
  vanishes : ∀ row ∈ before.rows, row.id ∉ ids after -> gone row
  keys : (ids before).Nodup -> (∀ id ∈ ids before, id < before.nextId) -> (ids after).Nodup

namespace Moved

variable {before after : Reservations} {gone : Reservation -> Prop} {takes : Prop}

theorem same (before : Reservations) (gone : Reservation -> Prop) (takes : Prop) : Moved before before gone takes where
  grows := le_refl _
  appears := fun row mem => .inl ⟨row, mem, rfl, rfl⟩
  vanishes := fun _ mem absent => absurd (mem_map_of_mem mem) absent
  keys := fun distinct _ => distinct

theorem refund (before : Reservations) (reservation : Option ℕ) (takes : Prop) :
  Moved before (refundReservation reservation before) (reservation = some ·.id) takes where
  grows := (nextId_refund reservation before).ge
  appears := fun row mem => .inl ⟨row, (mem_rows_refund.mp mem).1, rfl, rfl⟩
  vanishes := fun _ mem absent => refunded_of_gone (mem_map_of_mem mem) absent
  keys := fun distinct _ => distinct.sublist (ids_refund_sublist reservation before)

theorem touch (before : Reservations) (reservation : ℕ) (now : ℚ) (gone : Reservation -> Prop) (takes : Prop) :
  Moved before (touchReservation reservation now before) gone takes := by
  have sameIds : ids (touchReservation reservation now before) = ids before :=
    map_updateWhere Reservation.id (fun _ => rfl)
  constructor
  · exact le_refl _
  · intro row mem
    rcases mem_updateWhere.mp mem with ⟨old, _⟩ | ⟨old, oldIn, _, rfl⟩
    · exact .inl ⟨row, old, rfl, rfl⟩
    · exact .inl ⟨old, oldIn, rfl, rfl⟩
  · intro _ mem absent
    rw [sameIds] at absent
    exact absurd (mem_map_of_mem mem) absent
  · intro distinct _
    rw [sameIds]
    exact distinct

theorem purge (before : Reservations) (ttlSeconds now : ℚ) (takes : Prop) :
  Moved before (purgeExpiredReservations ttlSeconds now before)
    (Reservation.expired ttlSeconds now · = true) takes := by
  constructor
  · exact le_refl _
  · intro row mem
    exact .inl ⟨row, (mem_deleteWhere.mp mem).1, rfl, rfl⟩
  · intro _ mem absent
    by_contra fresh
    exact absent (mem_map_of_mem (mem_deleteWhere.mpr ⟨mem, fresh⟩))
  · intro distinct _
    exact distinct.sublist (deleteWhere_sublist.map Reservation.id)

theorem hold (moved : Moved before after gone takes) (sameId : after.nextId = before.nextId) (allowed : takes) (userId : ℕ)
  (tokens : ℚ) (modelId tokenId : Option ℕ) (now : ℚ) :
  Moved before (holdAnswer after userId tokens modelId tokenId now).1 gone takes := by
  have ids' : ids (holdAnswer after userId tokens modelId tokenId now).1 = ids after ++ [before.nextId] := by
    simp [ids, holdAnswer, sameId]
  constructor
  · simp only [holdAnswer, sameId]
    omega
  · intro row mem
    rcases mem_snoc.mp mem with old | new
    · rcases moved.appears row old with known | ⟨_, _, grown⟩
      · exact .inl known
      · omega
    · rw [new]
      refine .inr ⟨allowed, sameId, ?_⟩
      simp only [holdAnswer, sameId]
      omega
  · intro row mem absent
    rw [ids', mem_append, not_or] at absent
    exact moved.vanishes row mem absent.1
  · intro distinct below
    rw [ids']
    apply (moved.keys distinct below).append (nodup_singleton _)
    intro _ present last
    rw [mem_singleton] at last
    rcases mem_map.mp present with ⟨row, mem, rfl⟩
    rcases moved.appears row mem with ⟨old, oldIn, _, _⟩ | ⟨_, _, _⟩
    · have older := below old.id (mem_map_of_mem oldIn)
      omega
    · omega

theorem weaken (moved : Moved before after gone takes) {other : Reservation -> Prop} {otherTakes : Prop}
  (covered : ∀ row, gone row -> other row) (taking : takes -> otherTakes) : Moved before after other otherTakes where
  grows := moved.grows
  appears := fun row mem => (moved.appears row mem).imp_right (fun new => ⟨taking new.1, new.2⟩)
  vanishes := fun row mem absent => covered row (moved.vanishes row mem absent)
  keys := moved.keys

end Moved

def Remembers (state : State) (reservation : ℕ) : Holder -> Prop
  | .image image => ∃ job ∈ state.images, job.id = image /\ job.reservation = some reservation
  | .answer answer => ∃ known ∈ state.desk.answers, known.id = answer /\ known.hold = some reservation

/-- What a step may remove: the reservation its request or answer remembers, and
what the step expires. -/
def MayRemove (state : State) (action : Action) (row : Reservation) : Prop :=
  (∃ holder, action.holder = some holder /\ Remembers state row.id holder) \/
    ∃ purges, action.purges = some purges /\ Reservation.expired purges.1 purges.2 row

structure StepMoves (state after : State) (action : Action) : Prop where
  table : Moved state.store.reservations after.store.reservations (MayRemove state action) (action.holder.isSome)
  remembered : ∀ reservation holder, Remembers after reservation holder -> Remembers state reservation holder \/
    (action.holder = some holder /\ reservation = state.store.reservations.nextId /\
      reservation ∈ ids after.store.reservations)

variable {state : State} {job : ImageJob} {past : List Event}

theorem StepMoves.quiet {after : State} {action : Action} (table : after.store.reservations = state.store.reservations)
  (remembered : ∀ reservation holder, Remembers after reservation holder -> Remembers state reservation holder) :
  StepMoves state after action where
  table := by
    rw [table]
    exact Moved.same _ _ _
  remembered := fun reservation holder remembers => .inl (remembered reservation holder remembers)

theorem stepMoves_perform (state : State) (party : Party) {answerId : ℕ}
  {step : Answer -> Store -> Answer × Store} {action : Action} (holder : action.holder = some (.answer answerId))
  (sameId : ∀ answer, (step answer state.store).1.id = answer.id)
  (effect : ∀ answer, answer.id = answerId -> HoldEffect party answer state.store (step answer state.store)) :
  StepMoves state { state with desk := perform state.desk answerId step } action := by
  cases found : state.desk.answer answerId with
  | none =>
    rw [perform_of_none found]
    exact .quiet rfl (fun _ _ remembers => remembers)
  | some answer =>
    rcases State.answer_mem found with ⟨mem, rfl⟩
    have store : ({ state with desk := perform state.desk answer.id step } : State).store =
        (step answer state.store).2 := by
      simp [State.store, perform_eq found]
    -- an answer after the step is one that did not move, or the result
    have others : ∀ reservation holder,
        Remembers { state with desk := perform state.desk answer.id step } reservation holder ->
        Remembers state reservation holder \/
          (holder = .answer answer.id /\ (step answer state.store).1.hold = some reservation) := by
      intro reservation other remembers
      cases other with
      | image image => exact .inl remembers
      | answer otherId =>
        rcases remembers with ⟨known, knownMember, rfl, holds⟩
        rcases mem_perform found knownMember with ⟨before, _⟩ | moved
        · exact .inl ⟨known, before, rfl, holds⟩
        · rw [moved] at holds
          exact .inr ⟨congrArg Holder.answer (moved ▸ sameId answer), holds⟩
    have own : ∀ reservation, answer.hold = some reservation -> Remembers state reservation (.answer answer.id) :=
      fun reservation holds => ⟨answer, mem, rfl, holds⟩
    have allowed : ∀ row : Reservation, answer.hold = some row.id -> MayRemove state action row :=
      fun row holds => .inl ⟨_, holder, own row.id holds⟩
    have isHolder : action.holder.isSome := by
      rw [holder]
      rfl
    constructor
    · rw [store]
      cases effect answer rfl with
      | same hold table | forgotten hold table =>
        rw [table]
        exact Moved.same _ _ _
      | released hold table =>
        rw [table]
        exact (Moved.refund _ answer.hold _).weaken allowed id
      | replaced authorizes tokens modelId now hold table =>
        rw [table]
        exact ((Moved.refund _ answer.hold _).weaken allowed id).hold (nextId_refund _ _) isHolder _ _ _ _ _
    · intro reservation other remembers
      rcases others reservation other remembers with before | ⟨rfl, holds⟩
      · exact .inl before
      · cases effect answer rfl with
        | same hold table =>
          rw [hold] at holds
          exact .inl (own reservation holds)
        | forgotten hold table | released hold table =>
          rw [hold] at holds
          cases holds
        | replaced authorizes tokens modelId now hold table =>
          rw [hold, Option.some_inj] at holds
          refine .inr ⟨holder, holds.symm, ?_⟩
          rw [store, table, ids, <- holds]
          simp only [holdAnswer, map_append, map_singleton, mem_append, nextId_refund]
          exact .inr (mem_singleton.mpr rfl)

theorem stepMoves_answers (limits : ℕ -> TokenLimits) (resets : ℕ -> Resets) (state : State) (action : Answers.Action) :
  StepMoves state (next limits resets state (.answers action)) (.answers action) := by
  cases action with
  | create userId requestType tokenId =>
    refine .quiet rfl ?_
    intro reservation holder remembers
    cases holder with
    | image image => exact remembers
    | answer answerId =>
      rcases remembers with ⟨known, mem, sameId, holds⟩
      rcases mem_snoc.mp mem with before | new
      · exact ⟨known, before, sameId, holds⟩
      · rw [new] at holds
        cases holds
  | authorize answerId site now model verdict estimate =>
    refine stepMoves_perform state (.authorization answerId) rfl
      (fun answer => (Answers.authorize_untouched site now _ _ model verdict estimate answer state.store).id) ?_
    rintro answer rfl
    exact Answers.authorize_holdEffect site now _ _ model verdict estimate answer state.store
  | start answerId site now modelId queueWaitMs recorded =>
    simp only [next, Answers.next]
    cases found : state.desk.answer answerId with
    | none =>
      rw [Answers.perform_of_none found]
      exact .quiet rfl (fun _ _ remembers => remembers)
    | some answer =>
      rcases Answers.start_holds site now modelId queueWaitMs recorded answer state.store with
        ⟨table, sameHold, sameId⟩
      apply StepMoves.quiet
      · simp only [State.store, Answers.perform_eq found]
        exact table
      · intro reservation holder remembers
        cases holder with
        | image image => exact remembers
        | answer otherId =>
          rcases remembers with ⟨known, mem, rfl, holds⟩
          rcases Answers.mem_perform found mem with ⟨before, _⟩ | moved
          · exact ⟨known, before, rfl, holds⟩
          · rw [moved] at holds ⊢
            exact ⟨answer, (Answers.State.answer_mem found).1, sameId.symm, sameHold.symm.trans holds⟩
  | settle answerId site now ending committed =>
    refine stepMoves_perform state (.settlement answerId) rfl
      (Answers.settle_id site now ending committed · state.store) ?_
    rintro answer rfl
    exact Answers.settle_holdEffect site now ending committed answer state.store
  | release answerId committed =>
    refine stepMoves_perform state (.release answerId) rfl
      (fun answer => (Answers.release_untouched committed answer state.store).id) ?_
    rintro answer rfl
    exact Answers.release_holdEffect committed answer state.store
  | renewHold hold now => exact ⟨Moved.touch _ hold now _ _, fun _ _ remembers => .inl remembers⟩
  | purgeHolds ttlSeconds now =>
    refine ⟨(Moved.purge _ ttlSeconds now _).weaken ?_ id, fun _ _ remembers => .inl remembers⟩
    intro _ expired
    exact .inr ⟨(ttlSeconds, now), rfl, expired⟩
  | checkpoint lease site now modelId tokensIn tokensOut | abandon lease | chargeElsewhere site now request =>
    exact .quiet rfl (fun _ _ remembers => remembers)
  | recover site now rows =>
    exact .quiet (Answers.recoverCompletions_reservations site now rows state.store) (fun _ _ remembers => remembers)
  | crash answers =>
    refine .quiet rfl ?_
    intro _ holder remembers
    cases holder with
    | image image => exact remembers
    | answer answerId =>
      rcases remembers with ⟨known, mem, sameId, holds⟩
      exact ⟨known, (mem_deleteWhere.mp mem).1, sameId, holds⟩

def ImageStep.purges : ImageStep -> Option (ℚ × ℚ)
  | .reserve _ now ttlSeconds => some (ttlSeconds, now)
  | _ => none

structure JobMoves (job : ImageJob) (store : Store) (result : ImageJob × Store) (purges : Option (ℚ × ℚ)) : Prop where
  id : result.1.id = job.id
  table : Moved store.reservations result.2.reservations
    (fun row => job.reservation = some row.id \/
      ∃ limits, purges = some limits /\ Reservation.expired limits.1 limits.2 row) True
  remembered : ∀ reservation, result.1.reservation = some reservation -> job.reservation = some reservation \/
    (reservation = store.reservations.nextId /\ reservation ∈ ids result.2.reservations)

theorem JobMoves.quiet {after : ImageJob} (store : Store) (purges : Option (ℚ × ℚ)) (sameId : after.id = job.id)
  (sameReservation : after.reservation = job.reservation) : JobMoves job store (after, store) purges where
  id := sameId
  table := Moved.same _ _ _
  remembered := fun _ holds => .inl (sameReservation.symm.trans holds)

/-- `reserve_image` leaves the tables alone, or purges, or purges and inserts a
row for the account. -/
theorem reserveImage_cases (site : Credits.Site) (now ttlSeconds : ℚ) (limits : TokenLimits) (resets : Resets) (tokens : ℚ)
  (job : ImageJob) (store : Store) : let result := reserveImage site now ttlSeconds limits resets tokens job store
  let purged := purgeExpiredReservations ttlSeconds now store.reservations
  (result.1 = store /\ ∀ reservation, result.2 ≠ .reserved (some reservation)) \/
    (result.1.reservations = purged /\ result.1.books.ledger = store.books.ledger /\ result.2 = .reserved none) \/
    (result.1.reservations = (holdAnswer purged job.userId tokens (some job.modelId) job.tokenId now).1 /\
      result.1.books.ledger = store.books.ledger /\ result.2 = .reserved (some store.reservations.nextId)) := by
  intro result _
  unfold result reserveImage
  by_cases free : tokens <= 0 \/ job.counted = false
  · rw [if_pos free]
    refine .inl ⟨rfl, ?_⟩
    intro reservation clash
    cases clash
  · rw [if_neg free]
    by_cases admin : job.admin
    · rw [if_pos admin]
      exact .inr (.inl ⟨rfl, rfl, rfl⟩)
    · rw [if_neg admin]
      -- both refusals leave the store alone
      have refused : ∀ answer : Reserved, (∀ reservation, answer ≠ .reserved (some reservation)) ->
          ((store, answer).1 = store /\ ∀ reservation, (store, answer).2 ≠ .reserved (some reservation)) :=
        fun answer none => ⟨rfl, none⟩
      dsimp only
      split
      · exact .inl (refused _ nofun)
      · split
        · exact .inl (refused _ nofun)
        · exact .inr (.inr ⟨rfl, rfl, rfl⟩)

theorem reserve_moves (limits : ℕ -> TokenLimits) (resets : ℕ -> Resets) (site : Credits.Site) (now ttlSeconds : ℚ)
  (job : ImageJob) (store : Store) :
  JobMoves job store (job.reserve limits resets site now ttlSeconds store) (some (ttlSeconds, now)) := by
  have purge : Moved store.reservations (purgeExpiredReservations ttlSeconds now store.reservations)
      (fun row => job.reservation = some row.id \/
        ∃ purges, some (ttlSeconds, now) = some purges /\ Reservation.expired purges.1 purges.2 row)
      True := by
    apply (Moved.purge store.reservations ttlSeconds now True).weaken _ id
    intro _ expired
    exact .inr ⟨(ttlSeconds, now), rfl, expired⟩
  unfold ImageJob.reserve
  by_cases admitted : job.phase = .admitted
  · rw [if_pos admitted]
    have cases := reserveImage_cases site now ttlSeconds (limits job.userId) (resets job.userId)
      (job.cost * (site.chargeTerms (some job.modelId)).1) job store
    simp only at cases ⊢
    rcases cases with ⟨sameStore, none⟩ | ⟨table, _, answer⟩ | ⟨table, _, answer⟩
    · cases result : (reserveImage site now ttlSeconds (limits job.userId) (resets job.userId)
          (job.cost * (site.chargeTerms (some job.modelId)).1) job store).2 with
      | reserved reservation =>
        cases reservation with
        | none =>
          rw [sameStore]
          refine ⟨rfl, Moved.same _ _ _, ?_⟩
          intro reservation holds
          cases holds
        | some reservation => exact absurd result (none reservation)
      | insufficientCredits weekly =>
        rw [sameStore]
        exact .quiet _ _ rfl rfl
      | failed =>
        rw [sameStore]
        exact .quiet _ _ rfl rfl
    · rw [answer]
      refine ⟨rfl, ?_, ?_⟩
      · rw [table]
        exact purge
      · intro reservation holds
        cases holds
    · rw [answer]
      refine ⟨rfl, ?_, ?_⟩
      · rw [table]
        exact purge.hold rfl trivial _ _ _ _ _
      · intro _ holds
        simp only [Option.some_inj] at holds
        refine .inr ⟨holds.symm, ?_⟩
        rw [table, <- holds]
        simp only [ids, holdAnswer, map_append, map_singleton, mem_append, purgeExpiredReservations]
        exact .inr (mem_singleton.mpr rfl)
  · rw [if_neg admitted]
    exact .quiet _ _ rfl rfl

theorem row_found {store : Store} {row : Reservation} (found : job.row store = some row) :
  row ∈ store.reservations.rows /\ job.reservation = some row.id := by
  unfold ImageJob.row at found
  cases holds : job.reservation with
  | none =>
    rw [holds] at found
    cases found
  | some reservation =>
    rw [holds] at found
    have named := of_find_key found
    exact ⟨named.1, by rw [named.2]⟩

theorem step_moves (limits : ℕ -> TokenLimits) (resets : ℕ -> Resets) (job : ImageJob) (store : Store)
  (metrics : List ImageMetric) (step : ImageStep) : let result := step.apply limits resets job store metrics
  JobMoves job store (result.job, result.store) step.purges := by
  intro result
  cases step with
  | admission counted allowed =>
    simp only [result, apply, ImageJob.admission]
    split
    · exact .quiet _ _ rfl rfl
    · exact .quiet _ _ rfl rfl
  | reserve site now ttlSeconds => exact reserve_moves limits resets site now ttlSeconds job store
  | heartbeat now =>
    simp only [result, apply, ImageJob.heartbeat]
    cases holds : job.reservation with
    | none => exact .quiet _ _ rfl rfl
    | some reservation =>
      by_cases died : job.phase = .dead
      · simp only [if_pos died]
        exact .quiet _ _ rfl rfl
      · simp only [if_neg died]
        exact ⟨rfl, Moved.touch _ _ _ _ _, fun _ same => .inl same⟩
  | generated data =>
    simp only [result, apply, ImageJob.generated]
    split
    · exact .quiet _ _ rfl rfl
    · exact .quiet _ _ rfl rfl
  | failure =>
    simp only [result, apply, ImageJob.failure]
    split <;> exact .quiet _ _ rfl rfl
  | charge site now durationMs queueWaitMs committed =>
    simp only [result, apply, ImageJob.chargeImage]
    split
    · split
      · refine ⟨rfl, ?_, fun _ same => .inl same⟩
        apply (Moved.refund store.reservations ((job.row store).map Reservation.id) True).weaken _ id
        intro _ named
        rcases Option.map_eq_some_iff.mp named with ⟨own, found, same⟩
        rw [<- same]
        exact .inl (row_found found).2
      · exact .quiet _ _ rfl rfl
    · exact .quiet _ _ rfl rfl
  | refund committed =>
    simp only [result, apply, ImageJob.refund]
    split
    · split
      · refine ⟨rfl, ?_, fun _ same => .inl same⟩
        exact (Moved.refund store.reservations job.reservation True).weaken (fun _ own => .inl own) id
      · exact .quiet _ _ rfl rfl
    · exact .quiet _ _ rfl rfl
  | recordFailure now durationMs queueWaitMs recorded =>
    simp only [result, apply, ImageJob.recordFailure]
    split
    · exact .quiet _ _ rfl rfl
    · exact .quiet _ _ rfl rfl

theorem State.image_mem {imageId : ℕ} (found : state.image imageId = some job) :
    job ∈ state.images /\ job.id = imageId := of_find_key found

theorem next_image (limits : ℕ -> TokenLimits) (resets : ℕ -> Resets) {imageId : ℕ}
  (found : state.image imageId = some job) (step : ImageStep) :
  let result := step.apply limits resets job state.store state.imageMetrics
  next limits resets state (.image imageId step) = { state.withStore result.store with
      images := updateWhere (·.id = imageId) (fun _ => result.job) state.images
      imageMetrics := result.metrics } := by
  simp [next, found]

theorem stepMoves_image (limits : ℕ -> TokenLimits) (resets : ℕ -> Resets) (state : State) (imageId : ℕ)
  (step : ImageStep) : StepMoves state (next limits resets state (.image imageId step)) (.image imageId step) := by
  cases found : state.image imageId with
  | none =>
    simp only [next, found]
    exact .quiet rfl (fun _ _ remembers => remembers)
  | some job =>
    rcases State.image_mem found with ⟨mem, rfl⟩
    have moves := step_moves limits resets job state.store state.imageMetrics step
    have same := next_image limits resets found step
    rw [same]
    constructor
    · refine moves.table.weaken ?_ (fun _ => rfl)
      rintro row (own | ⟨purges, isPurge, expired⟩)
      · exact .inl ⟨_, rfl, job, mem, rfl, own⟩
      · refine .inr ⟨purges, ?_, expired⟩
        cases step <;> exact isPurge
    · intro reservation holder remembers
      cases holder with
      | answer answer => exact .inl remembers
      | image image =>
        rcases remembers with ⟨known, knownMember, rfl, holds⟩
        rcases mem_updateWhere.mp knownMember with ⟨before, _⟩ | ⟨_, _, _, rfl⟩
        · exact .inl ⟨known, before, rfl, holds⟩
        · rw [moves.id]
          exact (moves.remembered reservation holds).imp (fun own => ⟨job, mem, rfl, own⟩) (fun new => ⟨rfl, new⟩)

theorem stepMoves_next (limits : ℕ -> TokenLimits) (resets : ℕ -> Resets) (state : State) (action : Action) :
  StepMoves state (next limits resets state action) action := by
  cases action with
  | answers action => exact stepMoves_answers limits resets state action
  | create userId admin tokenId modelId cost =>
    refine .quiet rfl ?_
    intro reservation holder remembers
    cases holder with
    | answer answer => exact remembers
    | image image =>
      rcases remembers with ⟨known, mem, sameId, holds⟩
      rcases mem_snoc.mp mem with before | new
      · exact ⟨known, before, sameId, holds⟩
      · rw [new] at holds
        cases holds
  | image imageId step => exact stepMoves_image limits resets state imageId step
  | crash images =>
    refine .quiet rfl ?_
    intro _ holder remembers
    cases holder with
    | answer answer => exact remembers
    | image image =>
      rcases remembers with ⟨known, mem, sameId, holds⟩
      rcases mem_updateWhere.mp mem with ⟨before, _⟩ | ⟨old, before, _, rfl⟩
      · exact ⟨known, before, sameId, holds⟩
      · exact ⟨old, before, sameId, holds⟩

/-- The table and the memories, related to what the run reported: every row was
taken, for its amount, by whoever remembers it, and no number was taken twice. -/
structure Kept (past : List Event) (state : State) : Prop where
  keys : (ids state.store.reservations).Nodup
  below : ∀ reservation holder credits, Event.taken reservation holder credits ∈ past ->
    reservation < state.store.reservations.nextId
  stored : ∀ row ∈ state.store.reservations.rows,
    ∃ holder, Event.taken row.id holder row.creditsReserved ∈ past
  once : ∀ reservation first second firstCredits secondCredits, Event.taken reservation first firstCredits ∈ past ->
    Event.taken reservation second secondCredits ∈ past -> first = second /\ firstCredits = secondCredits
  remembered : ∀ reservation holder, Remembers state reservation holder ->
    ∃ credits, Event.taken reservation holder credits ∈ past

section Step

variable {limits : ℕ -> TokenLimits} {resets : ℕ -> Resets} {past : List Event} {state : State} {action : Action}

theorem taken_mem_events {reservation : ℕ} {holder : Holder} {credits : ℚ} :
  taken reservation holder credits ∈ events limits resets state action ↔
    action.holder = some holder /\ reservation ∉ ids state.store.reservations /\
      ∃ row ∈ (next limits resets state action).store.reservations.rows, row.id = reservation /\
        row.creditsReserved = credits := by
  have phases : ∀ image before after, taken reservation holder credits ∉ phaseEvents image before after := by
    intro image before after
    unfold phaseEvents
    split
    · simp
    · split
      · simp
      · exact not_mem_nil
  have charges : ∀ before after, taken reservation holder credits ∉ chargedEvents before after action := by
    intro _ _ mem
    rcases mem_flatMap.mp mem with ⟨_, _, written⟩
    rcases mem_map.mp written with ⟨row, _, clash⟩
    cases clash
  simp only [events, mem_append, mem_flatMap, phases, and_false, exists_false, charges, or_false, takenEvents,
    mem_map, mem_filter, decide_eq_true_eq, taken.injEq, Option.mem_toList, ids]
  constructor
  · rintro ⟨_, isHolder, row, ⟨mem, new⟩, rfl, rfl, rfl⟩
    exact ⟨isHolder, new, row, mem, rfl, rfl⟩
  · rintro ⟨isHolder, new, row, mem, rfl, rfl⟩
    exact ⟨holder, isHolder, row, ⟨mem, new⟩, rfl, rfl, rfl⟩

theorem Kept.next (kept : Kept past state) :
  Kept (past ++ events limits resets state action) (next limits resets state action) := by
  have moves := stepMoves_next limits resets state action
  -- every number of the table was taken, so it is below the next one
  have tableBelow : ∀ id ∈ ids state.store.reservations, id < state.store.reservations.nextId := by
    intro _ present
    rcases mem_map.mp present with ⟨row, mem, rfl⟩
    rcases kept.stored row mem with ⟨holder, taken⟩
    exact kept.below row.id holder _ taken
  have keys := moves.table.keys kept.keys tableBelow
  -- what is reported as taken has the next number
  have fresh : ∀ reservation holder credits,
      taken reservation holder credits ∈ events limits resets state action ->
      reservation = state.store.reservations.nextId /\
        state.store.reservations.nextId < (Images.next limits resets state action).store.reservations.nextId := by
    intro reservation holder credits reported
    rcases taken_mem_events.mp reported with ⟨_, new, row, mem, rfl, _⟩
    rcases moves.table.appears row mem with ⟨old, oldIn, same, _⟩ | ⟨_, isNext, grown⟩
    · exact absurd (same ▸ mem_map_of_mem oldIn) new
    · exact ⟨isNext, grown⟩
  have reported : ∀ row ∈ (Images.next limits resets state action).store.reservations.rows,
      row.id = state.store.reservations.nextId -> ∀ holder, action.holder = some holder ->
      taken row.id holder row.creditsReserved ∈ events limits resets state action := by
    intro row mem isNext holder isHolder
    refine taken_mem_events.mpr ⟨isHolder, ?_, row, mem, rfl, rfl⟩
    intro old
    have older := tableBelow row.id old
    omega
  constructor
  · exact keys
  · intro reservation holder credits mem
    rcases mem_append.mp mem with before | new
    · exact (kept.below reservation holder credits before).trans_le moves.table.grows
    · rcases fresh reservation holder credits new with ⟨rfl, grown⟩
      exact grown
  · intro row mem
    rcases moves.table.appears row mem with ⟨old, oldIn, sameId, sameCredits⟩ | ⟨takes, isNext, _⟩
    · rcases kept.stored old oldIn with ⟨holder, taken⟩
      rw [sameId, sameCredits] at taken
      exact ⟨holder, mem_append_left _ taken⟩
    · rcases Option.isSome_iff_exists.mp takes with ⟨holder, isHolder⟩
      exact ⟨holder, mem_append_right _ (reported row mem isNext holder isHolder)⟩
  · intro reservation first second firstCredits secondCredits firstTaken secondTaken
    rcases mem_append.mp firstTaken with firstBefore | firstNew
    · rcases mem_append.mp secondTaken with secondBefore | secondNew
      · exact kept.once reservation first second firstCredits secondCredits firstBefore secondBefore
      · have older := kept.below reservation first firstCredits firstBefore
        have isNext := (fresh reservation second secondCredits secondNew).1
        omega
    · rcases mem_append.mp secondTaken with secondBefore | secondNew
      · have older := kept.below reservation second secondCredits secondBefore
        have isNext := (fresh reservation first firstCredits firstNew).1
        omega
      · rcases taken_mem_events.mp firstNew with ⟨firstHolder, _, row, mem, sameId, firstAmount⟩
        rcases taken_mem_events.mp secondNew with ⟨secondHolder, _, other, otherIn, otherId, secondAmount⟩
        have sameRow : row = other := eq_of_key keys mem otherIn (sameId.trans otherId.symm)
        constructor
        · exact Option.some_inj.mp (firstHolder.symm.trans secondHolder)
        · rw [<- firstAmount, <- secondAmount, sameRow]
  · intro reservation holder remembers
    rcases moves.remembered reservation holder remembers with before | ⟨isHolder, isNext, present⟩
    · rcases kept.remembered reservation holder before with ⟨credits, taken⟩
      exact ⟨credits, mem_append_left _ taken⟩
    · rcases mem_map.mp present with ⟨row, mem, sameId⟩
      have taken := reported row mem (sameId.trans isNext) holder isHolder
      rw [sameId] at taken
      exact ⟨row.creditsReserved, mem_append_right _ taken⟩

end Step

theorem kept_of_trace {limits : ℕ -> TokenLimits} {resets : ℕ -> Resets}
  (trace : (imageMachine limits resets).Trace (events limits resets) past state) : Kept past state := by
  apply trace.induct
  · intro start isInitial
    have empty : start = emptyState := isInitial
    subst empty
    constructor
    · exact nodup_nil
    · intro reservation holder _ mem
      cases mem
    · intro _ mem
      cases mem
    · intro reservation _ _ _ _ mem
      cases mem
    · intro _ holder remembers
      cases holder with
      | image image =>
        rcases remembers with ⟨_, mem, _⟩
        cases mem
      | answer answer =>
        rcases remembers with ⟨_, mem, _⟩
        cases mem
  · intro _ _ _ kept _
    exact kept.next

def Event.about (image : ℕ) : Event -> Bool
  | .taken _ _ _ => false
  | .validated other => other = image
  | .charged other _ => other = image
  | .broken other => other = image

def story (past : List Event) (image : ℕ) : List Event := past.filter (Event.about image)

def Phase.Tells (image : ℕ) : Phase -> List Event -> Prop
  | .created, told => told = []
  | .admitted, told => told = []
  | .running, told => told = []
  | .validated, told => told = [.validated image]
  | .charged, told => ∃ row, told = [.validated image, .charged image row]
  | .failing, told => told = [] \/ told = [.validated image, .broken image]
  | .refunded, told => told = [] \/ told = [.validated image, .broken image]
  | .ended, told => told = [] \/ told = [.validated image, .broken image]
  | .dead, told => told = [] \/ told = [.validated image, .broken image] \/
      ∃ row, told = [.validated image, .charged image row]

inductive PhaseMove : Phase -> Phase -> List LedgerRow -> Prop
  | stay (phase : Phase) : PhaseMove phase phase []
  | opening (before after : Phase) (isOpen : before = .created \/ before = .admitted \/ before = .running)
      (moves : after = .admitted \/ after = .running \/ after = .failing \/ after = .ended \/ after = .dead) :
      PhaseMove before after []
  | validated : PhaseMove .running .validated []
  | charged (row : LedgerRow) : PhaseMove .validated .charged [row]
  | broken (after : Phase) (lost : after = .failing \/ after = .dead) : PhaseMove .validated after []
  | closing (before after : Phase) (isOver : before = .failing \/ before = .refunded \/ before = .ended)
      (moves : after = .refunded \/ after = .ended \/ after = .dead) : PhaseMove before after []
  | died : PhaseMove .charged .dead []

theorem PhaseMove.tells {image : ℕ} {before after : Phase} {written : List LedgerRow} (move : PhaseMove before after written)
  {told : List Event} (tells : before.Tells image told) :
  after.Tells image (told ++ (phaseEvents image (some before) (some after) ++ written.map (.charged image ·))) := by
  cases move with
  | stay =>
    have nothing : phaseEvents image (some before) (some before) = [] := by
      unfold phaseEvents
      rw [if_neg (fun both => both.1 both.2), if_neg fun both => both.2.1 both.1]
    rw [nothing, map_nil, append_nil, append_nil]
    exact tells
  | opening before after isOpen moves =>
    have none : told = [] := by
      rcases isOpen with rfl | rfl | rfl <;> exact tells
    rw [none]
    rcases isOpen with rfl | rfl | rfl <;> rcases moves with rfl | rfl | rfl | rfl | rfl <;>
      simp [phaseEvents, Phase.Tells]
  | validated =>
    have none : told = [] := tells
    rw [none]
    rfl
  | charged row =>
    have known : told = [.validated image] := tells
    rw [known]
    exact ⟨row, rfl⟩
  | broken after lost =>
    have known : told = [.validated image] := tells
    rw [known]
    rcases lost with rfl | rfl
    · exact .inr rfl
    · exact .inr (.inl rfl)
  | closing before after isOver moves =>
    have known : told = [] \/ told = [.validated image, .broken image] := by
      rcases isOver with rfl | rfl | rfl <;> exact tells
    rcases isOver with rfl | rfl | rfl <;> rcases moves with rfl | rfl | rfl <;> rcases known with rfl | rfl <;>
      simp [phaseEvents, Phase.Tells]
  | died =>
    rcases tells with ⟨row, rfl⟩
    exact .inr (.inr ⟨row, rfl⟩)

def written (before after : Store) : List LedgerRow := after.books.ledger.drop before.books.ledger.length

theorem written_same {before after : Store} (same : after.books.ledger = before.books.ledger) : written before after = [] := by
  rw [written, same]
  exact drop_length

theorem reserve_phase (limits : ℕ -> TokenLimits) (resets : ℕ -> Resets) (site : Credits.Site) (now ttlSeconds : ℚ)
  (job : ImageJob) (store : Store) : let result := job.reserve limits resets site now ttlSeconds store
  PhaseMove job.phase result.1.phase (written store result.2) := by
  intro result
  unfold result ImageJob.reserve
  by_cases admitted : job.phase = .admitted
  · rw [if_pos admitted, admitted]
    have ledger : (reserveImage site now ttlSeconds (limits job.userId) (resets job.userId)
        (job.cost * (site.chargeTerms (some job.modelId)).1) job store).1.books.ledger = store.books.ledger := by
      rcases reserveImage_cases site now ttlSeconds (limits job.userId) (resets job.userId)
          (job.cost * (site.chargeTerms (some job.modelId)).1) job store with ⟨same, _⟩ | ⟨_, same, _⟩ | ⟨_, same, _⟩
      · rw [same]
      · exact same
      · exact same
    simp only
    split
    · rw [written_same ledger]
      exact .opening _ _ (.inr (.inl rfl)) (.inr (.inl rfl))
    · rw [written_same ledger]
      exact .opening _ _ (.inr (.inl rfl)) (.inr (.inr (.inr (.inl rfl))))
    · rw [written_same ledger]
      exact .opening _ _ (.inr (.inl rfl)) (.inr (.inr (.inr (.inl rfl))))
  · rw [if_neg admitted, written_same rfl]
    exact .stay _

theorem step_phase (limits : ℕ -> TokenLimits) (resets : ℕ -> Resets) (job : ImageJob) (store : Store)
  (metrics : List ImageMetric) (step : ImageStep) : let result := step.apply limits resets job store metrics
  PhaseMove job.phase result.job.phase (written store result.store) := by
  intro result
  cases step with
  | admission counted allowed =>
    simp only [result, apply, ImageJob.admission]
    rw [written_same rfl]
    by_cases created : job.phase = .created
    · rw [if_pos created, created]
      cases allowed with
      | true => exact .opening _ _ (.inl rfl) (.inl rfl)
      | false => exact .opening _ _ (.inl rfl) (.inr (.inr (.inr (.inl rfl))))
    · rw [if_neg created]
      exact .stay _
  | reserve site now ttlSeconds => exact reserve_phase limits resets site now ttlSeconds job store
  | heartbeat now =>
    have same : (job.heartbeat now store).books.ledger = store.books.ledger := by
      unfold ImageJob.heartbeat
      split
      · rfl
      · split <;> rfl
    simp only [result, apply]
    rw [written_same same]
    exact .stay _
  | generated data =>
    simp only [result, apply, ImageJob.generated]
    rw [written_same rfl]
    by_cases running : job.phase = .running
    · rw [if_pos running, running]
      by_cases isImage : (detectMime data).isSome
      · rw [if_pos isImage]
        exact .validated
      · rw [if_neg isImage]
        exact .opening _ _ (.inr (.inr rfl)) (.inr (.inr (.inl rfl)))
    · rw [if_neg running]
      exact .stay _
  | failure =>
    simp only [result, apply, ImageJob.failure]
    rw [written_same rfl]
    cases here : job.phase with
    | created => exact .opening _ _ (.inl rfl) (.inr (.inr (.inr (.inl rfl))))
    | admitted => exact .opening _ _ (.inr (.inl rfl)) (.inr (.inr (.inr (.inl rfl))))
    | running => exact .opening _ _ (.inr (.inr rfl)) (.inr (.inr (.inl rfl)))
    | validated => exact .broken _ (.inl rfl)
    | charged | failing | refunded | ended | dead =>
      simp only [here]
      exact .stay _
  | charge site now durationMs queueWaitMs committed =>
    simp only [result, apply, ImageJob.chargeImage]
    by_cases valid : job.phase = .validated
    · rw [if_pos valid, valid]
      by_cases commits : (committed && job.referenced site)
      · rw [if_pos commits]
        have row : written store (finalizeReservation site now job store) =
            [job.ledgerRow (job.creditsDue site store) ⌊now⌋] := drop_left
        rw [row]
        exact .charged _
      · rw [if_neg commits, written_same rfl]
        exact .broken _ (.inl rfl)
    · rw [if_neg valid, written_same rfl]
      exact .stay _
  | refund committed =>
    simp only [result, apply, ImageJob.refund]
    by_cases failing : job.phase = .failing
    · rw [if_pos failing, failing]
      have same : (if committed then { store with reservations := refundReservation job.reservation store.reservations }
          else store).books.ledger = store.books.ledger := by
        split <;> rfl
      rw [written_same same]
      exact .closing _ _ (.inl rfl) (.inl rfl)
    · rw [if_neg failing, written_same rfl]
      exact .stay _
  | recordFailure now durationMs queueWaitMs recorded =>
    simp only [result, apply, ImageJob.recordFailure]
    rw [written_same rfl]
    by_cases refunded : job.phase = .refunded
    · rw [if_pos refunded, refunded]
      exact .closing _ _ (.inr (.inl rfl)) (.inr (.inl rfl))
    · rw [if_neg refunded]
      exact .stay _

/-- The requests, related to what the run reported about their images. -/
structure Told (past : List Event) (state : State) : Prop where
  distinct : (state.images.map ImageJob.id).Nodup
  below : ∀ job ∈ state.images, job.id < state.nextImage
  tells : ∀ job ∈ state.images, job.phase.Tells job.id (story past job.id)
  unknown : ∀ image, image ∉ state.images.map ImageJob.id -> story past image = []

theorem story_append (first second : List Event) (image : ℕ) :
    story (first ++ second) image = story first image ++ story second image := filter_append ..

theorem story_flatMap {images : List ℕ} (distinct : images.Nodup) (reports : ℕ -> List Event)
  (named : ∀ image, ∀ event ∈ reports image, ∀ other, event.about other = decide (image = other))
  (image : ℕ) : story (images.flatMap reports) image = if image ∈ images then reports image else [] := by
  by_cases mem : image ∈ images
  · rw [if_pos mem]
    have keys : (images.map id).Nodup := by
      rw [map_id]
      exact distinct
    apply filter_flatMap_key keys mem
    · intro event reported
      rw [named image event reported image]
      exact decide_eq_true rfl
    · intro other different event reported
      rw [named other event reported image]
      exact decide_eq_false different
  · rw [if_neg mem, story, filter_eq_nil_iff]
    intro event reported
    rcases mem_flatMap.mp reported with ⟨other, otherIn, reportedOther⟩
    rw [named other event reportedOther image, decide_eq_true_eq]
    exact fun same => mem (same ▸ otherIn)

theorem images_nodup (action : Action) : action.images.Nodup := by
  cases action with
  | answers action | create userId admin tokenId modelId cost => exact nodup_nil
  | image imageId step => exact nodup_singleton imageId
  | crash images => exact nodup_dedup images

theorem story_events (limits : ℕ -> TokenLimits) (resets : ℕ -> Resets) (state : State) (action : Action) (image : ℕ) :
  story (events limits resets state action) image = if image ∈ action.images then
      phaseEvents image (state.phase image) ((next limits resets state action).phase image) ++
        (written state.store (next limits resets state action).store).map (.charged image ·)
    else [] := by
  have taken : story (takenEvents state.store (next limits resets state action).store action.holder) image = [] := by
    rw [story, filter_eq_nil_iff]
    intro event reported
    rcases mem_flatMap.mp reported with ⟨_, _, inRows⟩
    rcases mem_map.mp inRows with ⟨row, _, rfl⟩
    exact Bool.false_ne_true
  have phases := story_flatMap (images_nodup action)
    (fun image => phaseEvents image (state.phase image) ((next limits resets state action).phase image))
    (fun other event reported image' => by
      unfold phaseEvents at reported
      split at reported
      · rw [mem_singleton.mp reported]
        rfl
      · split at reported
        · rw [mem_singleton.mp reported]
          rfl
        · cases reported) image
  have charges := story_flatMap (images_nodup action)
    (fun image => (written state.store (next limits resets state action).store).map (charged image ·))
    (fun other event reported image' => by
      rcases mem_map.mp reported with ⟨row, _, rfl⟩
      rfl) image
  have split : story (events limits resets state action) image =
      story (takenEvents state.store (next limits resets state action).store action.holder) image ++
        (story (action.images.flatMap fun image =>
            phaseEvents image (state.phase image) ((next limits resets state action).phase image)) image ++
          story (action.images.flatMap fun image =>
            (written state.store (next limits resets state action).store).map fun row => charged image row) image) := by
    rw [<- story_append, <- story_append]
    rfl
  rw [split, taken, phases, charges, nil_append]
  by_cases mem : image ∈ action.images
  · rw [if_pos mem, if_pos mem, if_pos mem]
  · rw [if_neg mem, if_neg mem, if_neg mem, append_nil]

theorem Told.phase_eq (told : Told past state) (mem : job ∈ state.images) : state.phase job.id = some job.phase := by
  rw [State.phase, State.image, find_of_key told.distinct mem]
  rfl

theorem Told.move {limits : ℕ -> TokenLimits} {resets : ℕ -> Resets} {action : Action} (told : Told past state)
  (distinct : ((next limits resets state action).images.map ImageJob.id).Nodup)
  (below : ∀ job ∈ (next limits resets state action).images, job.id < (next limits resets state action).nextImage)
  (moved : ∀ job ∈ (next limits resets state action).images,
    (job.id ∉ state.images.map ImageJob.id /\ job.id ∉ action.images /\ job.phase = .created) \/
      (job ∈ state.images /\ job.id ∉ action.images) \/
      ∃ before ∈ state.images, before.id = job.id /\ job.id ∈ action.images /\
        PhaseMove before.phase job.phase (written state.store (next limits resets state action).store))
  (unmoved : ∀ image, image ∉ (next limits resets state action).images.map ImageJob.id ->
    image ∉ state.images.map ImageJob.id) :
  Told (past ++ events limits resets state action) (next limits resets state action) := by
  have phase : ∀ job ∈ (next limits resets state action).images,
      (next limits resets state action).phase job.id = some job.phase := by
    intro job mem
    rw [State.phase, State.image, find_of_key distinct mem]
    rfl
  constructor
  · exact distinct
  · exact below
  · intro job mem
    rw [story_append, story_events]
    rcases moved job mem with ⟨new, still, created⟩ | ⟨old, still⟩ | ⟨before, old, sameId, moves, move⟩
    · rw [if_neg still, append_nil, told.unknown job.id new, created]
      rfl
    · rw [if_neg still, append_nil]
      exact told.tells job old
    · have beforePhase : state.phase job.id = some before.phase := sameId ▸ told.phase_eq old
      rw [if_pos moves, phase job mem, beforePhase]
      exact move.tells (sameId ▸ told.tells before old)
  · intro image absent
    have unknown := unmoved image absent
    rw [story_append, story_events, told.unknown image unknown, nil_append]
    split
    · rename_i moves
      -- only a step of a request that exists could write a row
      have noPhase : ∀ images : List ImageJob, image ∉ images.map ImageJob.id ->
          images.find? (·.id = image) = none := by
        intro images missing
        rw [find?_eq_none]
        intro job mem same
        exact missing (mem_map.mpr ⟨job, mem, of_decide_eq_true same⟩)
      have before : state.image image = none := noPhase _ unknown
      have after : (next limits resets state action).image image = none := noPhase _ absent
      have nothing : (next limits resets state action).store.books.ledger = state.store.books.ledger := by
        cases action with
        | answers action => cases moves
        | create userId admin tokenId modelId cost | crash images => rfl
        | image imageId step =>
          rw [mem_singleton.mp moves] at before
          simp [next, before]
      rw [State.phase, State.phase, before, after, written_same nothing]
      rfl
    · rfl

theorem phaseMove_dead (phase : Phase) : PhaseMove phase .dead [] := by
  cases phase with
  | created => exact .opening _ _ (.inl rfl) (.inr (.inr (.inr (.inr rfl))))
  | admitted => exact .opening _ _ (.inr (.inl rfl)) (.inr (.inr (.inr (.inr rfl))))
  | running => exact .opening _ _ (.inr (.inr rfl)) (.inr (.inr (.inr (.inr rfl))))
  | validated => exact .broken _ (.inr rfl)
  | charged => exact .died
  | failing => exact .closing _ _ (.inl rfl) (.inr (.inr rfl))
  | refunded => exact .closing _ _ (.inr (.inl rfl)) (.inr (.inr rfl))
  | ended => exact .closing _ _ (.inr (.inr rfl)) (.inr (.inr rfl))
  | dead => exact .stay _

theorem Told.next {limits : ℕ -> TokenLimits} {resets : ℕ -> Resets} (told : Told past state) (action : Action) :
  Told (past ++ events limits resets state action) (Images.next limits resets state action) := by
  cases action with
  | answers action =>
    apply told.move
    · exact told.distinct
    · exact told.below
    · intro job mem
      exact .inr (.inl ⟨mem, not_mem_nil⟩)
    · exact fun _ absent => absent
  | create userId admin tokenId modelId cost =>
    have fresh : state.nextImage ∉ state.images.map ImageJob.id := by
      intro known
      rcases mem_map.mp known with ⟨job, mem, same⟩
      have older := told.below job mem
      omega
    apply told.move
    · simp only [Images.next, map_append, map_singleton]
      apply told.distinct.append (nodup_singleton _)
      intro image known last
      rw [mem_singleton.mp last] at known
      exact fresh known
    · exact forall_mem_snoc (fun job before => (told.below job before).trans (lt_succ_self _)) (lt_succ_self _)
    · intro job mem
      rcases mem_snoc.mp mem with before | new
      · exact .inr (.inl ⟨before, not_mem_nil⟩)
      · rw [new]
        exact .inl ⟨fresh, not_mem_nil, rfl⟩
    · intro image absent known
      apply absent
      simp only [Images.next, map_append]
      exact mem_append_left _ known
  | image imageId step =>
    cases found : state.image imageId with
    | none =>
      have same : Images.next limits resets state (.image imageId step) = state := by
        simp [Images.next, found]
      apply told.move
      · rw [same]
        exact told.distinct
      · rw [same]
        exact told.below
      · intro job mem
        rw [same] at mem
        refine .inr (.inl ⟨mem, ?_⟩)
        intro named
        exact find?_eq_none.mp found job mem (decide_eq_true (mem_singleton.mp named))
      · rw [same]
        exact fun _ absent => absent
    | some job =>
      rcases State.image_mem found with ⟨jobMember, rfl⟩
      have moves := step_moves limits resets job state.store state.imageMetrics step
      have move := step_phase limits resets job state.store state.imageMetrics step
      have after := next_image limits resets found step
      have store : (Images.next limits resets state (.image job.id step)).store =
          (step.apply limits resets job state.store state.imageMetrics).store := by
        rw [after]
        rfl
      have images : (Images.next limits resets state (.image job.id step)).images =
          updateWhere (·.id = job.id)
            (fun _ => (step.apply limits resets job state.store state.imageMetrics).job) state.images := by
        rw [after]
      have sameIds : (Images.next limits resets state (.image job.id step)).images.map ImageJob.id =
          state.images.map ImageJob.id := by
        rw [images]
        apply map_updateWhere_of_mem
        intro other _ chosen
        rw [moves.id, of_decide_eq_true chosen]
      have members : ∀ other ∈ (Images.next limits resets state (.image job.id step)).images,
          (other ∈ state.images /\ other.id ≠ job.id) \/
            other = (step.apply limits resets job state.store state.imageMetrics).job := by
        intro other mem
        rw [images] at mem
        exact (mem_updateWhere_key told.distinct jobMember (fun _ chosen => of_decide_eq_true chosen)
          (decide_eq_true rfl)).mp mem
      have nextImage : (Images.next limits resets state (.image job.id step)).nextImage = state.nextImage := by
        rw [after]
        rfl
      apply told.move
      · rw [sameIds]
        exact told.distinct
      · intro other mem
        rw [nextImage]
        rcases members other mem with ⟨old, _⟩ | rfl
        · exact told.below other old
        · rw [moves.id]
          exact told.below job jobMember
      · intro other mem
        rcases members other mem with ⟨old, different⟩ | rfl
        · exact .inr (.inl ⟨old, fun named => different (mem_singleton.mp named)⟩)
        · refine .inr (.inr ⟨job, jobMember, moves.id.symm, mem_singleton.mpr moves.id, ?_⟩)
          rw [store]
          exact move
      · rw [sameIds]
        exact fun _ absent => absent
  | crash images =>
    have sameIds : (Images.next limits resets state (.crash images)).images.map ImageJob.id =
        state.images.map ImageJob.id := map_updateWhere ImageJob.id (fun _ => rfl)
    have members : ∀ job ∈ (Images.next limits resets state (.crash images)).images,
        (job ∈ state.images /\ job.id ∉ images) \/
          ∃ before ∈ state.images, before.id ∈ images /\ job = { before with phase := .dead } := by
      intro job mem
      rcases mem_updateWhere.mp mem with ⟨old, alive⟩ | ⟨old, oldIn, chosen, same⟩
      · exact .inl ⟨old, fun named => alive (decide_eq_true named)⟩
      · exact .inr ⟨old, oldIn, of_decide_eq_true chosen, same.symm⟩
    apply told.move
    · rw [sameIds]
      exact told.distinct
    · intro job mem
      rcases members job mem with ⟨old, _⟩ | ⟨before, old, _, rfl⟩
      · exact told.below job old
      · exact told.below before old
    · intro job mem
      rcases members job mem with ⟨old, alive⟩ | ⟨before, old, named, rfl⟩
      · exact .inr (.inl ⟨old, fun moves => alive (mem_dedup.mp moves)⟩)
      · refine .inr (.inr ⟨before, old, rfl, mem_dedup.mpr named, ?_⟩)
        have nothing : written state.store (Images.next limits resets state (.crash images)).store = [] :=
          written_same rfl
        rw [nothing]
        exact phaseMove_dead before.phase
    · rw [sameIds]
      exact fun _ absent => absent

theorem told_of_trace {limits : ℕ -> TokenLimits} {resets : ℕ -> Resets}
  (trace : (imageMachine limits resets).Trace (events limits resets) past state) : Told past state := by
  apply trace.induct
  · intro start isInitial
    have empty : start = emptyState := isInitial
    subst empty
    constructor
    · exact nodup_nil
    · intro job mem
      cases mem
    · intro _ mem
      cases mem
    · intro _ _
      rfl
  · intro _ _ action told _
    exact told.next action

theorem chargesOf_story (past : List Event) (image : ℕ) : chargesOf past image = chargesOf (story past image) image := by
  unfold chargesOf story
  rw [filterMap_filter]
  apply filterMap_congr
  intro event _
  cases event with
  | taken reservation holder credits => rfl
  | validated other | broken other => simp [about]
  | charged other row => by_cases same : other = image <;> simp [about, same]

theorem validated_mem_story {image : ℕ} : validated image ∈ past ↔ validated image ∈ story past image := by
  rw [story, mem_filter]
  exact ⟨fun mem => ⟨mem, decide_eq_true rfl⟩, fun both => both.1⟩

theorem broken_mem_story {image : ℕ} : broken image ∈ past ↔ broken image ∈ story past image := by
  rw [story, mem_filter]
  exact ⟨fun mem => ⟨mem, decide_eq_true rfl⟩, fun both => both.1⟩

theorem Told.stories (told : Told past state) (image : ℕ) :
  story past image = [] \/ (story past image = [.validated image] /\ state.phase image = some .validated) \/
    story past image = [.validated image, .broken image] \/
    ∃ row, story past image = [.validated image, .charged image row] := by
  by_cases known : image ∈ state.images.map ImageJob.id
  · rcases mem_map.mp known with ⟨job, mem, rfl⟩
    have tells := told.tells job mem
    have phase := told.phase_eq mem
    cases here : job.phase with
    | created | admitted | running =>
      rw [here] at tells
      exact .inl tells
    | validated =>
      rw [here] at tells phase
      exact .inr (.inl ⟨tells, phase⟩)
    | charged =>
      rw [here] at tells
      exact .inr (.inr (.inr tells))
    | failing | refunded | ended =>
      rw [here] at tells
      exact tells.imp_right (fun broken => .inr (.inl broken))
    | dead =>
      rw [here] at tells
      exact tells.imp_right .inr
  · exact .inl (told.unknown image known)

/-- Every request is charged at most once, and only for a validated image. -/
theorem images_charged_once {limits : ℕ -> TokenLimits} {resets : ℕ -> Resets} {past : List Event} {state : State}
  (trace : (imageMachine limits resets).Trace (events limits resets) past state) : (∀ image,
    (chargesOf past image).length <= 1 /\
    (chargesOf past image ≠ [] -> Event.validated image ∈ past /\ Event.broken image ∉ past) /\
    (Event.validated image ∈ past -> (chargesOf past image).length = 1 \/ Event.broken image ∈ past \/
      state.phase image = some .validated)) /\
  (∀ imageId job site now durationMs queueWaitMs, state.image imageId = some job -> job.phase = .validated ->
    job.referenced site ->
    let after := next limits resets state (.image imageId (.charge site now durationMs queueWaitMs true))
    ∃ row, after.store.books.ledger = state.store.books.ledger ++ [row] /\
      ∀ entry ∈ state.store.reservations.rows, job.reservation = some entry.id ->
        row.creditsUsed = entry.creditsReserved /\ entry.id ∉ ids after.store.reservations /\
          Event.taken entry.id (.image imageId) entry.creditsReserved ∈ past) /\
  (∀ action, ∀ row ∈ state.store.reservations.rows,
    row.id ∉ ids (next limits resets state action).store.reservations ->
    (∃ holder, action.holder = some holder /\ Event.taken row.id holder row.creditsReserved ∈ past) \/
      ∃ purges, action.purges = some purges /\ row.updatedAt.getD row.createdAt < ⌊purges.2 - purges.1⌋) /\
  (∀ reservation first second firstCredits secondCredits,
    Event.taken reservation first firstCredits ∈ past ->
    Event.taken reservation second secondCredits ∈ past -> first = second) := by
  have kept := kept_of_trace trace
  have told := told_of_trace trace
  -- a row and the one who remembers its number go together
  have owned : ∀ row holder, row ∈ state.store.reservations.rows -> Remembers state row.id holder ->
      Event.taken row.id holder row.creditsReserved ∈ past := by
    intro row holder mem remembers
    rcases kept.remembered row.id holder remembers with ⟨credits, taken⟩
    rcases kept.stored row mem with ⟨other, stored⟩
    rcases kept.once row.id holder other credits row.creditsReserved taken stored with ⟨rfl, rfl⟩
    exact taken
  refine ⟨?_, ?_, ?_, fun _ _ _ _ _ first second => (kept.once _ _ _ _ _ first second).1⟩
  · intro image
    rw [chargesOf_story, validated_mem_story, broken_mem_story]
    rcases told.stories image with none | ⟨pending, phase⟩ | broken | ⟨row, charged⟩
    · rw [none]
      exact ⟨zero_le _, fun charged => absurd rfl charged, nofun⟩
    · rw [pending]
      exact ⟨zero_le _, fun charged => absurd rfl charged, fun _ => .inr (.inr phase)⟩
    · rw [broken]
      exact ⟨zero_le _, fun charged => absurd rfl charged,
        fun _ => .inr (.inl (mem_cons_of_mem _ mem_cons_self))⟩
    · have single : chargesOf [Event.validated image, .charged image row] image = [row] := by simp [chargesOf]
      rw [charged, single]
      refine ⟨le_refl 1, fun _ => ⟨mem_cons_self, ?_⟩, fun _ => .inl rfl⟩
      simp
  · intro imageId job site now durationMs queueWaitMs found valid referenced after
    rcases State.image_mem found with ⟨jobMember, rfl⟩
    have store : after.store = finalizeReservation site now job state.store := by
      simp only [after, next_image limits resets found, ImageStep.apply, ImageJob.chargeImage, if_pos valid, referenced, Bool.and_true,
        if_true]
      rfl
    refine ⟨job.ledgerRow (job.creditsDue site state.store) ⌊now⌋, by rw [store]; rfl, ?_⟩
    intro entry mem own
    have row : job.row state.store = some entry := by
      rw [ImageJob.row, own]
      exact find_of_key kept.keys mem
    refine ⟨?_, ?_, owned entry _ mem ⟨job, jobMember, rfl, own⟩⟩
    · simp only [ImageJob.ledgerRow, ImageJob.creditsDue, row]
    · rw [store]
      intro present
      rcases mem_map.mp present with ⟨other, otherIn, same⟩
      simp only [finalizeReservation, row] at otherIn
      exact (Answers.mem_rows_refund.mp otherIn).2 (congrArg some same.symm)
  · intro action row mem absent
    rcases (stepMoves_next limits resets state action).table.vanishes row mem absent with
      ⟨holder, isHolder, remembers⟩ | ⟨purges, isPurge, expired⟩
    · exact .inl ⟨holder, isHolder, owned row holder mem remembers⟩
    · exact .inr ⟨purges, isPurge, of_decide_eq_true expired⟩

def studio : Credits.Site := ⟨[⟨1, false⟩], [], [⟨7, .comfyui, ⟨100, none⟩⟩], [], none, none⟩

def unlimited : ℕ -> TokenLimits := fun _ => ⟨some 20000, none⟩

def unreset : ℕ -> Resets := fun _ => noResets

theorem admitted (actions : List Action) (state : State) : (imageMachine unlimited unreset).Admits state actions := by
  induction actions generalizing state with
  | nil => trivial
  | cons action rest ih => exact ⟨trivial, ih _⟩

def producedRun : List Action :=
  [.create 1 false none 7 5000, .image 0 (.admission (some true) true), .image 0 (.reserve studio 10 1200),
    .image 0 (.generated (pngStart ++ [0]))]

/-- A produced image is charged what was reserved for it. -/
theorem images_charged_once_produced : ∃ past state,
    (imageMachine unlimited unreset).Trace (events unlimited unreset) past state /\
    (chargesOf past 0).map LedgerRow.creditsUsed = [5] /\ Event.validated 0 ∈ past := by
  have start : (imageMachine unlimited unreset).Trace (events unlimited unreset) [] emptyState := .start rfl
  have trace := start.run (producedRun ++ [.image 0 (.charge studio 20 9000 1000 true)]) (admitted _ _)
  refine ⟨_, _, trace, by decide +kernel, ?_⟩
  exact ((images_charged_once trace).1 0).2.1 (by decide +kernel) |>.1

/-- The process dies between the validation of an image and its charge: nothing
is charged, and the next reservation expires the one it left behind. -/
theorem image_left_uncharged : ∃ past state,
    (imageMachine unlimited unreset).Trace (events unlimited unreset) past state /\
    Event.validated 0 ∈ past /\ chargesOf past 0 = [] /\ state.phase 0 = some .dead /\
    (∃ row ∈ state.store.reservations.rows, Event.taken row.id (.image 0) row.creditsReserved ∈ past /\
      row.id ∉ ids (next unlimited unreset state (.image 1 (.reserve studio 5000 1200))).store.reservations) := by
  have start : (imageMachine unlimited unreset).Trace (events unlimited unreset) [] emptyState := .start rfl
  have trace := start.run
    (producedRun ++ [.crash [0], .create 1 false none 7 5000, .image 1 (.admission (some true) true)]) (admitted _ _)
  exact ⟨_, _, trace, by decide +kernel, by decide +kernel, by decide +kernel,
    ⟨⟨0, 1, none, some 7, 5, 10, some 10⟩, by decide +kernel, by decide +kernel, by decide +kernel⟩⟩

end BananaChat.Images

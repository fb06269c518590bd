import BananaChat.Queue.Safety

namespace BananaChat.Queue

open Foundation Rows QueueRow

/-!
# Whether the next request starts

Two rules say that an owner is running already. The queries count the live running rows of the
lane, the unique index every running row.
-/

structure Unseen (glance : Glance) (row other : QueueRow) : Prop where
  running : other.status = .running
  owner : other.ownerKey = row.ownerKey
  named : row.ownerKey ≠ none
  uncounted : other.heartbeatAt < glance.cutoff \/ other.lane ≠ glance.lane

variable {config : Config} {glance : Glance} {rows : List QueueRow} {row : QueueRow}

theorem runsFor_iff {key : String} : row.runsFor key ↔ row.status = .running /\ row.ownerKey = some key := by
  unfold runsFor runs ownedBy
  rw [Bool.and_eq_true, decide_eq_true_eq, decide_eq_true_eq]

theorem waitsAs_iff {requestId : ℕ} : row.waitsAs requestId ↔ row.requestId = requestId /\ row.status = .waiting := by
  unfold waitsAs named
  rw [Bool.and_eq_true, decide_eq_true_eq, Bool.not_eq_true', status_waiting_iff]

theorem started_mem (mem : row ∈ rows) (waiting : row.status = .waiting) (now : ℚ) :
  row.started now ∈ startedRows now row.requestId rows :=
  mem_updateWhere.mpr (.inr ⟨row, mem, waitsAs_iff.mpr ⟨rfl, waiting⟩, rfl⟩)

theorem unseen_of_runsFor (may : Eligible glance rows row) {key : String} (keyed : row.ownerKey = some key)
  {other : QueueRow} (mem : other ∈ rows) (runs : other.runsFor key) : Unseen glance row other := by
  rcases runsFor_iff.mp runs with ⟨running, owner⟩
  have sameOwner : other.ownerKey = row.ownerKey := owner.trans keyed.symm
  have named : row.ownerKey ≠ none := by
    rw [keyed]
    exact Option.some_ne_none key
  refine ⟨running, sameOwner, named, ?_⟩
  by_cases live : glance.cutoff <= other.heartbeatAt
  · right
    intro here
    exact named (may.owner other mem running live here sameOwner)
  · exact .inl (lt_of_not_ge live)

theorem index_startedRows_iff (distinct : (rows.map requestId).Nodup) (index : (ownerRunningIndex rows).Nodup)
  (mem : row ∈ rows) (may : Eligible glance rows row) (now : ℚ) :
  (ownerRunningIndex (startedRows now row.requestId rows)).Nodup ↔ ∀ other ∈ rows, ¬ Unseen glance row other := by
  constructor
  · intro unique other otherIn unseen
    rcases Option.ne_none_iff_exists'.mp unseen.named with ⟨key, keyed⟩
    have once := (ownerRunningIndex_nodup_iff _).mp unique key
    have otherKept : other ∈ startedRows now row.requestId rows := by
      apply mem_updateWhere.mpr
      left
      refine ⟨otherIn, fun waits => ?_⟩
      have waiting := (waitsAs_iff.mp waits).2
      rw [unseen.running] at waiting
      cases waiting
    have isOther : row.started now = other :=
      eq_of_countP_le_one once (started_mem mem may.waiting now) (runsFor_iff.mpr ⟨rfl, keyed⟩) otherKept
        (runsFor_iff.mpr ⟨unseen.running, unseen.owner.trans keyed⟩)
    have sameRequest : (row.started now).requestId = other.requestId := congrArg requestId isOther
    have isRow : row = other := eq_of_key distinct mem otherIn sameRequest
    have running := unseen.running
    rw [<- isRow, may.waiting] at running
    cases running
  · intro seen
    rw [ownerRunningIndex_nodup_iff]
    intro key
    by_cases keyed : row.ownerKey = some key
    · have none : rows.countP (runsFor key) = 0 := by
        rw [List.countP_eq_zero]
        intro other otherIn runs
        exact seen other otherIn (unseen_of_runsFor may keyed otherIn runs)
      have raised : (startedRows now row.requestId rows).countP (runsFor key) <=
          rows.countP (runsFor key) + affected (waitsAs row.requestId) rows :=
        countP_updateWhere_le_add _
      have one := affected_waitsAs_le distinct row.requestId
      omega
    · apply le_trans _ ((ownerRunningIndex_nodup_iff rows).mp index key)
      apply countP_updateWhere_le
      intro other otherIn waits runs
      have isRow : other = row := eq_of_key distinct otherIn mem (waitsAs_iff.mp waits).1
      rw [isRow] at runs
      exact absurd (runsFor_iff.mp runs).2 keyed

theorem tryStart_of_mayStart (now : ℚ) {requestId : ℕ} {modelName : Option String}
  (may : mayStart config glance requestId modelName rows) : tryStart config glance now requestId modelName rows =
    if (ownerRunningIndex (startedRows now requestId rows)).Nodup then
      .ok (startedRows now requestId rows, decide (affected (waitsAs requestId) rows = 1))
    else .error .ownerRunning := by
  unfold tryStart
  rw [if_pos may]
  unfold mayStart at may
  rw [Bool.and_eq_true, Bool.and_eq_true, decide_eq_true_eq] at may
  unfold startTransaction
  rw [if_neg (by rw [not_or, not_le, Bool.not_eq_false]; exact may.1)]
  unfold setRunning
  by_cases unique : (ownerRunningIndex (startedRows now requestId rows)).Nodup
  · rw [if_pos unique, if_pos unique]
  · rw [if_neg unique, if_neg unique]

/-- In every reachable table a request that is next, with a free place and the
memory it needs, starts if and only if the queries count every running row of
its owner. -/
theorem next_starts_iff (config : Config) {state : QueueState} (reachable : (queueMachine config).Reachable state)
  (glance : Glance) (now : ℚ) (modelName : Option String) {row : QueueRow} (mem : row ∈ state.rows)
  (may : mayStart config glance row.requestId modelName state.rows) :
  (∃ after, tryStart config glance now row.requestId modelName state.rows = .ok (after, true) /\
      row.started now ∈ after) ↔
    ∀ other ∈ state.rows, ¬ Unseen glance row other := by
  have kept := (queueKept_invariant config).reachable reachable
  have next : isNext glance state.rows row.requestId := by
    unfold mayStart at may
    rw [Bool.and_eq_true, Bool.and_eq_true] at may
    exact may.1.2
  rcases exists_of_isNext next with ⟨first, firstMember, sameRequest, firstEligible, _⟩
  have isRow : first = row := eq_of_key kept.bounded.distinct firstMember mem sameRequest
  rw [isRow] at firstEligible
  have eligible := eligible_iff.mp firstEligible
  have started := started_mem mem eligible.waiting now
  have affected : affected (QueueRow.waitsAs row.requestId) state.rows = 1 := by
    apply Nat.le_antisymm (affected_waitsAs_le kept.bounded.distinct row.requestId)
    exact List.countP_pos_iff.mpr ⟨row, mem, waitsAs_iff.mpr ⟨rfl, eligible.waiting⟩⟩
  rw [<- index_startedRows_iff kept.bounded.distinct kept.bounded.index mem eligible now,
    tryStart_of_mayStart now may, affected]
  constructor
  · rintro ⟨after, done, _⟩
    by_contra violated
    rw [if_neg violated] at done
    cases done
  · intro unique
    rw [if_pos unique]
    exact ⟨_, rfl, started⟩

def secondRequest : QueueRow := ⟨1, 1, 3, .waiting, 200, 0, none, 60, some "user:1", none, .localLane⟩

def twoRequests : List QueueAction :=
  [.enter 1 100 0 ⟨3, some "user:1", none, .localLane⟩, .enter 2 200 0 ⟨3, some "user:1", none, .localLane⟩,
    .readClock 0 .localLane, .start ⟨0, .localLane, -90⟩ 0 true [], .tick 60, .renew 60 0, .renew 60 1]

def twoPlaces : Config := ⟨2, 2, 9⟩

def releasedQueue : QueueState := (queueMachine twoPlaces).run emptyQueue (twoRequests ++ [.release 1 0])

theorem next_starts_iff_witness : ∃ after,
    tryStart twoPlaces ⟨-30, .localLane, true, []⟩ 60 1 none releasedQueue.rows = .ok (after, true) /\
      secondRequest.started 60 ∈ after := by
  have reachable : (queueMachine twoPlaces).Reachable releasedQueue := by
    apply Machine.Reachable.run
    · exact .start ⟨rfl, rfl, rfl⟩
    · decide +kernel
  have alone : releasedQueue.rows = [secondRequest] := by decide +kernel
  have mem : secondRequest ∈ releasedQueue.rows := by
    rw [alone]
    exact List.mem_singleton_self secondRequest
  apply (next_starts_iff twoPlaces reachable ⟨-30, .localLane, true, []⟩ 60 none mem (by decide +kernel)).mpr
  intro other otherIn unseen
  rw [alone, List.mem_singleton] at otherIn
  have running := unseen.running
  rw [otherIn] at running
  cases running

/-- While a place is free and a request may run, the first such request starts, unless a row of its owner is
running uncounted. -/
theorem some_request_starts (config : Config) {state : QueueState} (reachable : (queueMachine config).Reachable state)
  (glance : Glance) (now : ℚ) (free : runningIn glance.cutoff glance.lane state.rows < (limits config glance.lane).1)
  {row : QueueRow} (mem : row ∈ state.rows) (may : Eligible glance state.rows row) :
  ∃ first ∈ state.rows, first.order <= row.order /\ Eligible glance state.rows first /\
    (first.modelName ≠ some "" -> (∀ other ∈ state.rows, ¬ Unseen glance first other) -> ∃ after,
      tryStart config glance now first.requestId first.modelName state.rows = .ok (after, true) /\ first.started now ∈ after) := by
  have kept := (queueKept_invariant config).reachable reachable
  have waits : row ∈ state.rows.filter (eligible glance state.rows) := List.mem_filter.mpr ⟨mem, eligible_iff.mpr may⟩
  cases found : firstEligible glance state.rows with
  | none => exact absurd (List.argmin_eq_none.mp found) (List.ne_nil_of_mem waits)
  | some first =>
    have isFirst := List.mem_filter.mp (List.argmin_mem found)
    have firstMay := eligible_iff.mp isFirst.2
    refine ⟨first, isFirst.1, List.le_of_mem_argmin waits found, firstMay, fun named seen => ?_⟩
    have next : isNext glance state.rows first.requestId := by
      unfold isNext
      rw [found]
      exact decide_eq_true rfl
    have memory : ((glance.lane = .hostedLane) || modelMemoryOk glance.models glance.memoryOk first.modelName) := by
      have spared := firstMay.memory
      cases lane : glance.lane <;> cases memoryOk : glance.memoryOk <;> cases model : first.modelName <;>
        grind [modelMemoryOk, hostedName]
    have starts : mayStart config glance first.requestId first.modelName state.rows := by
      unfold mayStart
      rw [decide_eq_true free, next, memory]
      rfl
    have once : affected (waitsAs first.requestId) state.rows = 1 := by
      apply Nat.le_antisymm (affected_waitsAs_le kept.bounded.distinct first.requestId)
      exact List.countP_pos_iff.mpr ⟨first, isFirst.1, waitsAs_iff.mpr ⟨rfl, firstMay.waiting⟩⟩
    have unique := (index_startedRows_iff kept.bounded.distinct kept.bounded.index isFirst.1 firstMay now).mpr seen
    rw [tryStart_of_mayStart now starts, if_pos unique, once]
    exact ⟨_, rfl, started_mem isFirst.1 firstMay.waiting now⟩

theorem some_request_starts_released :
    ∃ first ∈ releasedQueue.rows, Eligible ⟨-30, .localLane, true, []⟩ releasedQueue.rows first := by
  have begun : (queueMachine twoPlaces).Reachable emptyQueue := .start ⟨rfl, rfl, rfl⟩
  have mem : secondRequest ∈ releasedQueue.rows := by decide +kernel
  rcases some_request_starts twoPlaces (begun.run _ (by decide +kernel)) ⟨-30, .localLane, true, []⟩ 60 (by decide +kernel) mem
    (eligible_iff.mp (by decide +kernel)) with ⟨first, firstIn, _, may, _⟩
  exact ⟨first, firstIn, may⟩

def crashedQueue : QueueState :=
  (queueMachine twoPlaces).run emptyQueue (twoRequests ++ [.crash 1, .tick 120, .renew 120 1, .tick 151])

/-- The second request is next there, and the update that should start it
violates the unique index. -/
theorem next_may_fail : ¬ ∀ (config : Config) (state : QueueState), (queueMachine config).Reachable state ->
    ∀ (memoryOk : Bool) (models : List AiModel) (modelName : Option String) (row : QueueRow), row ∈ state.rows ->
      mayStart config ⟨state.cutoff, row.lane, memoryOk, models⟩ row.requestId modelName state.rows ->
      ∃ after,
        tryStart config ⟨state.cutoff, row.lane, memoryOk, models⟩ state.clock row.requestId modelName state.rows =
          .ok (after, true) := by
  intro always
  have reachable : (queueMachine twoPlaces).Reachable crashedQueue := by
    apply Machine.Reachable.run
    · exact .start ⟨rfl, rfl, rfl⟩
    · decide +kernel
  let row := secondRequest.renewed 120
  rcases always twoPlaces crashedQueue reachable true [] none row (by decide +kernel) (by decide +kernel) with
    ⟨after, started⟩
  have failed : tryStart twoPlaces ⟨crashedQueue.cutoff, row.lane, true, []⟩ crashedQueue.clock row.requestId none
      crashedQueue.rows = .error .ownerRunning := by
    decide +kernel
  rw [failed] at started
  cases started

end BananaChat.Queue

import BananaChat.Queue.Slots

namespace BananaChat.Queue

open Foundation List Rows QueueRow
open Bool (and_eq_true)

/-!
# The queue keeps its bounds and its order

`Bounded` holds of the table at a cutoff.
-/

namespace QueueRow

def runsFor (key : String) (row : QueueRow) : Bool := row.runs && row.ownedBy key

end QueueRow

structure Bounded (config : Config) (cutoff : ℚ) (rows : List QueueRow) : Prop where
  distinct : (rows.map QueueRow.requestId).Nodup
  places : ∀ lane, runningIn cutoff lane rows <= (limits config lane).1
  depth : ∀ lane, rows.countP (QueueRow.inLane lane) <= (limits config lane).2
  owners : ∀ key, rows.countP (QueueRow.ownedBy key) <= maxPerOwner
  index : (ownerRunningIndex rows).Nodup

variable {first second : ℚ} {row : QueueRow}

theorem live_of_le (earlier : first <= second) (live : row.live second) :
  row.live first := by
  unfold QueueRow.live at live ⊢
  rw [decide_eq_true_eq] at live ⊢
  exact le_trans earlier live

theorem runningIn_anti (earlier : first <= second) (lane : Lane) (rows : List QueueRow) :
  runningIn second lane rows <= runningIn first lane rows := by
  apply countP_mono_left
  intro _ _ counted
  rw [and_eq_true, and_eq_true] at counted ⊢
  exact ⟨⟨counted.1.1, live_of_le earlier counted.1.2⟩, counted.2⟩

theorem count_ownerRunningIndex (key : String) (rows : List QueueRow) :
  (ownerRunningIndex rows).count key = rows.countP (runsFor key) := by
  unfold ownerRunningIndex
  induction rows with
  | nil => rfl
  | cons row rest ih =>
    rw [countP_cons, <- ih, filterMap_cons]
    unfold runsFor ownedBy
    by_cases isRunning : row.runs
    · cases owner : row.ownerKey with
      | none => simp [isRunning]
      | some other =>
        by_cases same : other = key
        · simp [isRunning, same]
        · simp [isRunning, same]
    · simp [isRunning]

theorem ownerRunningIndex_nodup_iff (rows : List QueueRow) :
  (ownerRunningIndex rows).Nodup ↔ ∀ key, rows.countP (runsFor key) <= 1 := by
  rw [nodup_iff_count_le_one]
  simp [count_ownerRunningIndex]

structure Fewer (cutoff : ℚ) (after before : List QueueRow) : Prop where
  requests : (after.map QueueRow.requestId).Sublist (before.map QueueRow.requestId)
  status : ∀ row ∈ after,
    ∃ old ∈ before, old.requestId = row.requestId /\ old.status = row.status
  places : ∀ lane, runningIn cutoff lane after <= runningIn cutoff lane before
  depth : ∀ lane, after.countP (QueueRow.inLane lane) <= before.countP (QueueRow.inLane lane)
  owners : ∀ key, after.countP (QueueRow.ownedBy key) <= before.countP (QueueRow.ownedBy key)
  index : ∀ key, after.countP (QueueRow.runsFor key) <= before.countP (QueueRow.runsFor key)

variable {config : Config} {cutoff : ℚ} {rows : List QueueRow}

theorem Fewer.refl : Fewer cutoff rows rows where
  requests := List.Sublist.refl _
  status := fun row mem => ⟨row, mem, rfl, rfl⟩
  places := fun _ => le_refl _
  depth := fun _ => le_refl _
  owners := fun _ => le_refl _
  index := fun _ => le_refl _

theorem Fewer.trans {first second third : List QueueRow} (left : Fewer cutoff first second)
  (right : Fewer cutoff second third) : Fewer cutoff first third where
  requests := left.requests.trans right.requests
  status := by
    intro row mem
    rcases left.status row mem with ⟨middle, middleMember, sameRequest, sameStatus⟩
    rcases right.status middle middleMember with ⟨old, oldIn, oldRequest, oldStatus⟩
    exact ⟨old, oldIn, oldRequest.trans sameRequest, oldStatus.trans sameStatus⟩
  places := fun lane => le_trans (left.places lane) (right.places lane)
  depth := fun lane => le_trans (left.depth lane) (right.depth lane)
  owners := fun key => le_trans (left.owners key) (right.owners key)
  index := fun key => le_trans (left.index key) (right.index key)

variable {after : List QueueRow}

theorem Bounded.fewer (bounded : Bounded config cutoff rows) (fewer : Fewer cutoff after rows) :
  Bounded config cutoff after where
  distinct := bounded.distinct.sublist fewer.requests
  places := fun lane => le_trans (fewer.places lane) (bounded.places lane)
  depth := fun lane => le_trans (fewer.depth lane) (bounded.depth lane)
  owners := fun key => le_trans (fewer.owners key) (bounded.owners key)
  index := by
    rw [ownerRunningIndex_nodup_iff]
    intro key
    exact le_trans (fewer.index key) ((ownerRunningIndex_nodup_iff rows).mp bounded.index key)

theorem Bounded.later (bounded : Bounded config cutoff rows) (later : cutoff <= second) :
  Bounded config second rows :=
  { bounded with places := fun lane => le_trans (runningIn_anti later lane rows) (bounded.places lane) }

theorem fewer_deleteWhere (selected : QueueRow -> Bool) : Fewer cutoff (deleteWhere selected rows) rows where
  requests := deleteWhere_sublist.map requestId
  status := fun row mem => ⟨row, (mem_deleteWhere.mp mem).1, rfl, rfl⟩
  places := fun _ => countP_deleteWhere_le _
  depth := fun _ => countP_deleteWhere_le _
  owners := fun _ => countP_deleteWhere_le _
  index := fun _ => countP_deleteWhere_le _

/-- A change that leaves alone what the bounds read of a row, its heartbeat
apart. -/
structure Harmless (change : QueueRow -> QueueRow) : Prop where
  requestId : ∀ row, (change row).requestId = row.requestId
  status : ∀ row, (change row).status = row.status
  ownerKey : ∀ row, (change row).ownerKey = row.ownerKey
  lane : ∀ row, (change row).lane = row.lane

theorem fewer_updateWhere {selected : QueueRow -> Bool} {change : QueueRow -> QueueRow} (harmless : Harmless change)
  (alive : ∀ row ∈ rows, selected row -> (change row).live cutoff -> row.live cutoff) :
  Fewer cutoff (updateWhere selected change rows) rows where
  requests := map_updateWhere_sublist QueueRow.requestId harmless.requestId
  status := by
    intro row mem
    rcases mem_updateWhere.mp mem with ⟨old, _⟩ | ⟨old, oldIn, _, rfl⟩
    · exact ⟨row, old, rfl, rfl⟩
    · exact ⟨old, oldIn, (harmless.requestId old).symm, (harmless.status old).symm⟩
  places := by
    intro lane
    apply countP_updateWhere_le
    intro row mem chosen counted
    rw [and_eq_true, and_eq_true] at counted ⊢
    refine ⟨⟨?_, alive row mem chosen counted.1.2⟩, ?_⟩
    · have runs := counted.1.1
      unfold QueueRow.runs at runs ⊢
      rwa [harmless.status] at runs
    · have inLane := counted.2
      unfold QueueRow.inLane at inLane ⊢
      rwa [harmless.lane] at inLane
  depth := by
    intro _
    apply countP_updateWhere_le
    intro row _ _ counted
    unfold QueueRow.inLane at counted ⊢
    rwa [harmless.lane] at counted
  owners := by
    intro key
    apply countP_updateWhere_le
    intro row _ _ counted
    unfold QueueRow.ownedBy at counted ⊢
    rwa [harmless.ownerKey] at counted
  index := by
    intro _
    apply countP_updateWhere_le
    intro _ _ _ counted
    unfold QueueRow.runsFor QueueRow.runs QueueRow.ownedBy at counted ⊢
    rwa [harmless.status, harmless.ownerKey] at counted

theorem fewer_setModel (requestId : ℕ) (modelName : Option String) : Fewer cutoff (setModel requestId modelName rows) rows :=
  fewer_updateWhere ⟨fun _ => rfl, fun _ => rfl, fun _ => rfl, fun _ => rfl⟩ (fun _ _ _ live => live)

theorem fewer_renew {requestId : ℕ} (now : ℚ) (kept : ∀ row ∈ rows, row.requestId = requestId -> row.live cutoff) :
  Fewer cutoff (renew now requestId rows) rows := by
  refine fewer_updateWhere ⟨fun _ => rfl, fun _ => rfl, fun _ => rfl, fun _ => rfl⟩ ?_
  intro row mem chosen _
  exact kept row mem (of_decide_eq_true chosen)

theorem fewer_expireProcess (now : ℚ) (pid : ℕ) : Fewer cutoff (expireProcess now pid rows) rows := by
  refine fewer_updateWhere ⟨fun _ => rfl, fun _ => rfl, fun _ => rfl, fun _ => rfl⟩ ?_
  intro _ _ chosen live
  have lowered := (of_decide_eq_true chosen).2
  unfold QueueRow.live at live ⊢
  rw [decide_eq_true_eq] at live ⊢
  exact le_trans live (le_of_lt lowered)

theorem fewer_release (requestId : ℕ) : Fewer cutoff (release requestId rows) rows := fewer_deleteWhere _

theorem fewer_releases (requests : List ℕ) :
  Fewer cutoff (requests.foldl (fun rows requestId => release requestId rows) rows) rows := by
  induction requests generalizing rows with
  | nil => exact Fewer.refl
  | cons requestId rest ih => exact ih.trans (fewer_release requestId)

variable {now : ℚ} {entry : Entry}

theorem enter_spec {pid requestId seq : ℕ} (entered : enter config now pid requestId seq entry rows = some after) :
  after = removeExpired now rows ++ [entry.row now pid requestId seq] /\
    (removeExpired now rows).countP (inLane entry.lane) < (limits config entry.lane).2 /\
    ownerFull (ownerKeyIn entry.lane entry.owner) (removeExpired now rows) = false := by
  unfold enter at entered
  by_cases full : (limits config entry.lane).2 <= (removeExpired now rows).countP (inLane entry.lane)
  · rw [if_pos full] at entered
    exact absurd entered (Option.some_ne_none after).symm
  · rw [if_neg full] at entered
    by_cases crowded : ownerFull (ownerKeyIn entry.lane entry.owner) (removeExpired now rows)
    · rw [if_pos crowded] at entered
      exact absurd entered (Option.some_ne_none after).symm
    · rw [if_neg crowded] at entered
      exact ⟨(Option.some.inj entered).symm, Nat.lt_of_not_le full, Bool.eq_false_of_not_eq_true crowded⟩

theorem ownerKeyIn_ne_empty {owner : Option String} (named : owner ≠ some "") (lane : Lane) :
  ownerKeyIn lane owner ≠ some "" := by
  cases owner with
  | none => exact Option.some_ne_none "" |>.symm
  | some name =>
    simp only [ownerKeyIn]
    split
    · intro same
      have lengths := congrArg String.length (Option.some.inj same)
      rw [String.length_append] at lengths
      have positive : 0 < ":hosted".length := by decide
      have empty : "".length = 0 := rfl
      omega
    · exact named

theorem countP_ownedBy_lt {key : String} (named : key ≠ "") (room : ownerFull (some key) rows = false) :
  rows.countP (ownedBy key) < maxPerOwner := by
  unfold ownerFull at room
  rw [Bool.and_eq_false_iff] at room
  rcases room with unnamed | room
  · exact absurd named (of_decide_eq_false unnamed)
  · exact Nat.lt_of_not_le (of_decide_eq_false room)

theorem Bounded.enter {pid requestId seq : ℕ}
  (bounded : Bounded config cutoff rows) (fresh : requestId ∉ rows.map QueueRow.requestId) (named : entry.owner ≠ some "")
  (entered : enter config now pid requestId seq entry rows = some after) : Bounded config cutoff after := by
  rcases enter_spec entered with ⟨rfl, room, share⟩
  have kept : Bounded config cutoff (removeExpired now rows) := bounded.fewer (fewer_deleteWhere _)
  constructor
  · rw [map_append, map_singleton, <- concat_eq_append]
    apply List.Nodup.concat _ kept.distinct
    intro mem
    exact fresh ((deleteWhere_sublist.map QueueRow.requestId).subset mem)
  · intro lane
    unfold runningIn
    rw [countP_append, countP_singleton]
    exact kept.places lane
  · intro lane
    rw [countP_append, countP_singleton]
    by_cases same : entry.lane = lane
    · subst same
      have counted : QueueRow.inLane entry.lane (entry.row now pid requestId seq) := decide_eq_true rfl
      rw [if_pos counted]
      exact room
    · have uncounted : ¬ QueueRow.inLane lane (entry.row now pid requestId seq) := by
        intro counted
        exact same (of_decide_eq_true counted)
      rw [if_neg uncounted, Nat.add_zero]
      exact kept.depth lane
  · intro key
    rw [countP_append, countP_singleton]
    by_cases same : ownerKeyIn entry.lane entry.owner = some key
    · have keyed : key ≠ "" := by
        rintro rfl
        exact ownerKeyIn_ne_empty named entry.lane same
      rw [same] at share
      have below := countP_ownedBy_lt keyed share
      split
      · exact below
      · exact le_of_lt below
    · have uncounted : ¬ QueueRow.ownedBy key (entry.row now pid requestId seq) := by
        intro counted
        exact same (of_decide_eq_true counted)
      rw [if_neg uncounted, Nat.add_zero]
      exact kept.owners key
  · rw [ownerRunningIndex_nodup_iff]
    intro key
    rw [countP_append, countP_singleton]
    exact (ownerRunningIndex_nodup_iff _).mp kept.index key

theorem startTransaction_cases (config : Config) (glance : Glance) (now : ℚ) (requestId : ℕ) (rows : List QueueRow) :
  startTransaction config glance now requestId rows = .ok (rows, false) \/
    startTransaction config glance now requestId rows = .error .ownerRunning \/
    (∃ count, startTransaction config glance now requestId rows = .ok (startedRows now requestId rows, count)) /\
      runningIn glance.cutoff glance.lane rows < (limits config glance.lane).1 /\ isNext glance rows requestId /\
      (ownerRunningIndex (startedRows now requestId rows)).Nodup := by
  unfold startTransaction
  by_cases closed : (limits config glance.lane).1 <= runningIn glance.cutoff glance.lane rows \/ isNext glance rows requestId = false
  · rw [if_pos closed]
    exact .inl rfl
  · rw [if_neg closed]
    rw [not_or, not_le, Bool.not_eq_false] at closed
    by_cases unique : (ownerRunningIndex (startedRows now requestId rows)).Nodup
    · have updated : setRunning now requestId rows = .ok (startedRows now requestId rows, _) := if_pos unique
      rw [updated]
      exact .inr (.inr ⟨⟨_, rfl⟩, closed.1, closed.2, unique⟩)
    · have violated : setRunning now requestId rows = .error .ownerRunning := if_neg unique
      rw [violated]
      exact .inr (.inl rfl)

theorem affected_waitsAs_le (distinct : (rows.map requestId).Nodup) (requestId : ℕ) :
  affected (waitsAs requestId) rows <= 1 := by
  have byKey := affected_key distinct requestId
  have fewer : affected (waitsAs requestId) rows <=
      affected (·.requestId = requestId) rows := by
    apply countP_mono_left
    intro _ _ waits
    exact (and_eq_true _ _ |>.mp waits).1
  split at byKey <;> omega

theorem Bounded.start {glance : Glance} {now : ℚ} {requestId : ℕ} (bounded : Bounded config cutoff rows)
  (earlier : glance.cutoff <= cutoff) (room : runningIn glance.cutoff glance.lane rows < (limits config glance.lane).1)
  (next : isNext glance rows requestId) (unique : (ownerRunningIndex (startedRows now requestId rows)).Nodup) :
  Bounded config cutoff (startedRows now requestId rows) := by
  rcases exists_of_isNext next with ⟨first, mem, same, isEligible, _⟩
  have inLane : first.lane = glance.lane := by
    unfold eligible QueueRow.inLane at isEligible
    simp only [and_eq_true, decide_eq_true_eq] at isEligible
    exact isEligible.1.1.2
  constructor
  · have keys : (startedRows now requestId rows).map QueueRow.requestId = rows.map QueueRow.requestId :=
      map_updateWhere QueueRow.requestId (fun _ => rfl)
    rw [keys]
    exact bounded.distinct
  · intro lane
    by_cases here : lane = glance.lane
    · subst here
      have counted : runningIn cutoff glance.lane (startedRows now requestId rows) <=
          runningIn cutoff glance.lane rows + affected (QueueRow.waitsAs requestId) rows :=
        countP_updateWhere_le_add _
      have one := affected_waitsAs_le bounded.distinct requestId
      have later := runningIn_anti earlier glance.lane rows
      omega
    · apply le_trans _ (bounded.places lane)
      apply countP_updateWhere_le
      intro row rowMember waits counted
      have isFirst : row = first := by
        apply eq_of_key bounded.distinct rowMember mem
        rw [same]
        exact of_decide_eq_true (and_eq_true _ _ |>.mp waits).1
      have rowLane : row.lane = lane := of_decide_eq_true (and_eq_true _ _ |>.mp counted).2
      rw [isFirst, inLane] at rowLane
      exact absurd rowLane.symm here
  · intro lane
    exact le_trans (countP_updateWhere_le fun _ _ _ counted => counted) (bounded.depth lane)
  · intro key
    exact le_trans (countP_updateWhere_le fun _ _ _ counted => counted) (bounded.owners key)
  · exact unique

structure QueueKept (config : Config) (state : QueueState) : Prop where
  bounded : Bounded config state.cutoff state.rows
  fresh : ∀ row ∈ state.rows, row.requestId < state.nextRequest
  attempts : ∀ attempt ∈ state.attempts, attempt.cutoff <= state.cutoff
  leases : LeasesKept state

theorem QueueKept.take {state after : QueueState} (kept : QueueKept config state) (leases : LeasesKept after)
  (fewer : Fewer state.cutoff after.rows state.rows) (sameClock : after.clock = state.clock)
  (sameRequest : after.nextRequest = state.nextRequest)
  (sameAttempts : ∀ attempt ∈ after.attempts, attempt ∈ state.attempts) : QueueKept config after := by
  have sameCutoff : after.cutoff = state.cutoff := congrArg (· - leaseSeconds) sameClock
  constructor
  · rw [sameCutoff]
    exact kept.bounded.fewer fewer
  · intro _ mem
    rcases mem_map.mp (fewer.requests.subset (mem_map_of_mem mem)) with ⟨old, oldIn, same⟩
    rw [sameRequest, <- same]
    exact kept.fresh old oldIn
  · intro attempt mem
    rw [sameCutoff]
    exact kept.attempts attempt (sameAttempts attempt mem)
  · exact leases

theorem QueueKept.next {state : QueueState} {action : QueueAction} (kept : QueueKept config state)
  (allowed : Allowed state action) (leases : LeasesKept (queueNext config state action)) :
  QueueKept config (queueNext config state action) := by
  cases action with
  | tick now =>
    have later : state.cutoff <= now - leaseSeconds := sub_le_sub_right allowed leaseSeconds
    exact ⟨kept.bounded.later later, kept.fresh, fun attempt mem => le_trans (kept.attempts attempt mem) later,
      leases⟩
  | enter process pid now entry =>
    cases entered : enter config now pid state.nextRequest state.nextSeq entry state.rows with
    | none =>
      simp only [queueNext, entered] at leases ⊢
      exact kept
    | some rows =>
      simp only [queueNext, entered] at leases ⊢
      have fresh : state.nextRequest ∉ state.rows.map requestId := by
        intro mem
        rcases mem_map.mp mem with ⟨row, rowMember, same⟩
        exact absurd (kept.fresh row rowMember) (by omega)
      refine ⟨kept.bounded.enter fresh allowed.2 entered, ?_, kept.attempts, leases⟩
      rcases enter_spec entered with ⟨rfl, _, _⟩
      intro row mem
      rcases mem_snoc.mp mem with old | new
      · exact Nat.lt_succ_of_lt (kept.fresh row (mem_deleteWhere.mp old).1)
      · rw [new]
        exact Nat.lt_succ_self state.nextRequest
  | setModel requestId modelName =>
    exact kept.take leases (fewer_setModel requestId modelName) rfl rfl (fun _ mem => mem)
  | readClock requestId lane =>
    refine ⟨kept.bounded, kept.fresh, ?_, leases⟩
    intro attempt mem
    rcases mem_cons.mp mem with rfl | old
    · exact le_refl state.cutoff
    · exact kept.attempts attempt old
  | start attempt now memoryOk models =>
    have earlier : (attempt.glance memoryOk models).cutoff <= state.cutoff := kept.attempts attempt allowed.1
    have ended : ∀ other ∈ state.attempts.erase attempt, other ∈ state.attempts :=
      fun _ mem => mem_of_mem_erase mem
    rcases startTransaction_cases config (attempt.glance memoryOk models) now attempt.requestId state.rows with
      refused | violated | ⟨⟨count, started⟩, room, next, unique⟩
    · simp only [queueNext, refused] at leases ⊢
      exact kept.take leases Fewer.refl rfl rfl ended
    · simp only [queueNext, violated] at leases ⊢
      exact kept.take leases Fewer.refl rfl rfl ended
    · simp only [queueNext, started] at leases ⊢
      refine ⟨kept.bounded.start earlier room next unique, ?_, fun other mem => kept.attempts other (ended other mem),
        leases⟩
      intro row mem
      rcases mem_updateWhere.mp mem with ⟨old, _⟩ | ⟨old, oldIn, _, rfl⟩
      · exact kept.fresh row old
      · exact kept.fresh old oldIn
  | renew now requestId =>
    refine kept.take leases (fewer_renew now ?_) rfl rfl (fun _ mem => mem)
    intro row mem same
    exact kept.leases row mem (same ▸ allowed.1)
  | release process requestId => exact kept.take leases (fewer_release requestId) rfl rfl (fun _ mem => mem)
  | lose process requestId | crash process => exact kept.take leases Fewer.refl rfl rfl (fun _ mem => mem)
  | releaseProcess process =>
    exact kept.take leases (fewer_releases (state.heldBy process)) rfl rfl (fun _ mem => mem)
  | expireProcess now pid => exact kept.take leases (fewer_expireProcess now pid) rfl rfl (fun _ mem => mem)

theorem queueKept_invariant (config : Config) : (queueMachine config).Invariant (QueueKept config) where
  initial := by
    rintro _ ⟨noRows, _, noAttempts⟩
    refine ⟨⟨?_, ?_, ?_, ?_, ?_⟩, ?_, ?_, ?_⟩
    · simp [noRows]
    · simp [noRows, runningIn]
    · simp [noRows]
    · simp [noRows]
    · simp [noRows, ownerRunningIndex]
    · simp [noRows]
    · simp [noAttempts]
    · simp [LeasesKept, noRows]
  step := fun _ _ kept enabled => kept.next enabled.1 enabled.2

/-- A row may run: it waits, is live, no live running row of its lane has its
owner, and while memory is short in the local lane its model is a hosted one. -/
structure Eligible (glance : Glance) (rows : List QueueRow) (row : QueueRow) : Prop where
  waiting : row.status = .waiting
  live : glance.cutoff <= row.heartbeatAt
  lane : row.lane = glance.lane
  owner : ∀ other ∈ rows, other.status = .running -> glance.cutoff <= other.heartbeatAt ->
    other.lane = glance.lane -> other.ownerKey = row.ownerKey -> row.ownerKey = none
  memory : glance.lane = .localLane -> glance.memoryOk = false -> hostedName glance.models row.modelName

theorem status_waiting_iff : row.runs = false ↔ row.status = .waiting := by
  unfold runs
  cases row.status <;> simp

theorem eligible_iff {glance : Glance} :
  eligible glance rows row ↔ Eligible glance rows row := by
  have free : ownerRuns glance.cutoff rows row = false ↔
      ∀ other ∈ rows, other.status = .running -> glance.cutoff <= other.heartbeatAt ->
        other.lane = row.lane -> other.ownerKey = row.ownerKey -> row.ownerKey = none := by
    unfold ownerRuns
    rw [any_eq_false]
    apply forall_congr'
    intro _
    apply imp_congr_right
    intro _
    cases row.ownerKey with
    | none => simp
    | some key => simp [runs, live, inLane]; grind
  have spared : (decide (glance.lane = .hostedLane) || glance.memoryOk || hostedName glance.models row.modelName) ↔
      (glance.lane = .localLane -> glance.memoryOk = false -> hostedName glance.models row.modelName) := by
    cases glance.lane <;> cases glance.memoryOk <;> simp
  unfold eligible
  rw [and_eq_true, and_eq_true, and_eq_true, and_eq_true, Bool.not_eq_true', Bool.not_eq_true',
    status_waiting_iff, free, spared]
  unfold live inLane
  rw [decide_eq_true_eq, decide_eq_true_eq]
  constructor
  · rintro ⟨⟨⟨⟨waiting, live⟩, lane⟩, owner⟩, memory⟩
    exact ⟨waiting, live, lane, lane ▸ owner, memory⟩
  · intro may
    exact ⟨⟨⟨⟨may.waiting, may.live⟩, may.lane⟩, may.lane ▸ may.owner⟩, may.memory⟩

theorem started_in_order {state : QueueState} {action : QueueAction} (kept : QueueKept config state)
  {after : QueueRow} (mem : row ∈ state.rows) (afterMember : after ∈ (queueNext config state action).rows)
  (same : after.requestId = row.requestId) (waited : row.status = .waiting) (running : after.status = .running) :
  ∃ attempt now memoryOk models,
    action = .start attempt now memoryOk models /\ attempt.requestId = row.requestId /\ attempt.lane = row.lane /\
      ∀ other ∈ state.rows, Eligible (attempt.glance memoryOk models) state.rows other ->
        ¬ other.order < row.order := by
  have unchanged : ∀ rows, Fewer state.cutoff rows state.rows -> after ∉ rows := by
    intro rows fewer present
    rcases fewer.status after present with ⟨old, oldIn, sameRequest, sameStatus⟩
    have isRow : old = row := eq_of_key kept.bounded.distinct oldIn mem (sameRequest.trans same)
    rw [isRow, waited, running] at sameStatus
    cases sameStatus
  cases action with
  | tick now | readClock requestId lane | lose process requestId | crash process =>
    exact absurd afterMember (unchanged _ Fewer.refl)
  | enter process pid now entry =>
    cases entered : enter config now pid state.nextRequest state.nextSeq entry state.rows with
    | none =>
      simp only [queueNext, entered] at afterMember
      exact absurd afterMember (unchanged _ Fewer.refl)
    | some rows =>
      simp only [queueNext, entered] at afterMember
      rcases enter_spec entered with ⟨rfl, _, _⟩
      rcases mem_snoc.mp afterMember with old | new
      · exact absurd old (unchanged _ (fewer_deleteWhere _))
      · rw [new] at running
        cases running
  | setModel requestId modelName => exact absurd afterMember (unchanged _ (fewer_setModel requestId modelName))
  | start attempt now memoryOk models =>
    rcases startTransaction_cases config (attempt.glance memoryOk models) now attempt.requestId state.rows with
      refused | violated | ⟨⟨count, started⟩, _, next, _⟩
    · simp only [queueNext, refused] at afterMember
      exact absurd afterMember (unchanged _ Fewer.refl)
    · simp only [queueNext, violated] at afterMember
      exact absurd afterMember (unchanged _ Fewer.refl)
    · simp only [queueNext, started] at afterMember
      rcases exists_of_isNext next with ⟨first, firstMember, firstRequest, firstEligible, isFirst⟩
      have isRow : row = first := by
        apply eq_of_key kept.bounded.distinct mem firstMember
        rcases mem_updateWhere.mp afterMember with ⟨old, _⟩ | ⟨old, _, waits, isAfter⟩
        · exact absurd old (unchanged _ Fewer.refl)
        · rw [firstRequest, <- same, <- isAfter]
          exact of_decide_eq_true (and_eq_true _ _ |>.mp waits).1
      subst isRow
      refine ⟨attempt, now, memoryOk, models, rfl, firstRequest.symm, (eligible_iff.mp firstEligible).lane.symm, ?_⟩
      intro other otherIn may
      exact not_lt_of_ge (isFirst other otherIn (eligible_iff.mpr may))
  | renew now requestId =>
    rcases mem_updateWhere.mp afterMember with ⟨old, _⟩ | ⟨old, oldIn, _, isAfter⟩
    · exact absurd old (unchanged _ Fewer.refl)
    · have isRow : old = row := by
        apply eq_of_key kept.bounded.distinct oldIn mem
        rw [<- same, <- isAfter, renewed_requestId]
      rw [<- isAfter, isRow, renewed_status] at running
      rw [running] at waited
      cases waited
  | release process requestId => exact absurd afterMember (unchanged _ (fewer_release requestId))
  | releaseProcess process => exact absurd afterMember (unchanged _ (fewer_releases (state.heldBy process)))
  | expireProcess now pid => exact absurd afterMember (unchanged _ (fewer_expireProcess now pid))

/-- Lanes, owners and depths stay within bounds, and a waiting row runs only when none is eligible
before it. -/
theorem queue_safe (config : Config) {state : QueueState} (reachable : (queueMachine config).Reachable state) :
  (∀ lane, runningIn state.cutoff lane state.rows <= (limits config lane).1) /\
    (∀ lane, state.rows.countP (QueueRow.inLane lane) <= (limits config lane).2) /\
    (∀ key, state.rows.countP (fun row => row.runs && row.live state.cutoff && row.ownedBy key) <= 1) /\
    (∀ key, state.rows.countP (QueueRow.ownedBy key) <= maxPerOwner) /\
    ∀ action, (queueMachine config).enabled state action ->
      ∀ row ∈ state.rows, row.status = .waiting ->
      ∀ after ∈ ((queueMachine config).next state action).rows, after.requestId = row.requestId ->
        after.status = .running ->
        ∃ attempt now memoryOk models,
          action = .start attempt now memoryOk models /\ attempt.requestId = row.requestId /\ attempt.lane = row.lane /\
            attempt.cutoff <= state.cutoff /\
            ∀ other ∈ state.rows, Eligible (attempt.glance memoryOk models) state.rows other ->
              ¬ other.order < row.order := by
  have kept := (queueKept_invariant config).reachable reachable
  refine ⟨kept.bounded.places, kept.bounded.depth, ?_, kept.bounded.owners, ?_⟩
  · intro key
    apply le_trans _ ((ownerRunningIndex_nodup_iff state.rows).mp kept.bounded.index key)
    apply countP_mono_left
    intro row _ counted
    rw [and_eq_true, and_eq_true] at counted
    exact and_eq_true _ _ |>.mpr ⟨counted.1.1, counted.2⟩
  · intro action enabled row mem waited after afterMember same running
    rcases started_in_order kept mem afterMember same waited running with
      ⟨attempt, now, memoryOk, models, rfl, sameRequest, sameLane, first⟩
    exact ⟨attempt, now, memoryOk, models, rfl, sameRequest, sameLane, kept.attempts attempt enabled.1.1, first⟩

theorem queue_safe_witness :
  let machine := queueMachine ⟨1, 1, 3⟩
  let state := machine.run emptyQueue
    [.enter 1 100 0 ⟨3, some "user:1", none, .localLane⟩, .enter 2 200 0 ⟨2, some "user:2", none, .localLane⟩,
      .tick 1, .readClock 1 .localLane, .tick 2]
  let action := QueueAction.start ⟨1, .localLane, -89⟩ 2 true []
  runningIn state.cutoff .localLane state.rows <= 1 /\
    (machine.next state action).rows.map QueueRow.status = [.waiting, .running] /\
    ∀ other ∈ state.rows, Eligible ⟨-89, .localLane, true, []⟩ state.rows other ->
      ¬ other.order < toLex (2, 1) := by
  intro machine state action
  have reachable : machine.Reachable state := by
    apply Machine.Reachable.run
    · exact .start ⟨rfl, rfl, rfl⟩
    · decide +kernel
  have safe := queue_safe ⟨1, 1, 3⟩ reachable
  refine ⟨safe.1 .localLane, by decide +kernel, ?_⟩
  let waiting : QueueRow := ⟨1, 1, 2, .waiting, 200, 0, none, 0, some "user:2", none, .localLane⟩
  let running : QueueRow := ⟨1, 1, 2, .running, 200, 0, some 2, 2, some "user:2", none, .localLane⟩
  rcases safe.2.2.2.2 action (by decide +kernel) waiting (by decide +kernel) rfl running (by decide +kernel) rfl rfl with
    ⟨attempt, now, memoryOk, models, same, _, _, _, first⟩
  rcases QueueAction.start.inj same with ⟨rfl, rfl, rfl, rfl⟩
  exact first

end BananaChat.Queue

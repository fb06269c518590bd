import BananaChat.Workers.PoolKept

namespace BananaChat.Workers

open Foundation List Option

/-!
# The states of a worker job

A step reports who was handed a job and which job went back, by comparing the rows before and after
it; `claim` is compared in two stages, since it first ends what its worker still holds.
-/

inductive PoolEvent
  | claimed (jobId workerId : ℕ)
  | requeued (jobId : ℕ)
  | accepted (chunk : ChunkRow)
  | relayed (jobId : ℕ) (record : Record)
deriving DecidableEq

/-- What became of a job since the tables were `before`. -/
def hand (before : Tables) (job : Job) : List PoolEvent :=
  match before.getJob job.id with
  | none => []
  | some old =>
    if old.status.waiting && job.status.active then (job.workerId.map (PoolEvent.claimed job.id)).toList
    else if old.returned job then [.requeued job.id]
    else []

def hands (before after : Tables) : List PoolEvent := after.jobs.flatMap (hand before)

section

variable (config : PoolConfig) (pool : Pool)

def handed : PoolAction -> List PoolEvent
  | .claim asking now place =>
    match claim asking now place pool.tables with
    | none => []
    | some outcome =>
      let freed := abandonAll asking.workerId now pool.tables
      hands pool.tables freed ++ hands freed outcome.1
  | action => hands pool.tables (poolNext config pool action).tables

def acceptedIn (before after : Tables) : List PoolEvent := (after.chunks.drop before.chunks.length).map PoolEvent.accepted

def relayedBy : PoolAction -> List PoolEvent
  | .relay jobId clock move =>
    match relayOutcome config pool jobId clock move with
    | none => []
    | some outcome => outcome.sent.map (PoolEvent.relayed jobId)
  | _ => []

def poolReport (action : PoolAction) : List PoolEvent :=
  handed config pool action ++ acceptedIn pool.tables (poolNext config pool action).tables ++ relayedBy config pool action

end

def concerns (jobId : ℕ) : PoolEvent -> Bool
  | .claimed other _ => other = jobId
  | .requeued other => other = jobId
  | _ => false

def handsOf (jobId : ℕ) (past : List PoolEvent) : List PoolEvent := past.filter (concerns jobId)

theorem handsOf_append (jobId : ℕ) (first second : List PoolEvent) :
  handsOf jobId (first ++ second) = handsOf jobId first ++ handsOf jobId second :=
  filter_append _ _

theorem handsOf_report (config : PoolConfig) (pool : Pool) (action : PoolAction) (jobId : ℕ) :
  handsOf jobId (poolReport config pool action) = handsOf jobId (handed config pool action) := by
  unfold poolReport
  rw [handsOf_append, handsOf_append]
  have noneAccepted : handsOf jobId (acceptedIn pool.tables (poolNext config pool action).tables) = [] := by
    unfold handsOf acceptedIn
    rw [filter_eq_nil_iff]
    intro event mem
    rcases mem_map.mp mem with ⟨_, _, rfl⟩
    exact Bool.false_ne_true
  have noneRelayed : handsOf jobId (relayedBy config pool action) = [] := by
    unfold handsOf
    rw [filter_eq_nil_iff]
    intro _ mem
    cases action with
    | relay other clock move =>
      simp only [relayedBy] at mem
      split at mem
      · exact absurd mem not_mem_nil
      · rcases mem_map.mp mem with ⟨_, _, rfl⟩
        exact Bool.false_ne_true
    | _ => exact absurd mem not_mem_nil
  rw [noneAccepted, noneRelayed, append_nil, append_nil]

variable {before after tables : Tables} {job old : Job} {jobId : ℕ} {issued : List ℕ} {config : PoolConfig}

theorem concerns_of_hand {event : PoolEvent} (mem : event ∈ hand before job) :
  concerns job.id event /\ ∀ jobId, job.id ≠ jobId -> concerns jobId event = false := by
  have about : event = .requeued job.id \/ ∃ workerId, event = .claimed job.id workerId := by
    unfold hand at mem
    split at mem
    · exact absurd mem not_mem_nil
    · split at mem
      · rcases map_eq_some_iff.mp (mem_toList.mp mem) with ⟨workerId, _, same⟩
        exact .inr ⟨workerId, same.symm⟩
      · split at mem
        · exact .inl (mem_singleton.mp mem)
        · exact absurd mem not_mem_nil
  rcases about with rfl | ⟨_, rfl⟩
  · exact ⟨decide_eq_true rfl, fun jobId apart => decide_eq_false apart⟩
  · exact ⟨decide_eq_true rfl, fun jobId apart => decide_eq_false apart⟩

theorem handsOf_hands (distinct : (after.jobs.map Job.id).Nodup) (mem : job ∈ after.jobs) :
  handsOf job.id (hands before after) = hand before job :=
  Rows.filter_flatMap_key distinct mem (fun _ reported => (concerns_of_hand reported).1)
    (fun _ apart _ reported => (concerns_of_hand reported).2 job.id apart)

theorem handsOf_hands_absent (absent : ∀ job ∈ after.jobs, job.id ≠ jobId) :
  handsOf jobId (hands before after) = [] := by
  unfold handsOf hands
  rw [filter_eq_nil_iff]
  intro _ mem
  rcases mem_flatMap.mp mem with ⟨job, jobMember, reported⟩
  rw [(concerns_of_hand reported).2 jobId (absent job jobMember)]
  exact Bool.false_ne_true

theorem getJob_of_mem (distinct : (tables.jobs.map Job.id).Nodup) (mem : job ∈ tables.jobs) :
    tables.getJob job.id = some job := Rows.find_of_key distinct mem

/-- A row between two stages of a step: an active job was its worker's already,
or waited. -/
structure Job.Passes (old new : Job) : Prop where
  follows : old.Follows new
  holder : new.status.active ->
    (old.status.active /\ new.workerId = old.workerId) \/ old.status.waiting

variable {new : Job}

theorem Job.Moves.passes (moves : old.Moves new) : old.Passes new :=
  ⟨moves.toFollows, fun active => .inl (moves.holder active)⟩

def Stage (issued : List ℕ) (before after : Tables) : Prop :=
  ∀ job ∈ after.jobs, (∃ old ∈ before.jobs, old.Passes job) \/
      (job.id ∉ issued /\ job.status = .pending /\ job.requeues = 0)

theorem TablesMove.stage (moves : TablesMove before after) (issued : List ℕ) : Stage issued before after := by
  intro job mem
  rcases moves.rows job mem with ⟨old, oldIn, move⟩
  exact .inl ⟨old, oldIn, move.passes⟩

theorem stage_insertJob {new : NewJob} {now : ℚ} (fresh : jobId ∉ issued) :
  Stage issued tables (insertJob new jobId now tables) := by
  intro job mem
  rcases mem_insertJob mem with old | rfl
  · exact .inl ⟨job, old, (Job.Moves.refl job).passes⟩
  · exact .inr ⟨fresh, rfl, rfl⟩

theorem stage_setClaimed (issued : List ℕ) (jobId workerId : ℕ) (now : ℚ) (tables : Tables) :
  Stage issued tables (setClaimed jobId workerId now tables) := by
  intro job mem
  rcases mem_setClaimed mem with old | ⟨old, oldIn, _, waiting, unstopped, rfl⟩
  · exact .inl ⟨job, old, (Job.Moves.refl job).passes⟩
  · exact .inl ⟨old, oldIn, Job.follows_claimedBy waiting unstopped workerId now, fun _ => .inr waiting⟩

theorem stage_storeChunk {now : ℚ} {workerId : ℕ} {body : ChunkBody} (issued : List ℕ)
  (distinct : (tables.jobs.map Job.id).Nodup) (next : Next workerId jobId body tables job) :
  Stage issued tables (storeChunk config now job body tables).1 := by
  intro row mem
  have active := (Job.heldBy_iff.mp next.held).1
  rcases (storeChunk_moves config now job body tables).rows row mem with ⟨middle, middleMember, move⟩
  rcases mem_stored distinct next.mem middleMember with ⟨old, _⟩ | rfl
  · exact .inl ⟨middle, old, move.passes⟩
  · refine .inl ⟨job, next.mem, (Job.follows_advanced active _ now).trans move.toFollows, ?_⟩
    exact fun rowActive => .inl ⟨active, (move.holder rowActive).2⟩

/-- The hand-overs so far agree with the table: a job went back at most as often
as its row says, and was handed to its worker last. -/
structure Handed (past : List PoolEvent) (issued : List ℕ) (tables : Tables) : Prop where
  requeues : ∀ job ∈ tables.jobs, (handsOf job.id past).count (.requeued job.id) <= job.requeues
  bounded : ∀ jobId, (handsOf jobId past).count (.requeued jobId) <= maxRequeues
  holder : ∀ job ∈ tables.jobs, ∀ workerId, job.heldBy workerId ->
    (handsOf job.id past).getLast? = some (.claimed job.id workerId)
  unused : ∀ jobId, jobId ∉ issued -> handsOf jobId past = []

theorem getJob_of_fresh (named : Issued issued tables) (fresh : jobId ∉ issued) : tables.getJob jobId = none := by
  apply find?_eq_none.mpr
  intro job mem same
  have isJob : job.id = jobId := of_decide_eq_true same
  exact fresh (isJob ▸ named.jobs job mem)

theorem hand_of_found (found : before.getJob job.id = some old) : hand before job =
    if old.status.waiting && job.status.active then (job.workerId.map (PoolEvent.claimed job.id)).toList
    else if old.returned job then [.requeued job.id]
    else [] := by
  unfold hand
  rw [found]

theorem hand_of_absent (absent : before.getJob job.id = none) : hand before job = [] := by
  unfold hand
  rw [absent]

theorem count_hand (found : before.getJob new.id = some old) :
  (hand before new).count (.requeued new.id) <= (old.returned new).toNat := by
  rw [hand_of_found found]
  split
  · cases new.workerId <;> simp
  · split
    · rename_i back
      rw [back]
      simp
    · simp

theorem hand_of_held (found : before.getJob new.id = some old) (passes : old.Passes new) {workerId : ℕ}
  (held : new.heldBy workerId) :
  (hand before new = [] /\ old.heldBy workerId) \/ hand before new = [.claimed new.id workerId] := by
  rcases Job.heldBy_iff.mp held with ⟨active, worker⟩
  rw [hand_of_found found]
  rcases passes.holder active with ⟨oldActive, same⟩ | waiting
  · left
    have quiet : old.returned new = false := by
      unfold Job.returned
      rw [JobStatus.not_waiting_of_active active, Bool.and_false]
    rw [JobStatus.not_waiting_of_active oldActive, quiet]
    exact ⟨rfl, Job.heldBy_iff.mpr ⟨oldActive, same ▸ worker⟩⟩
  · right
    rw [waiting, active, worker]
    rfl

variable {past : List PoolEvent}

variable {issuedAfter : List ℕ}

theorem Handed.stage
  (kept : Handed past issued before) (stage : Stage issued before after) (grows : issued ⊆ issuedAfter)
  (namedBefore : Issued issued before) (named : Issued issuedAfter after) (tablesBefore : TablesKept before)
  (tables : TablesKept after) : Handed (past ++ hands before after) issuedAfter after := by
  have found : ∀ old job : Job, old ∈ before.jobs -> old.Passes job -> before.getJob job.id = some old := by
    intro old job oldIn passes
    rw [passes.follows.id]
    exact getJob_of_mem tablesBefore.distinct oldIn
  have counted : ∀ job ∈ after.jobs,
      (handsOf job.id (past ++ hands before after)).count (.requeued job.id) <= job.requeues := by
    intro job mem
    rw [handsOf_append, handsOf_hands tables.distinct mem, count_append]
    rcases stage job mem with ⟨old, oldIn, passes⟩ | ⟨fresh, _, _⟩
    · have reported := count_hand (found old job oldIn passes)
      have soFar := kept.requeues old oldIn
      rw [<- passes.follows.id] at soFar
      have grown := passes.follows.requeues
      omega
    · rw [kept.unused job.id fresh, hand_of_absent (getJob_of_fresh namedBefore fresh)]
      exact Nat.zero_le job.requeues
  constructor
  · exact counted
  · intro jobId
    by_cases present : ∃ job ∈ after.jobs, job.id = jobId
    · rcases present with ⟨job, mem, rfl⟩
      exact le_trans (counted job mem) (tables.good job mem).bounded
    · have absent : ∀ job ∈ after.jobs, job.id ≠ jobId := fun job mem same => present ⟨job, mem, same⟩
      rw [handsOf_append, handsOf_hands_absent absent, append_nil]
      exact kept.bounded jobId
  · intro job mem workerId held
    rw [handsOf_append, handsOf_hands tables.distinct mem]
    rcases stage job mem with ⟨old, oldIn, passes⟩ | ⟨_, pending, _⟩
    · rcases hand_of_held (found old job oldIn passes) passes held with ⟨quiet, oldHeld⟩ | reported
      · rw [quiet, append_nil, passes.follows.id]
        exact kept.holder old oldIn workerId oldHeld
      · rw [reported, getLast?_append]
        rfl
    · have active := (Job.heldBy_iff.mp held).1
      rw [pending] at active
      cases active
  · intro jobId fresh
    have absent : ∀ job ∈ after.jobs, job.id ≠ jobId := fun job mem same => fresh (same ▸ named.jobs job mem)
    rw [handsOf_append, handsOf_hands_absent absent, kept.unused jobId fun known => fresh (grows known)]
    rfl

theorem Handed.congr {first second : List PoolEvent} (kept : Handed first issued tables)
  (same : ∀ jobId, handsOf jobId second = handsOf jobId first) : Handed second issued tables where
  requeues := by
    intro job mem
    rw [same]
    exact kept.requeues job mem
  bounded := by
    intro jobId
    rw [same]
    exact kept.bounded jobId
  holder := by
    intro job mem workerId held
    rw [same]
    exact kept.holder job mem workerId held
  unused := by
    intro jobId fresh
    rw [same]
    exact kept.unused jobId fresh

theorem stage_of_step (step : TablesStep config issued before false issuedAfter after)
  (kept : TablesKept before) : Stage issued before after := by
  cases step with
  | move _ moves => exact moves.stage issued
  | insert new now fresh => exact stage_insertJob fresh
  | store now next => exact stage_storeChunk issued kept.distinct next

theorem Handed.next {pool : Pool} {action : PoolAction}
  (kept : Handed past pool.issued pool.tables) (poolKept : PoolKept pool) (enabled : poolEnabled pool action) :
  Handed (past ++ poolReport config pool action) (poolNext config pool action).issued
    (poolNext config pool action).tables := by
  have step := tablesStep config poolKept enabled
  have after := poolKept.next config enabled
  have reported : Handed (past ++ handed config pool action) (poolNext config pool action).issued
      (poolNext config pool action).tables := by
    cases action with
    | claim asking now place =>
      have freed := TablesMove.abandonAll poolKept.tables.distinct asking.workerId now
      have freedKept := poolKept.tables.move freed
      have freedStep : TablesStep config pool.issued pool.tables false pool.issued
          (abandonAll asking.workerId now pool.tables) := .move false freed
      have freedNamed := freedStep.named poolKept.tables poolKept.issued
      have first := kept.stage (freed.stage pool.issued) (List.Subset.refl _) poolKept.issued freedNamed poolKept.tables
        freedKept
      rcases claim_cases asking now place pool.tables with refused | ⟨_, nothing⟩ | ⟨job, _, _, taken⟩
      · simp only [handed, poolNext, Pool.write, refused, map_none, getD_none, append_nil]
        exact kept
      · simp only [handed, poolNext, Pool.write, nothing, map_some, getD_some]
        rw [<- append_assoc]
        exact first.stage ((TablesMove.refl _).stage pool.issued) (List.Subset.refl _) freedNamed freedNamed freedKept freedKept
      · simp only [handed, poolNext, Pool.write, taken, map_some, getD_some] at after ⊢
        rw [<- append_assoc]
        exact first.stage (stage_setClaimed pool.issued job.id asking.workerId now _) (List.Subset.refl _) freedNamed
          after.issued freedKept after.tables
    | _ =>
      exact kept.stage (stage_of_step step poolKept.tables) step.issued_subset poolKept.issued after.issued poolKept.tables
        after.tables
  exact reported.congr fun jobId => by rw [handsOf_append, handsOf_append, handsOf_report]

structure PoolHistory (past : List PoolEvent) (pool : Pool) : Prop where
  kept : PoolKept pool
  handed : Handed past pool.issued pool.tables

theorem poolHistory_of_trace {pool : Pool}
  (trace : (poolMachine config).Trace (poolReport config) past pool) : PoolHistory past pool := by
  apply trace.induct
  · intro start initial
    refine ⟨(poolKept_invariant config).initial start initial, ?_⟩
    rcases initial with ⟨noJobs, _, _⟩
    constructor
    · simp [noJobs]
    · exact fun jobId => Nat.zero_le maxRequeues
    · simp [noJobs]
    · exact fun jobId _ => rfl
  · intro _ _ _ before enabled
    exact ⟨before.kept.next config enabled, before.handed.next before.kept enabled⟩

theorem rows_run (actions : List PoolAction) {pool : Pool} (kept : PoolKept pool)
  (admitted : (poolMachine config).Admits pool actions) : ∀ job ∈ ((poolMachine config).run pool actions).tables.jobs,
    (∃ old ∈ pool.tables.jobs, old.Follows job) \/ job.id ∉ pool.issued := by
  induction actions generalizing pool with
  | nil => exact fun job mem => .inl ⟨job, mem, (Job.Moves.refl job).toFollows⟩
  | cons action rest ih =>
    intro job mem
    have step := tablesStep config kept admitted.1
    rcases ih (kept.next config admitted.1) admitted.2 job mem with
      ⟨middle, middleMember, second⟩ | fresh
    · rcases step.rows kept.tables middle middleMember with ⟨old, oldIn, first⟩ | ⟨fresh, _⟩
      · exact .inl ⟨old, oldIn, first.trans second⟩
      · rw [<- second.id] at fresh
        exact .inr fresh
    · exact .inr (fun known => fresh (step.issued_subset known))

theorem countP_heldBy_le (kept : TablesKept tables) (workerId : ℕ) : tables.jobs.countP (Job.heldBy workerId) <= 1 := by
  rw [countP_eq_length_filter]
  have distinct : ((tables.jobs.filter (Job.heldBy workerId)).map Job.id).Nodup :=
    kept.distinct.sublist (filter_sublist.map Job.id)
  cases held : tables.jobs.filter (Job.heldBy workerId) with
  | nil => exact Nat.zero_le 1
  | cons first rest =>
    cases rest with
    | nil => exact le_refl 1
    | cons second others =>
      have firstHeld : first ∈ tables.jobs.filter (Job.heldBy workerId) := held ▸ mem_cons_self
      have secondHeld : second ∈ tables.jobs.filter (Job.heldBy workerId) :=
        held ▸ mem_cons_of_mem first mem_cons_self
      have same := kept.single workerId first second (mem_filter.mp firstHeld).1 (mem_filter.mp secondHeld).1
        (mem_filter.mp firstHeld).2 (mem_filter.mp secondHeld).2
      rw [held, map_cons, map_cons, nodup_cons] at distinct
      exact absurd (same ▸ .head _) distinct.1

/-- In every run a job's flags, worker and prompt are as its state demands, and one that ended stays so. -/
theorem job_states (config : PoolConfig) {past : List PoolEvent} {pool : Pool}
  (trace : (poolMachine config).Trace (poolReport config) past pool) : (∀ job ∈ pool.tables.jobs,
      (job.stopRequested ↔ job.status = .failed \/ job.status = .timeout) /\
      (job.status.active -> ExistsUnique fun workerId => job.workerId = some workerId) /\
      (job.status.terminal -> job.messages = "[]" /\ job.options = none)) /\
    (∀ workerId, pool.tables.jobs.countP (Job.heldBy workerId) <= 1) /\
    (∀ jobId, past.count (.requeued jobId) <= maxRequeues) /\
    ∀ actions, (poolMachine config).Admits pool actions ->
      ∀ job ∈ pool.tables.jobs,
      ∀ later ∈ ((poolMachine config).run pool actions).tables.jobs, later.id = job.id ->
        (job.status.terminal -> later.status = job.status) /\ (0 < job.nextChunkSeq -> later.status ≠ .pending) := by
  rcases poolHistory_of_trace trace with ⟨kept, handed⟩
  refine ⟨?_, countP_heldBy_le kept.tables, ?_, ?_⟩
  · intro job mem
    have good := kept.tables.good job mem
    refine ⟨good.stop, ?_, good.cleared⟩
    intro active
    rcases isSome_iff_exists.mp (good.named active) with ⟨workerId, worker⟩
    exact ⟨workerId, worker, fun other same => some.inj (same.symm.trans worker)⟩
  · intro jobId
    have bounded := handed.bounded jobId
    unfold handsOf at bounded
    rwa [count_filter (by simp [concerns])] at bounded
  · intro actions admitted job mem later laterMember same
    rcases rows_run actions kept admitted later laterMember with ⟨old, oldIn, follows⟩ | fresh
    · have isJob : old = job := Rows.eq_of_key kept.tables.distinct oldIn mem (follows.id.symm.trans same)
      subst isJob
      refine ⟨follows.absorbing, ?_⟩
      intro started pending
      have laterGood := follows.good (kept.tables.good old mem)
      have grown := follows.sequence
      rw [laterGood.unstarted pending] at grown
      omega
    · exact absurd (same ▸ kept.issued.jobs job mem) fresh

def smallPool : PoolConfig := ⟨60, 180, 20, 300, 64, fun _ _ => false, fun _ => 4096, fun _ => true⟩

def emptyPool : Pool := ⟨⟨[], [], []⟩, [], []⟩

theorem trace_of_actions {actions : List PoolAction} (admitted : (poolMachine smallPool).Admits emptyPool actions) :
  (poolMachine smallPool).Trace (poolReport smallPool)
    ((poolMachine smallPool).reports (poolReport smallPool) emptyPool actions)
    ((poolMachine smallPool).run emptyPool actions) := by
  have start : (poolMachine smallPool).Trace (poolReport smallPool) [] emptyPool := .start ⟨rfl, rfl, rfl⟩
  exact start.run actions admitted

def oneAnswer : List PoolAction :=
  [.registerWorker 7, .insertJob 0 10 ⟨"llama3", "[1]", none, 2, none, none⟩,
    .claim ⟨7, none, true⟩ 11 true, .submitChunk 12 ⟨12, 0⟩ 7 0 ⟨0, "hi", "", true⟩]

theorem job_states_witness :
  ((poolMachine smallPool).run emptyPool oneAnswer).tables.jobs.map Job.status = [.streaming] /\
    ((poolMachine smallPool).run emptyPool oneAnswer).tables.jobs.countP (Job.heldBy 7) <= 1 := by
  have trace := trace_of_actions (show (poolMachine smallPool).Admits emptyPool oneAnswer by decide +kernel)
  exact ⟨by decide +kernel, (job_states smallPool trace).2.1 7⟩

end BananaChat.Workers

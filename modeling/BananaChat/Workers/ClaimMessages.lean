import BananaChat.Workers.JobStates

namespace BananaChat.Workers

open List PoolEvent

/-!
# Messages of claims that have ended

A job keeps its id when it goes back to the pool, and whether a message may be applied is judged by
the worker's id and the job's state.
-/

inductive Message
  | chunk (now : ℚ) (moment : Moment) (body : ChunkBody)
  | completion (now : ℚ) (moment : Moment) (body : CompleteBody)
  | failure (now : ℚ) (body : FailBody)

def Message.action (workerId jobId : ℕ) : Message -> PoolAction
  | .chunk now moment body => .submitChunk now moment workerId jobId body
  | .completion now moment body => .complete now moment workerId jobId body
  | .failure now body => .fail now workerId jobId body

def Holds (tables : Tables) (jobId workerId : ℕ) : Prop := ∃ job ∈ tables.jobs, job.id = jobId /\ job.heldBy workerId

def EndedClaim (past : List PoolEvent) (jobId workerId : ℕ) : Prop :=
  ∃ before between after, past = before ++ .claimed jobId workerId :: between ++ .requeued jobId :: after

def claimsOf (past : List PoolEvent) : List (ℕ × ℕ) :=
  past.filterMap fun event =>
    match event with
    | .claimed jobId workerId => some (jobId, workerId)
    | _ => none

variable {tables : Tables} {workerId jobId : ℕ}

variable {job : Job}

theorem unheld_of_loaded (unheld : ¬ Holds tables jobId workerId)
  (loaded : loadOwned workerId jobId tables = some job) : job.heldBy workerId = false /\ job.status.active = false := by
  rcases loadOwned_spec loaded with ⟨mem, named, worker⟩
  have notHeld : job.heldBy workerId = false := by
    rw [<- Bool.not_eq_true]
    exact fun held => unheld ⟨job, mem, named, held⟩
  refine ⟨notHeld, ?_⟩
  rw [<- Bool.not_eq_true]
  intro active
  rw [Job.heldBy_iff.mpr ⟨active, worker⟩] at notHeld
  cases notHeld

theorem owned_of_unheld (notHeld : job.heldBy workerId = false) (config : PoolConfig) (moment : Moment)
  (tables : Tables) : owned config moment workerId job tables = (tables, false) := by
  unfold owned
  rw [notHeld]
  rfl

section

variable (unheld : ¬ Holds tables jobId workerId) (config : PoolConfig) (now : ℚ)
include unheld config now

theorem submitChunk_refused (moment : Moment)
  (body : ChunkBody) : (submitChunk config now moment workerId jobId body tables).1 = tables := by
  unfold submitChunk
  split
  · rfl
  · split
    · rfl
    · cases loaded : loadOwned workerId jobId tables with
      | none => rfl
      | some job =>
        have lost := owned_of_unheld (unheld_of_loaded unheld loaded).1 config moment tables
        simp only [lost, Bool.false_eq_true, if_false]

theorem complete_refused (moment : Moment)
  (body : CompleteBody) : (complete config now moment workerId jobId body tables).1 = tables := by
  unfold complete
  split
  · rfl
  · rfl
  · split
    · rfl
    · cases loaded : loadOwned workerId jobId tables with
      | none => rfl
      | some job =>
        have lost := owned_of_unheld (unheld_of_loaded unheld loaded).1 config moment tables
        simp only [lost, Bool.false_eq_true, if_false]
        split <;> rfl

theorem fail_refused (body : FailBody) : (fail config now workerId jobId body tables).1 = tables := by
  unfold fail
  cases loaded : loadOwned workerId jobId tables with
  | none => rfl
  | some job => simp only [(unheld_of_loaded unheld loaded).2, Bool.not_false, if_true]

end

variable {pool : Pool}

theorem refused_of_unheld (config : PoolConfig) (unheld : ¬ Holds pool.tables jobId workerId)
  (message : Message) : poolNext config pool (message.action workerId jobId) = pool := by
  cases message with
  | chunk now moment body =>
    change { pool with tables := (submitChunk config now moment workerId jobId body pool.tables).1 } = pool
    rw [submitChunk_refused unheld config now moment body]
  | completion now moment body =>
    change { pool with tables := (complete config now moment workerId jobId body pool.tables).1 } = pool
    rw [complete_refused unheld config now moment body]
  | failure now body =>
    change { pool with tables := (fail config now workerId jobId body pool.tables).1 } = pool
    rw [fail_refused unheld config now body]

theorem endedIn_fail (kept : TablesKept tables) (mem : job ∈ tables.jobs)
  (held : job.heldBy workerId) (config : PoolConfig) (now : ℚ) :
  EndedIn (fail config now workerId job.id ⟨"", false⟩ tables).1 job.id := by
  rcases Job.heldBy_iff.mp held with ⟨active, worker⟩
  have loaded : loadOwned workerId job.id tables = some job := by
    unfold loadOwned
    rw [getJob_of_mem kept.distinct mem]
    simp [worker]
  have undeferred : deferred "" = false := by decide +kernel
  have ended : EndedIn (finish JobStatus.live job.id now
      (.failing .failed (failMessage (printableLine config.printable ""))) tables) job.id :=
    endedIn_finish (fun _ => JobStatus.live_of_active) job.id now rfl
  unfold fail
  simp only [loaded, active, undeferred, Bool.not_true, Bool.or_false, Bool.false_and, Bool.false_eq_true, if_false]
  change EndedIn (if _ then _ else _) job.id
  split
  · split
    · exact ended.move ((TablesMove.setFault job.id .request).trans (TablesMove.requestFaultsAddUp job workerId now))
    · exact ended.move (TablesMove.blame job now)
  · exact ended

theorem applied_of_held (config : PoolConfig) (kept : TablesKept pool.tables)
  (holds : Holds pool.tables jobId workerId) :
  ∃ message : Message, poolNext config pool (message.action workerId jobId) ≠ pool := by
  rcases holds with ⟨job, mem, rfl, held⟩
  refine ⟨.failure 0 ⟨"", false⟩, ?_⟩
  intro same
  have ended := endedIn_fail kept mem held config 0
  have tablesSame : (fail config 0 workerId job.id ⟨"", false⟩ pool.tables).1 = pool.tables := congrArg Pool.tables same
  rw [tablesSame] at ended
  have inactive := ended job mem rfl
  rw [(Job.heldBy_iff.mp held).1] at inactive
  cases inactive

variable {past : List PoolEvent}

theorem mem_claimsOf (mem : claimed jobId workerId ∈ past) : (jobId, workerId) ∈ claimsOf past :=
  mem_filterMap.mpr ⟨_, mem, rfl⟩

theorem claims_repeat {config : PoolConfig}
  (trace : (poolMachine config).Trace (poolReport config) past pool) (ended : EndedClaim past jobId workerId)
  (holds : Holds pool.tables jobId workerId) : ¬ (claimsOf past).Nodup := by
  rcases holds with ⟨job, mem, rfl, held⟩
  rcases ended with ⟨_, between, after, rfl⟩
  have last := (poolHistory_of_trace trace).handed.holder job mem workerId held
  have wentBack : handsOf job.id [requeued job.id] = [requeued job.id] := by
    simp [handsOf, concerns]
  have again : claimed job.id workerId ∈ handsOf job.id after := by
    rw [append_cons, handsOf_append, getLast?_append, handsOf_append, wentBack] at last
    cases lastAfter : (handsOf job.id after).getLast? with
    | none =>
      rw [lastAfter] at last
      simp at last
    | some event =>
      rw [lastAfter] at last
      have same : event = .claimed job.id workerId := by simpa using last
      rw [<- same]
      exact mem_of_getLast? lastAfter
  intro distinct
  unfold claimsOf at distinct
  rw [append_assoc, filterMap_append, nodup_append'] at distinct
  have later : (job.id, workerId) ∈ claimsOf (between ++ requeued job.id :: after) :=
    mem_claimsOf (mem_append_right between (.tail _ (mem_filter.mp again).1))
  exact (nodup_cons.mp distinct.2.1).1 later

/-- A message for an ended claim is refused, whatever it says, just while its worker does not hold the job again. -/
theorem messages_keep_to_their_claim (config : PoolConfig) {past : List PoolEvent} {pool : Pool}
  (trace : (poolMachine config).Trace (poolReport config) past pool) {jobId workerId : ℕ}
  (ended : EndedClaim past jobId workerId) :
  ((∀ message : Message, (poolMachine config).next pool (message.action workerId jobId) = pool) ↔
      ¬ Holds pool.tables jobId workerId) /\
    ((claimsOf past).Nodup ->
      ∀ message : Message, (poolMachine config).next pool (message.action workerId jobId) = pool) := by
  have kept := (poolHistory_of_trace trace).kept.tables
  refine ⟨⟨?_, refused_of_unheld config⟩, ?_⟩
  · intro refused holds
    rcases applied_of_held config kept holds with ⟨message, applied⟩
    exact applied (refused message)
  · intro distinct
    exact refused_of_unheld config (claims_repeat trace ended · distinct)

def handedOver : List PoolAction :=
  [.registerWorker 1, .registerWorker 2, .insertJob 0 10 ⟨"llama3", "[1]", none, 2, none, none⟩,
    .claim ⟨1, none, true⟩ 11 true, .fail 12 1 0 ⟨"deferred", false⟩, .claim ⟨2, none, true⟩ 13 true]

theorem messages_keep_to_their_claim_witness :
  (poolMachine smallPool).next ((poolMachine smallPool).run emptyPool handedOver)
      (Message.action 1 0 (.chunk 14 ⟨14, 0⟩ ⟨0, "hi", "", false⟩)) =
    (poolMachine smallPool).run emptyPool handedOver := by
  have trace := trace_of_actions (show (poolMachine smallPool).Admits emptyPool handedOver by decide +kernel)
  have past : (poolMachine smallPool).reports (poolReport smallPool) emptyPool handedOver =
      [.claimed 0 1, .requeued 0, .claimed 0 2] := by
    decide +kernel
  exact (messages_keep_to_their_claim smallPool trace ⟨[], [], [.claimed 0 2], rfl⟩).2 (by decide) _

/-- The second worker hands the job back too, and the first one is offered it
again. -/
def handedBack : List PoolAction := handedOver ++ [.fail 14 2 0 ⟨"deferred", false⟩, .claim ⟨1, none, true⟩ 15 true]

/-- A delayed copy of the first worker's first message takes the job from it. -/
theorem earlier_message_applied : ¬ ∀ (config : PoolConfig) (past : List PoolEvent) (pool : Pool),
    (poolMachine config).Trace (poolReport config) past pool ->
    ∀ jobId workerId, EndedClaim past jobId workerId ->
    ∀ message : Message, (poolMachine config).next pool (message.action workerId jobId) = pool := by
  intro always
  have trace := trace_of_actions (show (poolMachine smallPool).Admits emptyPool handedBack by decide +kernel)
  have past : (poolMachine smallPool).reports (poolReport smallPool) emptyPool handedBack =
      [.claimed 0 1, .requeued 0, .claimed 0 2, .requeued 0, .claimed 0 1] := by
    decide +kernel
  have unchanged := always smallPool _ _ trace 0 1 ⟨[], [], [.claimed 0 2, .requeued 0, .claimed 0 1], rfl⟩
    (.failure 16 ⟨"deferred", false⟩)
  have changed : (poolMachine smallPool).next ((poolMachine smallPool).run emptyPool handedBack)
      (Message.action 1 0 (.failure 16 ⟨"deferred", false⟩)) ≠ (poolMachine smallPool).run emptyPool handedBack := by
    decide +kernel
  exact changed unchanged

end BananaChat.Workers

import BananaChat.Workers.Moves

namespace BananaChat.Workers

open Foundation List Bool Rows JobStatus

/-!
# What the operations of the pool do to the tables

Every operation but two is a move of the tables. `claim` is one that leaves its worker without
an active job, and then at most hands it a waiting one.
-/

variable {tables : Tables}

namespace TablesMove

theorem penalize (workerId : Option ℕ) (now : ℚ) : TablesMove tables (penalize workerId now tables) := by
  unfold Workers.penalize
  cases workerId.bind tables.getWorker with
  | none => exact refl tables
  | some worker => exact workers rfl rfl

theorem misbehaved (jobId : ℕ) (workerId : Option ℕ) (now : ℚ) :
  TablesMove tables (misbehaved jobId workerId now tables) :=
  (setFault jobId .worker).trans (penalize workerId now)

theorem blame (job : Job) (now : ℚ) : TablesMove tables (blame job now tables) := by
  unfold Workers.blame
  split
  · exact setFault job.id .request
  · exact misbehaved job.id job.workerId now

theorem leaseRanOut (job : Job) (moment : Moment) : TablesMove tables (leaseRanOut job moment tables) := by
  unfold Workers.leaseRanOut
  split
  · exact refl tables
  · exact blame job moment.now

theorem requestFaultsAddUp (job : Job) (workerId : ℕ) (now : ℚ) :
  TablesMove tables (requestFaultsAddUp job workerId now tables) := by
  unfold Workers.requestFaultsAddUp
  split
  · exact penalize (some workerId) now
  · exact refl tables

theorem foldl {step : Tables -> Job -> Tables} (moves : ∀ tables job, TablesMove tables (step tables job))
  (jobs : List Job) : TablesMove tables (jobs.foldl step tables) := by
  induction jobs generalizing tables with
  | nil => exact refl tables
  | cons job rest ih => exact (moves tables job).trans ih

theorem distinct {before after : Tables} (moves : TablesMove before after) (distinct : (before.jobs.map Job.id).Nodup) :
  (after.jobs.map Job.id).Nodup :=
  distinct.sublist moves.ids

end TablesMove

def LeavesOthers (jobId : ℕ) (before after : Tables) : Prop :=
  ∀ other ∈ before.jobs, other.id ≠ jobId -> other ∈ after.jobs

theorem leavesOthers_updateJob (only : JobStatus -> Bool) (jobId : ℕ) (change : Job -> Job) :
  LeavesOthers jobId tables (tables.updateJob only jobId change) := by
  intro _ mem apart
  refine mem_updateWhere.mpr (.inl ⟨mem, fun chosen => ?_⟩)
  exact apart (of_decide_eq_true (and_eq_true _ _ |>.mp chosen).1)

theorem leavesOthers_requeueJob (job : Job) (now : ℚ) : LeavesOthers job.id tables (requeueJob job now tables).1 := by
  unfold requeueJob
  by_cases often : maxRequeues <= job.requeues
  · rw [if_pos often]
    exact leavesOthers_updateJob active job.id _
  · rw [if_neg often]
    intro _ mem apart
    refine mem_updateWhere.mpr (.inl ⟨mem, fun chosen => ?_⟩)
    unfold Job.returnable at chosen
    simp only [and_eq_true, decide_eq_true_eq] at chosen
    exact apart chosen.1.1.1

theorem penalize_jobs (workerId : Option ℕ) (now : ℚ) : (penalize workerId now tables).jobs = tables.jobs := by
  unfold penalize
  cases workerId.bind tables.getWorker <;> rfl

theorem leavesOthers_misbehaved (jobId : ℕ) (workerId : Option ℕ) (now : ℚ) :
  LeavesOthers jobId tables (misbehaved jobId workerId now tables) := by
  intro other mem apart
  unfold misbehaved
  rw [penalize_jobs]
  exact leavesOthers_updateJob _ jobId _ other mem apart

variable (workerId : ℕ) {job : Job}

theorem leavesOthers_abandon (now : ℚ) (job : Job) : LeavesOthers job.id tables (abandon workerId now tables job) := by
  intro other mem apart
  unfold abandon
  by_cases unstarted : job.nextChunkSeq = 0
  · rw [if_pos unstarted]
    exact leavesOthers_requeueJob job now other mem apart
  · rw [if_neg unstarted]
    have ended : other ∈
        (finish live job.id now (.failing .failed "The worker abandoned the job.") tables).jobs :=
      leavesOthers_updateJob live job.id _ other mem apart
    split
    · exact leavesOthers_misbehaved job.id (some workerId) now other ended apart
    · exact ended

theorem TablesMove.foldl_rows {step : Tables -> Job -> Tables}
  (moves : ∀ tables job, (tables.jobs.map Job.id).Nodup -> job ∈ tables.jobs -> TablesMove tables (step tables job))
  (others : ∀ tables job, LeavesOthers job.id tables (step tables job)) (jobs : List Job)
  (distinctJobs : (jobs.map Job.id).Nodup) (distinct : (tables.jobs.map Job.id).Nodup)
  (members : ∀ job ∈ jobs, job ∈ tables.jobs) : TablesMove tables (jobs.foldl step tables) := by
  induction jobs generalizing tables with
  | nil => exact refl tables
  | cons job rest ih =>
    rw [map_cons, nodup_cons] at distinctJobs
    have first := moves tables job distinct (members job mem_cons_self)
    refine first.trans (ih distinctJobs.2 (first.distinct distinct) ?_)
    intro other mem
    refine others tables job other (members other (mem_cons_of_mem job mem)) ?_
    intro same
    exact distinctJobs.1 (same ▸ mem_map_of_mem mem)

theorem activeJobsForWorker_distinct (distinct : (tables.jobs.map Job.id).Nodup) (workerId : ℕ) :
  ((activeJobsForWorker workerId tables).map Job.id).Nodup :=
  distinct.sublist (filter_sublist.map Job.id)

theorem TablesMove.returnUnstarted (distinct : (tables.jobs.map Job.id).Nodup) (workerId : ℕ) (now : ℚ) :
  TablesMove tables (returnUnstarted now (activeJobsForWorker workerId tables) tables) := by
  refine foldl_rows ?_ ?_ _ (activeJobsForWorker_distinct distinct workerId) distinct
    (fun job mem => (mem_filter.mp mem).1)
  · intro tables job distinct mem
    split
    · exact requeueJob distinct mem now
    · exact refl tables
  · intro _ job other mem apart
    split
    · exact leavesOthers_requeueJob job now other mem apart
    · exact mem

theorem TablesMove.heartbeat (distinct : (tables.jobs.map Job.id).Nodup) (workerId : ℕ) (now : ℚ) (report : Report)
  (jobId : Option ℕ) : TablesMove tables (heartbeat workerId now report jobId tables).1 := by
  have recorded : TablesMove tables (recordHeartbeat workerId now report tables) := workers rfl rfl
  refine TablesMove.trans ?_ (renewLease workerId now)
  split
  · exact recorded.trans (returnUnstarted (recorded.distinct distinct) workerId now)
  · exact recorded

def EndedIn (tables : Tables) (jobId : ℕ) : Prop := ∀ row ∈ tables.jobs, row.id = jobId -> row.status.active = false

theorem EndedIn.move {after : Tables} {jobId : ℕ} (ended : EndedIn tables jobId) (moves : TablesMove tables after) :
  EndedIn after jobId := by
  intro row mem named
  rcases moves.rows row mem with ⟨old, oldIn, move⟩
  have oldEnded := ended old oldIn (move.id.symm.trans named)
  rw [<- not_eq_true]
  intro active
  rw [(move.holder active).1] at oldEnded
  cases oldEnded

theorem endedIn_finish {only : JobStatus -> Bool} (reaches : ∀ status, status.active -> only status)
  (jobId : ℕ) (now : ℚ) {ending : Ending} (terminal : ending.status.terminal) :
  EndedIn (finish only jobId now ending tables) jobId := by
  intro row mem named
  rcases mem_updateWhere.mp mem with ⟨_, unchosen⟩ | ⟨_, _, _, rfl⟩
  · rw [<- not_eq_true]
    intro active
    exact unchosen (and_eq_true _ _ |>.mpr ⟨decide_eq_true named, reaches row.status active⟩)
  · exact not_active_of_terminal terminal

theorem unstopped_of_active (good : job.Good) (active : job.status.active) : job.stopRequested = false := by
  rw [<- not_eq_true]
  intro stopped
  rcases good.stop.mp stopped with isFailed | isTimeout
  · rw [isFailed] at active
    cases active
  · rw [isTimeout] at active
    cases active

theorem endedIn_requeueJob (good : ∀ job ∈ tables.jobs, job.Good) (unstarted : job.nextChunkSeq = 0)
  (distinct : (tables.jobs.map Job.id).Nodup) (mem : job ∈ tables.jobs) (now : ℚ) :
  EndedIn (requeueJob job now tables).1 job.id := by
  unfold requeueJob
  by_cases often : maxRequeues <= job.requeues
  · rw [if_pos often]
    exact endedIn_finish (fun _ active => active) job.id now rfl
  · rw [if_neg often]
    intro row rowMember named
    rcases mem_updateWhere.mp rowMember with ⟨old, unchosen⟩ | ⟨old, _, _, rfl⟩
    · have isJob : row = job := eq_of_key distinct old mem named
      subst isJob
      rw [<- not_eq_true]
      intro active
      apply unchosen
      unfold Job.returnable
      rw [active, unstopped_of_active (good row mem) active]
      simp [unstarted]
    · rfl

theorem TablesMove.abandon (workerId : ℕ) (now : ℚ) (distinct : (tables.jobs.map Job.id).Nodup)
  (mem : job ∈ tables.jobs) : TablesMove tables (abandon workerId now tables job) := by
  unfold Workers.abandon
  by_cases unstarted : job.nextChunkSeq = 0
  · rw [if_pos unstarted]
    exact requeueJob distinct mem now
  · rw [if_neg unstarted]
    have ended : TablesMove tables
        (Workers.finish live job.id now (.failing .failed "The worker abandoned the job.") tables) :=
      finishLive job.id now rfl
    split
    · exact ended.trans (misbehaved job.id (some workerId) now)
    · exact ended

theorem endedIn_abandon (now : ℚ) (good : ∀ job ∈ tables.jobs, job.Good)
  (distinct : (tables.jobs.map Job.id).Nodup) (mem : job ∈ tables.jobs) :
  EndedIn (abandon workerId now tables job) job.id := by
  unfold abandon
  by_cases unstarted : job.nextChunkSeq = 0
  · rw [if_pos unstarted]
    exact endedIn_requeueJob good unstarted distinct mem now
  · rw [if_neg unstarted]
    have ended : EndedIn (finish live job.id now (.failing .failed "The worker abandoned the job.") tables) job.id :=
      endedIn_finish (fun _ => live_of_active) job.id now rfl
    split
    · exact ended.move (TablesMove.misbehaved job.id (some workerId) now)
    · exact ended

theorem TablesMove.abandonAll (distinct : (tables.jobs.map Job.id).Nodup) (workerId : ℕ) (now : ℚ) :
  TablesMove tables (abandonAll workerId now tables) :=
  foldl_rows (fun _ _ distinct mem => abandon workerId now distinct mem)
    (fun _ job => leavesOthers_abandon workerId now job) _ (activeJobsForWorker_distinct distinct workerId) distinct
    (fun _ mem => (mem_filter.mp mem).1)

theorem TablesMove.good {before after : Tables} (moves : TablesMove before after)
  (good : ∀ job ∈ before.jobs, job.Good) : ∀ job ∈ after.jobs, job.Good := by
  intro job mem
  rcases moves.rows job mem with ⟨old, oldIn, move⟩
  exact move.good (good old oldIn)

theorem endedIn_foldl_abandon (now : ℚ) (jobs : List Job) (good : ∀ job ∈ tables.jobs, job.Good)
  (distinctJobs : (jobs.map Job.id).Nodup) (distinct : (tables.jobs.map Job.id).Nodup)
  (members : ∀ job ∈ jobs, job ∈ tables.jobs) :
  ∀ job ∈ jobs, EndedIn (jobs.foldl (abandon workerId now) tables) job.id := by
  induction jobs generalizing tables with
  | nil =>
    intro job mem
    exact absurd mem not_mem_nil
  | cons first rest ih =>
    rw [map_cons, nodup_cons] at distinctJobs
    have firstMember := members first mem_cons_self
    have move := TablesMove.abandon workerId now distinct firstMember
    have restMembers : ∀ job ∈ rest, job ∈ (abandon workerId now tables first).jobs := by
      intro job mem
      refine leavesOthers_abandon workerId now first job (members job (mem_cons_of_mem first mem)) ?_
      intro same
      exact distinctJobs.1 (same ▸ mem_map_of_mem mem)
    intro job mem
    rcases mem_cons.mp mem with rfl | later
    · refine (endedIn_abandon workerId now good distinct firstMember).move ?_
      exact TablesMove.foldl_rows (fun _ _ distinct mem => TablesMove.abandon workerId now distinct mem)
        (fun _ job => leavesOthers_abandon workerId now job) rest distinctJobs.2 (move.distinct distinct) restMembers
    · exact ih (move.good good) distinctJobs.2 (move.distinct distinct) restMembers job later

theorem unheld_abandonAll (good : ∀ job ∈ tables.jobs, job.Good) (distinct : (tables.jobs.map Job.id).Nodup)
  (workerId : ℕ) (now : ℚ) : ∀ job ∈ (abandonAll workerId now tables).jobs, ¬ job.heldBy workerId := by
  intro job mem held
  rcases (TablesMove.abandonAll distinct workerId now).rows job mem with ⟨old, oldIn, move⟩
  have oldHeld := mem_filter.mpr ⟨oldIn, move.heldBy held⟩
  have ended := endedIn_foldl_abandon workerId now (activeJobsForWorker workerId tables) good
    (activeJobsForWorker_distinct distinct workerId) distinct (fun job mem => (mem_filter.mp mem).1) old oldHeld
  have inactive := ended job mem move.id
  rw [(Job.heldBy_iff.mp held).1] at inactive
  cases inactive

/-- `claim` refuses a disabled worker, or ends what the worker holds and at most
hands it the first job offered. -/
theorem claim_cases (asking : Asking) (now : ℚ) (place : Bool) (tables : Tables) :
  claim asking now place tables = none \/
    (∃ job, claim asking now place tables = some (abandonAll asking.workerId now tables, job)) \/
    ∃ job, nextPending asking (now - userFaultSeconds) (abandonAll asking.workerId now tables) = some job /\
      ∃ reply, claim asking now place tables =
        some (setClaimed job.id asking.workerId now (abandonAll asking.workerId now tables), reply) := by
  unfold claim
  cases tables.getWorker asking.workerId with
  | none => exact .inl rfl
  | some worker =>
    by_cases disabled : worker.status = .disabled
    · simp only [disabled, if_true]
      exact .inl trivial
    · simp only [disabled, if_false]
      unfold claimNext
      right
      split
      · exact .inl ⟨none, rfl⟩
      · cases offered : nextPending asking (now - userFaultSeconds) (abandonAll asking.workerId now tables) with
        | none => exact .inl ⟨none, rfl⟩
        | some job =>
          cases place with
          | false => exact .inl ⟨none, rfl⟩
          | true => exact .inr ⟨job, rfl, _, rfl⟩

theorem TablesMove.owned (config : PoolConfig) (moment : Moment) (workerId : ℕ) (job : Job) :
  TablesMove tables (owned config moment workerId job tables).1 := by
  unfold Workers.owned
  split
  · exact refl tables
  · split
    · have ended : TablesMove tables (Workers.finish live job.id moment.now
          (.failing .timeout "The worker stopped responding.") tables) := finishLive job.id moment.now rfl
      split
      · exact ended.trans (leaseRanOut job moment)
      · exact ended
    · exact refl tables

theorem owned_spec {config : PoolConfig} {moment : Moment} {workerId : ℕ}
  (isOwned : (owned config moment workerId job tables).2) :
  (owned config moment workerId job tables).1 = tables /\ job.heldBy workerId /\ job.stopRequested = false := by
  unfold owned at isOwned ⊢
  by_cases lost : (!job.heldBy workerId || job.stopRequested)
  · rw [if_pos lost] at isOwned
    cases isOwned
  · rw [if_neg lost] at isOwned ⊢
    by_cases silent : leaseExpired config moment.now job
    · rw [if_pos silent] at isOwned
      cases isOwned
    · rw [if_neg silent]
      rw [not_eq_true, or_eq_false_iff, not_eq_false'] at lost
      exact ⟨rfl, lost⟩

theorem loadOwned_spec {workerId jobId : ℕ} (loaded : loadOwned workerId jobId tables = some job) :
  job ∈ tables.jobs /\ job.id = jobId /\ job.workerId = some workerId := by
  unfold loadOwned at loaded
  rw [Option.filter_eq_some_iff] at loaded
  rcases loaded with ⟨found, worker⟩
  rcases of_find_key found with ⟨mem, named⟩
  exact ⟨mem, named, of_decide_eq_true worker⟩

theorem TablesMove.breakOff (jobId workerId : ℕ) (now : ℚ) (error : String) :
  TablesMove tables (breakOff jobId workerId now error tables).1 :=
  (finishLive jobId now rfl).trans (misbehaved jobId (some workerId) now)

theorem TablesMove.retryChunk (workerId : ℕ) (now : ℚ) (job : Job) (body : ChunkBody) :
  TablesMove tables (retryChunk workerId now job body tables).1 := by
  unfold Workers.retryChunk
  split
  · exact renewLease workerId now
  · split
    · exact renewLease workerId now
    · exact breakOff job.id workerId now _

/-- The chunk is the next one of a job that its worker holds, and does not
follow a final one. -/
structure Next (workerId jobId : ℕ) (body : ChunkBody) (tables : Tables) (job : Job) : Prop where
  mem : job ∈ tables.jobs
  named : job.id = jobId
  held : job.heldBy workerId
  seq : body.seq = job.nextChunkSeq
  open_ : (lastChunk job tables).any ChunkRow.done = false

theorem submitChunk_cases (config : PoolConfig) (now : ℚ) (moment : Moment) (workerId jobId : ℕ) (body : ChunkBody) (tables : Tables) :
  TablesMove tables (submitChunk config now moment workerId jobId body tables).1 \/
    ∃ job, Next workerId jobId body tables job /\
      (submitChunk config now moment workerId jobId body tables).1 = (storeChunk config now job body tables).1 := by
  unfold submitChunk
  split
  · exact .inl (TablesMove.refl tables)
  · split
    · exact .inl (TablesMove.refl tables)
    · cases loaded : loadOwned workerId jobId tables with
      | none => exact .inl (TablesMove.refl tables)
      | some job =>
        by_cases isOwned : (owned config moment workerId job tables).2
        · rcases loadOwned_spec loaded with ⟨mem, named, _⟩
          rcases owned_spec isOwned with ⟨same, held, _⟩
          simp only [isOwned, if_true, same]
          unfold takeChunk
          by_cases retried : body.seq < job.nextChunkSeq
          · simp only [retried, if_true]
            exact .inl (TablesMove.retryChunk workerId now job body)
          · simp only [retried, if_false]
            by_cases broken : (decide ((job.nextChunkSeq : ℤ) < body.seq) || (lastChunk job tables).any ChunkRow.done)
            · simp only [broken, if_true]
              exact .inl (TablesMove.breakOff job.id workerId now _)
            · rw [if_neg broken]
              rw [not_eq_true, or_eq_false_iff, decide_eq_false_iff_not] at broken
              exact .inr ⟨job, ⟨mem, named, held, by omega, broken.2⟩, rfl⟩
        · simp only [isOwned, false_eq_true, if_false]
          exact .inl (TablesMove.owned config moment workerId job)

theorem TablesMove.completeJob (config : PoolConfig) (workerId : ℕ) (now : ℚ) (job : Job) (tokensIn tokensOut : ℕ)
  (reason : String) : TablesMove tables (completeJob config workerId now job tokensIn tokensOut reason tables).1 := by
  unfold Workers.completeJob
  split
  · refine (finishActive job.id now ?_).trans (workers rfl rfl)
    rfl
  · exact breakOff job.id workerId now _

theorem TablesMove.complete (config : PoolConfig) (now : ℚ) (moment : Moment) (workerId jobId : ℕ) (body : CompleteBody) :
  TablesMove tables (complete config now moment workerId jobId body tables).1 := by
  unfold Workers.complete
  split
  · exact refl tables
  · exact refl tables
  · split
    · exact refl tables
    · split
      · exact refl tables
      · split
        · exact refl tables
        · rename_i job _ _
          have checked : TablesMove tables (Workers.owned config moment workerId job tables).1 :=
            owned config moment workerId job
          change TablesMove tables (if _ then _ else _ : Tables × Reply).1
          split
          · exact checked.trans (completeJob config workerId now job _ _ _)
          · exact checked

theorem TablesMove.failJob (config : PoolConfig) (workerId : ℕ) (now : ℚ) (job : Job) (error : String) :
  TablesMove tables (failJob config workerId now job error tables) := by
  have ended : TablesMove tables (Workers.finish live job.id now
      (.failing .failed (failMessage (printableLine config.printable error))) tables) := finishLive job.id now rfl
  change TablesMove tables (if _ then _ else _)
  split
  · split
    · exact (ended.trans (setFault job.id .request)).trans (requestFaultsAddUp job workerId now)
    · exact ended.trans (blame job now)
  · exact ended

theorem TablesMove.fail (distinct : (tables.jobs.map Job.id).Nodup) (config : PoolConfig) (now : ℚ) (workerId jobId : ℕ)
  (body : FailBody) : TablesMove tables (fail config now workerId jobId body tables).1 := by
  unfold Workers.fail
  cases loaded : loadOwned workerId jobId tables with
  | none => exact refl tables
  | some job =>
    simp only
    split
    · exact refl tables
    · split
      · exact requeueJob distinct (loadOwned_spec loaded).1 now
      · exact failJob config workerId now job body.error

theorem TablesMove.setEnabled (workerId : ℕ) (now : ℚ) (enabled : Bool) :
  TablesMove tables (setEnabled workerId now enabled tables) := by
  unfold Workers.setEnabled
  split
  · exact refl tables
  · split
    · exact workers rfl rfl
    · have disabled : TablesMove tables (setStatus workerId .disabled tables) := workers rfl rfl
      exact disabled.trans (finishWorkerJobs workerId "The worker was disabled." now)

theorem TablesMove.deleteWorker (workerId : ℕ) (now : ℚ) : TablesMove tables (deleteWorker workerId now tables) := by
  unfold Workers.deleteWorker
  split
  · exact refl tables
  · have ended : TablesMove tables (Workers.finishWorkerJobs workerId "The worker was removed." now tables) :=
      finishWorkerJobs workerId "The worker was removed." now
    refine ended.trans ?_
    have unnamed : TablesMove (Workers.finishWorkerJobs workerId "The worker was removed." now tables)
        { Workers.finishWorkerJobs workerId "The worker was removed." now tables with
          jobs := Rows.updateWhere (·.workerId = some workerId) Job.unnamed
            (Workers.finishWorkerJobs workerId "The worker was removed." now tables).jobs } := by
      refine update (fun _ => rfl) ?_
      intro job mem chosen
      have inactive : job.status.active = false := by
        rcases mem_updateWhere.mp mem with ⟨_, unheld⟩ | ⟨_, _, _, rfl⟩
        · rw [<- not_eq_true]
          intro active
          exact unheld (Job.heldBy_iff.mpr ⟨active, of_decide_eq_true chosen⟩)
        · rfl
      exact Job.moves_unnamed inactive
    exact unnamed.trans (workers rfl rfl)

theorem TablesMove.expireLease (config : PoolConfig) (moment : Moment) (tables : Tables) (job : Job) :
  TablesMove tables (expireLease config moment tables job) := by
  unfold Workers.expireLease
  split
  · exact (finishActive job.id moment.now rfl).trans (leaseRanOut job moment)
  · exact refl tables

theorem TablesMove.expireJobs (config : PoolConfig) (moment : Moment) : TablesMove tables (expireJobs config moment tables) := by
  have waited : TablesMove tables
      (Workers.expirePending (moment.now - max 120 (config.workerClaimTimeout * 3)) moment.now tables) :=
    expirePending _ moment.now
  exact (waited.trans (foldl (expireLease config moment) _)).trans (expireCreatedBefore _ moment.now)

theorem TablesMove.forgetJobs (distinct : (tables.jobs.map Job.id).Nodup) (now : ℚ) :
  TablesMove tables (forgetJobs now tables) := by
  have scrubbed : TablesMove tables (Workers.scrubTerminal tables) := scrubTerminal
  have kept : (Workers.scrubTerminal tables).jobs.map Job.id |>.Nodup := scrubbed.distinct distinct
  exact (scrubbed.trans (deleteOrphanChunks kept (now - 600))).trans
    (deleteTerminalBefore ((deleteOrphanChunks kept (now - 600)).distinct kept) (now - purgeAfterSeconds))

theorem TablesMove.failRelay (clock : RelayClock) {status : JobStatus} (terminal : status.terminal) (message : String)
  (blamed : Option Blame) (relay : Relay) : TablesMove tables (failRelay clock status message blamed relay tables).tables := by
  have ended : TablesMove tables
      (Workers.finish live relay.jobId clock.failing (.failing status message) tables) :=
    finishLive relay.jobId clock.failing terminal
  unfold Workers.failRelay
  split
  · split
    · split
      · exact ended.trans (misbehaved _ _ clock.failing)
      · exact ended.trans (blame _ clock.failing)
    · exact ended
  · exact ended

theorem TablesMove.decideJob (config : PoolConfig) (clock : RelayClock) (windowOver hadRows : Bool) (job : Job) (relay : Relay) :
  TablesMove tables (decideJob config clock windowOver hadRows job relay tables).tables := by
  unfold Workers.decideJob
  split
  · exact refl tables
  · split
    · split
      · exact failRelay clock rfl _ _ relay
      · exact refl tables
    · split
      · exact finishActive relay.jobId clock.now rfl
      · split
        · exact refl tables
        · split
          · split
            · exact finish (fun _ => live_of_waiting) relay.jobId clock.now rfl
            · exact refl tables
          · split
            · exact failRelay clock rfl _ _ relay
            · exact refl tables

theorem TablesMove.releaseRelay (now : ℚ) (relay : Relay) : TablesMove tables (releaseRelay now relay tables).tables := by
  have ended : TablesMove tables
      (Workers.finish live relay.jobId now (.failing .failed "Generation stopped") tables) :=
    finishLive relay.jobId now rfl
  refine ended.trans (forget ?_)
  intro job mem live _ _ named _ chosen
  rcases mem_updateWhere.mp mem with ⟨_, unchosen⟩ | ⟨_, _, _, rfl⟩
  · have isJob : job.id = relay.jobId := named.symm.trans (of_decide_eq_true chosen)
    exact unchosen (and_eq_true _ _ |>.mpr ⟨decide_eq_true isJob, live⟩)
  · cases live

theorem TablesMove.forgetChunks (hadRows : Bool) (relay : Relay)
  (behind : ∀ job ∈ tables.jobs, job.id = relay.jobId -> job.status.live ->
    relay.lastSeq < job.nextChunkSeq) : TablesMove tables (forgetChunks hadRows relay tables).tables := by
  change TablesMove tables (if _ then _ else _)
  split
  · refine forget ?_
    intro job mem live _ _ named _ chosen
    rcases of_decide_eq_true chosen with ⟨isRelay, _⟩
    have within := behind job mem (named.symm.trans isRelay) live
    omega
  · exact refl tables

theorem TablesMove.relayStep (config : PoolConfig) (clock : RelayClock) (move : RelayMove) (relay : Relay)
  (behind : ∀ job ∈ tables.jobs, job.id = relay.jobId -> job.status.live ->
    relay.lastSeq < job.nextChunkSeq) : TablesMove tables (relayStep config clock move relay tables).tables := by
  unfold Workers.relayStep
  split
  · exact finishLive relay.jobId clock.now rfl
  · split
    · exact refl tables
    · exact failRelay clock rfl _ _ relay
  · exact finishLive relay.jobId clock.now rfl
  · exact refl tables
  · unfold relayChunk
    split
    · exact failRelay clock rfl _ _ relay
    · exact refl tables
  · exact forgetChunks _ relay behind
  · exact refl tables
  · exact refl tables
  · exact decideJob config clock _ _ _ relay
  · exact releaseRelay clock.now relay
  · exact refl tables
  · exact refl tables
  · exact refl tables
  · exact refl tables

end BananaChat.Workers

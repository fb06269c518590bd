import BananaChat.Workers.Operations

namespace BananaChat.Workers

open Foundation List Option Rows

/-!
# What every run of the pool keeps

`TablesStep` says once what a step can do to the tables: move rows, insert a new job, hand the first
job offered to a worker that runs none, or store the next chunk of a job.
-/

/-- The invariant of the tables.  A worker runs one job at most, and a stored
chunk was counted by its job. -/
structure TablesKept (tables : Tables) : Prop where
  distinct : (tables.jobs.map Job.id).Nodup
  good : ∀ job ∈ tables.jobs, job.Good
  single : ∀ workerId first second, first ∈ tables.jobs -> second ∈ tables.jobs ->
    first.heldBy workerId -> second.heldBy workerId -> first.id = second.id
  counted : ∀ chunk ∈ tables.chunks, ∀ job ∈ tables.jobs, job.id = chunk.jobId ->
    chunk.seq < job.nextChunkSeq

theorem TablesKept.move {before after : Tables} (kept : TablesKept before) (moves : TablesMove before after) :
  TablesKept after where
  distinct := moves.distinct kept.distinct
  good := moves.good kept.good
  single := by
    intro workerId first second firstMember secondMember firstHeld secondHeld
    rcases moves.rows first firstMember with ⟨oldFirst, oldFirstMember, firstMove⟩
    rcases moves.rows second secondMember with ⟨oldSecond, oldSecondMember, secondMove⟩
    rw [firstMove.id, secondMove.id]
    exact kept.single workerId oldFirst oldSecond oldFirstMember oldSecondMember (firstMove.heldBy firstHeld)
      (secondMove.heldBy secondHeld)
  counted := by
    intro chunk chunkMember job mem named
    rcases moves.rows job mem with ⟨old, oldIn, move⟩
    rw [move.chunks]
    exact kept.counted chunk (moves.chunks.subset chunkMember) old oldIn (move.id.symm.trans named)

variable {now : ℚ} {tables : Tables} {workerId : ℕ} {job : Job} {relay : Relay} {pool : Pool}

variable {row : Job}

theorem mem_setClaimed {jobId : ℕ} (mem : row ∈ (setClaimed jobId workerId now tables).jobs) :
  row ∈ tables.jobs \/ ∃ old ∈ tables.jobs, old.id = jobId /\ old.status.waiting /\
    old.stopRequested = false /\ old.claimedBy workerId now = row := by
  rcases mem_updateWhere.mp mem with ⟨old, _⟩ | ⟨old, oldIn, chosen, same⟩
  · exact .inl old
  · unfold Job.claimable at chosen
    simp only [Bool.and_eq_true, decide_eq_true_eq, Bool.not_eq_true'] at chosen
    exact .inr ⟨old, oldIn, chosen.1.1, chosen.1.2, chosen.2, same⟩

theorem TablesKept.claim (kept : TablesKept tables)
  (unheld : ∀ job ∈ tables.jobs, ¬ job.heldBy workerId) (jobId : ℕ) (now : ℚ) :
  TablesKept (setClaimed jobId workerId now tables) where
  distinct := by
    have ids : (setClaimed jobId workerId now tables).jobs.map Job.id = tables.jobs.map Job.id :=
      map_updateWhere Job.id (fun _ => rfl)
    rw [ids]
    exact kept.distinct
  good := by
    intro row mem
    rcases mem_setClaimed mem with old | ⟨old, oldIn, _, waiting, unstopped, rfl⟩
    · exact kept.good row old
    · exact (Job.follows_claimedBy waiting unstopped workerId now).good (kept.good old oldIn)
  single := by
    intro other first second firstMember secondMember firstHeld secondHeld
    rcases mem_setClaimed firstMember with firstOld | ⟨firstOld, _, firstNamed, _, _, rfl⟩
    · rcases mem_setClaimed secondMember with secondOld | ⟨secondOld, _, _, _, _, rfl⟩
      · exact kept.single other first second firstOld secondOld firstHeld secondHeld
      · have isWorker : other = workerId := (some.inj (Job.heldBy_iff.mp secondHeld).2).symm
        rw [isWorker] at firstHeld
        exact absurd firstHeld (unheld first firstOld)
    · rcases mem_setClaimed secondMember with secondOld | ⟨secondOld, _, secondNamed, _, _, rfl⟩
      · have isWorker : other = workerId := (some.inj (Job.heldBy_iff.mp firstHeld).2).symm
        rw [isWorker] at secondHeld
        exact absurd secondHeld (unheld second secondOld)
      · exact firstNamed.trans secondNamed.symm
  counted := by
    intro chunk chunkMember row mem named
    rcases mem_setClaimed mem with old | ⟨old, oldIn, _, _, _, rfl⟩
    · exact kept.counted chunk chunkMember row old named
    · exact kept.counted chunk chunkMember old oldIn named

def stored (job : Job) (piece : ChunkBody) (now : ℚ) (tables : Tables) : Tables :=
  advance job.id piece.size now (insertChunk (piece.row job.id) tables)

variable {piece : ChunkBody}

theorem mem_stored (distinct : (tables.jobs.map Job.id).Nodup)
  (jobMember : job ∈ tables.jobs) (mem : row ∈ (stored job piece now tables).jobs) :
  (row ∈ tables.jobs /\ row.id ≠ job.id) \/ row = job.advanced piece.size now := by
  rcases mem_updateWhere.mp mem with ⟨old, unchosen⟩ | ⟨old, oldIn, chosen, rfl⟩
  · left
    refine ⟨old, fun same => unchosen ?_⟩
    exact Bool.and_eq_true _ _ |>.mpr ⟨decide_eq_true same, rfl⟩
  · right
    have same : old.id = job.id := of_decide_eq_true (Bool.and_eq_true _ _ |>.mp chosen).1
    rw [eq_of_key distinct oldIn jobMember same]

theorem heldBy_advanced (active : job.status.active) {size : ℕ}
  (held : (job.advanced size now).heldBy workerId) : job.heldBy workerId :=
  Job.heldBy_iff.mpr ⟨active, (Job.heldBy_iff.mp held).2⟩

theorem TablesKept.store (kept : TablesKept tables) {jobId : ℕ} {body : ChunkBody}
  (next : Next workerId jobId body tables job) (sameSeq : piece.seq = body.seq) (now : ℚ) :
  TablesKept (stored job piece now tables) := by
  have active := (Job.heldBy_iff.mp next.held).1
  have older : ∀ row ∈ (stored job piece now tables).jobs, ∀ other, row.heldBy other ->
      ∃ old ∈ tables.jobs, old.id = row.id /\ old.heldBy other := by
    intro row mem other held
    rcases mem_stored kept.distinct next.mem mem with ⟨old, _⟩ | rfl
    · exact ⟨row, old, rfl, held⟩
    · exact ⟨job, next.mem, rfl, heldBy_advanced active held⟩
  constructor
  · have ids : (stored job piece now tables).jobs.map Job.id = tables.jobs.map Job.id :=
      map_updateWhere Job.id (fun _ => rfl)
    rw [ids]
    exact kept.distinct
  · intro row mem
    rcases mem_stored kept.distinct next.mem mem with ⟨old, _⟩ | rfl
    · exact kept.good row old
    · exact (Job.follows_advanced active piece.size now).good (kept.good job next.mem)
  · intro other first second firstMember secondMember firstHeld secondHeld
    rcases older first firstMember other firstHeld with ⟨oldFirst, oldFirstMember, sameFirst, oldFirstHeld⟩
    rcases older second secondMember other secondHeld with ⟨oldSecond, oldSecondMember, sameSecond, oldSecondHeld⟩
    rw [<- sameFirst, <- sameSecond]
    exact kept.single other oldFirst oldSecond oldFirstMember oldSecondMember oldFirstHeld oldSecondHeld
  · intro chunk chunkMember row mem named
    rcases mem_snoc.mp chunkMember with old | new
    · rcases mem_stored kept.distinct next.mem mem with ⟨oldRow, _⟩ | rfl
      · exact kept.counted chunk old row oldRow named
      · exact Nat.lt_succ_of_lt (kept.counted chunk old job next.mem named)
    · rw [new] at named ⊢
      rcases mem_stored kept.distinct next.mem mem with ⟨_, apart⟩ | rfl
      · exact absurd named apart
      · have position : piece.seq = job.nextChunkSeq := sameSeq.trans next.seq
        change piece.seq.toNat < job.nextChunkSeq + 1
        omega

theorem kept_seq (config : PoolConfig) (job : Job) (body : ChunkBody) : (kept config job body).1.seq = body.seq := by
  unfold kept
  split <;> rfl

theorem storeChunk_moves (config : PoolConfig) (now : ℚ) (job : Job) (body : ChunkBody) (tables : Tables) :
  TablesMove (stored job (kept config job body).1 now tables) (storeChunk config now job body tables).1 := by
  change TablesMove _ (if _ then _ else _ : Tables × Reply).1
  split
  · exact TablesMove.finishActive job.id now rfl
  · exact TablesMove.refl _

/-- What a step can do to the tables, and to the ids in use; only a claim hands
a job to a worker. -/
inductive TablesStep (config : PoolConfig) (issued : List ℕ) (before : Tables) : Bool -> List ℕ -> Tables -> Prop
  | move (claims : Bool) {after : Tables} : TablesMove before after -> TablesStep config issued before claims issued after
  | insert (new : NewJob) {jobId : ℕ} (now : ℚ) : jobId ∉ issued ->
      TablesStep config issued before false (jobId :: issued) (insertJob new jobId now before)
  | claim {asking : Asking} (now : ℚ) {job : Job} :
      nextPending asking (now - userFaultSeconds) (abandonAll asking.workerId now before) = some job ->
      TablesStep config issued before true issued
        (setClaimed job.id asking.workerId now (abandonAll asking.workerId now before))
  | store (now : ℚ) {workerId jobId : ℕ} {body : ChunkBody} {job : Job} : Next workerId jobId body before job ->
      TablesStep config issued before false issued (storeChunk config now job body before).1

def PoolAction.claims : PoolAction -> Bool
  | .claim _ _ _ => true
  | _ => false

theorem mem_insertJob {new : NewJob} {jobId : ℕ} (mem : row ∈ (insertJob new jobId now tables).jobs) :
  row ∈ tables.jobs \/ row = new.row jobId now := by
  rcases mem_snoc.mp mem with old | isNew
  · exact .inl old
  · exact .inr (isNew)

theorem good_new (new : NewJob) (jobId : ℕ) (now : ℚ) : (new.row jobId now).Good where
  stop := by
    change false ↔ JobStatus.pending = .failed \/ JobStatus.pending = .timeout
    simp
  named := fun active => Bool.noConfusion active
  cleared := fun terminal => Bool.noConfusion terminal
  unstarted := fun _ => rfl
  bounded := Nat.zero_le _

structure Issued (issued : List ℕ) (tables : Tables) : Prop where
  jobs : ∀ job ∈ tables.jobs, job.id ∈ issued
  chunks : ∀ chunk ∈ tables.chunks, chunk.jobId ∈ issued

variable {config : PoolConfig} {issued issuedAfter : List ℕ} {before after : Tables} {claims : Bool}

section

variable (step : TablesStep config issued before claims issuedAfter after)
include step

theorem TablesStep.kept (named : Issued issued before) (kept : TablesKept before) : TablesKept after := by
  cases step with
  | move _ moves => exact kept.move moves
  | insert new now fresh =>
    rename_i jobId
    constructor
    · change ((before.jobs ++ [new.row jobId now]).map Job.id).Nodup
      rw [map_append, map_singleton, <- concat_eq_append]
      refine List.Nodup.concat ?_ kept.distinct
      intro mem
      rcases mem_map.mp mem with ⟨job, jobMember, same⟩
      have isJob : job.id = jobId := same
      exact fresh (isJob ▸ named.jobs job jobMember)
    · intro job mem
      rcases mem_insertJob mem with old | rfl
      · exact kept.good job old
      · exact good_new new jobId now
    · intro workerId first second firstMember secondMember firstHeld secondHeld
      rcases mem_insertJob firstMember with firstOld | rfl
      · rcases mem_insertJob secondMember with secondOld | rfl
        · exact kept.single workerId first second firstOld secondOld firstHeld secondHeld
        · cases secondHeld
      · cases firstHeld
    · intro chunk chunkMember job mem same
      rcases mem_insertJob mem with old | rfl
      · exact kept.counted chunk chunkMember job old same
      · have isChunk : jobId = chunk.jobId := same
        exact absurd (isChunk ▸ named.chunks chunk chunkMember) fresh
  | claim now offered =>
    rename_i asking job
    have freed := kept.move (TablesMove.abandonAll kept.distinct asking.workerId now)
    exact freed.claim (unheld_abandonAll kept.good kept.distinct asking.workerId now) job.id now
  | store now next =>
    rename_i workerId jobId body job
    exact (kept.store next (kept_seq config job body) now).move (storeChunk_moves config now job body before)

theorem TablesStep.rows (kept : TablesKept before) : ∀ job ∈ after.jobs, (∃ old ∈ before.jobs, old.Follows job) \/
      (job.id ∉ issued /\ job.id ∈ issuedAfter /\ job.status = .pending /\ job.requeues = 0 /\ job.nextChunkSeq = 0 /\
        job.streamBytes = 0) := by
  intro job mem
  cases step with
  | move _ moves =>
    rcases moves.rows job mem with ⟨old, oldIn, move⟩
    exact .inl ⟨old, oldIn, move.toFollows⟩
  | insert new now fresh =>
    rcases mem_insertJob mem with old | rfl
    · exact .inl ⟨job, old, (Job.Moves.refl job).toFollows⟩
    · exact .inr ⟨fresh, mem_cons_self, rfl, rfl, rfl, rfl⟩
  | claim now offered =>
    rename_i asking first
    have freed := TablesMove.abandonAll kept.distinct asking.workerId now
    rcases mem_setClaimed mem with unclaimed | ⟨waiting, waitingMember, _, isWaiting, unstopped, rfl⟩
    · rcases freed.rows job unclaimed with ⟨old, oldIn, move⟩
      exact .inl ⟨old, oldIn, move.toFollows⟩
    · rcases freed.rows waiting waitingMember with ⟨old, oldIn, move⟩
      exact .inl ⟨old, oldIn, move.toFollows.trans (Job.follows_claimedBy isWaiting unstopped asking.workerId now)⟩
  | store now next =>
    rename_i workerId jobId body held
    rcases (storeChunk_moves config now held body before).rows job mem with ⟨middle, middleMember, move⟩
    rcases mem_stored kept.distinct next.mem middleMember with ⟨old, _⟩ | rfl
    · exact .inl ⟨middle, old, move.toFollows⟩
    · exact .inl ⟨held, next.mem, (Job.follows_advanced (Job.heldBy_iff.mp next.held).1 _ now).trans move.toFollows⟩

theorem TablesStep.issued_subset : issued ⊆ issuedAfter := by
  cases step with
  | move | claim | store => exact List.Subset.refl _
  | insert => exact subset_cons_self _ _

theorem TablesStep.named (kept : TablesKept before) (named : Issued issued before) : Issued issuedAfter after where
  jobs := by
    intro job mem
    rcases step.rows kept job mem with ⟨old, oldIn, follows⟩ | fresh
    · rw [follows.id]
      exact step.issued_subset (named.jobs old oldIn)
    · exact fresh.2.1
  chunks := by
    intro chunk mem
    cases step with
    | move _ moves => exact named.chunks chunk (moves.chunks.subset mem)
    | insert => exact .tail _ (named.chunks chunk mem)
    | claim now offered =>
      exact named.chunks chunk ((TablesMove.abandonAll kept.distinct _ now).chunks.subset mem)
    | store now next =>
      rename_i workerId jobId body held
      rcases mem_snoc.mp ((storeChunk_moves config now held body before).chunks.subset mem) with old | new
      · exact named.chunks chunk old
      · rw [new]
        exact named.jobs held next.mem

end

def Relay.rows (relay : Relay) : List ChunkRow :=
  match relay.phase with
  | .relaying _ rows => rows
  | _ => []

structure RelayKept (tables : Tables) (relay : Relay) : Prop where
  sent : ∀ job ∈ tables.jobs, job.id = relay.jobId -> relay.lastSeq < job.nextChunkSeq
  read : ∀ row ∈ relay.rows, ∀ job ∈ tables.jobs, job.id = relay.jobId -> row.seq < job.nextChunkSeq

theorem RelayKept.idle {next : Relay} (kept : RelayKept tables relay) (sameJob : next.jobId = relay.jobId)
  (sameSeq : next.lastSeq = relay.lastSeq) (noRows : next.rows = []) : RelayKept tables next where
  sent := by
    rw [sameJob, sameSeq]
    exact kept.sent
  read := by
    rw [noRows]
    exact fun row mem => absurd mem not_mem_nil

theorem RelayKept.later (step : TablesStep config issued before claims issuedAfter after) (tables : TablesKept before)
  (known : relay.jobId ∈ issued) (kept : RelayKept before relay) : RelayKept after relay where
  sent := by
    intro job mem named
    rcases step.rows tables job mem with ⟨old, oldIn, follows⟩ | fresh
    · have within := kept.sent old oldIn (follows.id.symm.trans named)
      have grown := follows.sequence
      omega
    · exact absurd (named ▸ known) fresh.1
  read := by
    intro row rowMember job mem named
    rcases step.rows tables job mem with ⟨old, oldIn, follows⟩ | fresh
    · have within := kept.read row rowMember old oldIn (follows.id.symm.trans named)
      have grown := follows.sequence
      omega
    · exact absurd (named ▸ known) fresh.1

theorem mem_chunksAfter {jobId : ℕ} {seq : ℤ} {row : ChunkRow} (mem : row ∈ chunksAfter jobId seq tables) :
  row ∈ tables.chunks /\ row.jobId = jobId /\ seq < row.seq := by
  have selected := mem_filter.mp ((mem_mergeSort).mp (mem_of_mem_take mem))
  have chosen := of_decide_eq_true selected.2
  exact ⟨selected.1, chosen.1, chosen.2⟩

def Relay.over (relay : Relay) : Bool :=
  match relay.phase with
  | .ended _ => true
  | .released => true
  | _ => false

theorem Relay.rows_of_over (isOver : relay.over) : relay.rows = [] := by
  unfold Relay.over at isOver
  unfold Relay.rows
  cases phase : relay.phase with
  | relaying hadRows rows =>
    rw [phase] at isOver
    cases isOver
  | _ => rfl

/-- What a step of a relay can do to its variables: it sends nothing and holds
no rows, reads the next chunks, sends the first row it holds, or sends the final
record once a final chunk was sent. -/
inductive RelayTurn (tables : Tables) (relay : Relay) : Relay -> List Record -> Prop
  | stay : RelayTurn tables relay relay []
  | idle {next : Relay} : next.jobId = relay.jobId -> next.lastSeq = relay.lastSeq -> next.terminal = relay.terminal ->
      next.rows = [] -> (relay.over -> next.over) -> RelayTurn tables relay next []
  | read {next : Relay} : relay.over = false -> next.jobId = relay.jobId -> next.lastSeq = relay.lastSeq ->
      next.terminal = relay.terminal -> next.rows = chunksAfter relay.jobId relay.lastSeq tables ->
      RelayTurn tables relay next []
  | send {next : Relay} {row : ChunkRow} : relay.rows = row :: next.rows -> (row.seq : ℤ) = relay.lastSeq + 1 ->
      relay.terminal = false -> next.jobId = relay.jobId -> next.lastSeq = row.seq -> next.terminal = row.done ->
      RelayTurn tables relay next row.record
  | final {next : Relay} (reason : String) (promptTokens completionTokens : Option ℕ) : relay.over = false ->
      relay.terminal -> next.jobId = relay.jobId -> next.lastSeq = relay.lastSeq -> next.terminal = relay.terminal ->
      next.over -> RelayTurn tables relay next [.final reason promptTokens completionTokens]

theorem giveUp_turn (tables : Tables) (relay : Relay) : RelayTurn tables relay relay.giveUp [] :=
  .idle rfl rfl rfl rfl (fun _ => rfl)

variable {clock : RelayClock} {hadRows : Bool}

theorem relayChunk_turn {row : ChunkRow} {rest : List ChunkRow}
  (phase : relay.phase = .relaying hadRows (row :: rest)) :
  RelayTurn tables relay (relayChunk clock hadRows row rest relay tables).relay
    (relayChunk clock hadRows row rest relay tables).sent := by
  unfold relayChunk
  by_cases broken : (row.seq : ℤ) ≠ relay.lastSeq + 1 \/ relay.terminal
  · rw [if_pos broken]
    exact giveUp_turn tables relay
  · rw [if_neg broken]
    rw [not_or, not_not, Bool.not_eq_true] at broken
    refine .send ?_ broken.1 broken.2 rfl rfl rfl
    unfold Relay.rows
    rw [phase]

theorem decideJob_turn {windowOver : Bool} (phase : relay.phase = .deciding hadRows (some job)) :
  RelayTurn tables relay (decideJob config clock windowOver hadRows job relay tables).relay
    (decideJob config clock windowOver hadRows job relay tables).sent := by
  have running : relay.over = false := by
    unfold Relay.over
    rw [phase]
  have again : relay.over -> ∀ next : Relay, next.over := by
    rw [running]
    exact fun isOver => Bool.noConfusion isOver
  unfold decideJob
  split
  · exact .idle rfl rfl rfl rfl (again · _)
  · split
    · split
      · exact giveUp_turn tables relay
      · rename_i whole
        rw [not_or, Bool.not_eq_false] at whole
        exact .final _ _ _ running whole.1 rfl rfl rfl rfl
    · split
      · rename_i whole
        exact .final _ _ _ running (Bool.and_eq_true _ _ |>.mp whole).1 rfl rfl rfl rfl
      · split
        · exact giveUp_turn tables relay
        · split
          · split
            · exact .idle rfl rfl rfl rfl (again · _)
            · exact .idle rfl rfl rfl rfl (again · _)
          · split
            · exact giveUp_turn tables relay
            · exact .idle rfl rfl rfl rfl (again · _)

theorem relayStep_turn (config : PoolConfig) (clock : RelayClock) (move : RelayMove) (relay : Relay) (tables : Tables) :
  RelayTurn tables relay (relayStep config clock move relay tables).relay
    (relayStep config clock move relay tables).sent := by
  unfold relayStep
  split
  · exact .idle rfl rfl rfl rfl (fun _ => rfl)
  · split
    · exact .stay
    · exact giveUp_turn tables relay
  · exact .idle rfl rfl rfl rfl (fun _ => rfl)
  · rename_i phase
    refine .read ?_ rfl rfl rfl rfl
    unfold Relay.over
    rw [phase]
  · rename_i phase
    exact relayChunk_turn phase
  · rename_i phase
    refine .idle rfl rfl rfl rfl ?_
    unfold Relay.over
    rw [phase]
    exact fun isOver => Bool.noConfusion isOver
  · rename_i phase
    refine .idle rfl rfl rfl rfl ?_
    unfold Relay.over
    rw [phase]
    exact fun isOver => Bool.noConfusion isOver
  · exact giveUp_turn tables relay
  · rename_i phase
    exact decideJob_turn phase
  · exact .idle rfl rfl rfl rfl (fun _ => rfl)
  · exact .stay
  · exact .stay
  · exact .idle rfl rfl rfl rfl (fun _ => rfl)
  · exact .stay

variable {sent : List Record}

theorem RelayTurn.jobId {next : Relay} (turn : RelayTurn tables relay next sent) : next.jobId = relay.jobId := by
  cases turn with
  | stay => rfl
  | idle sameJob | read _ sameJob | send _ _ _ sameJob | final _ _ _ _ _ sameJob => exact sameJob

theorem RelayTurn.kept {next : Relay} (turn : RelayTurn tables relay next sent)
  (tablesKept : TablesKept tables) (kept : RelayKept tables relay) : RelayKept tables next := by
  cases turn with
  | stay => exact kept
  | idle sameJob sameSeq _ noRows => exact kept.idle sameJob sameSeq noRows
  | read _ sameJob sameSeq _ rows =>
    constructor
    · rw [sameJob, sameSeq]
      exact kept.sent
    · intro row mem job jobMember named
      rw [rows] at mem
      rcases mem_chunksAfter mem with ⟨stored, isJob, _⟩
      exact tablesKept.counted row stored job jobMember ((named.trans sameJob).trans isJob.symm)
  | send held position unended sameJob sameSeq sameTerminal =>
    rename_i row
    constructor
    · intro job jobMember named
      have within := kept.read row (held ▸ .head _) job jobMember (named.trans sameJob)
      omega
    · intro other mem job jobMember named
      exact kept.read other (held ▸ mem_cons_of_mem row mem) job jobMember (named.trans sameJob)
  | final _ _ _ _ _ sameJob sameSeq _ isOver => exact kept.idle sameJob sameSeq (Relay.rows_of_over isOver)

structure PoolKept (pool : Pool) : Prop where
  tables : TablesKept pool.tables
  issued : Issued pool.issued pool.tables
  relayIds : (pool.relays.map Relay.jobId).Nodup
  relayIssued : ∀ relay ∈ pool.relays, relay.jobId ∈ pool.issued
  relays : ∀ relay ∈ pool.relays, RelayKept pool.tables relay

theorem relayOf_spec {jobId : ℕ} (found : pool.relayOf jobId = some relay) :
    relay ∈ pool.relays /\ relay.jobId = jobId := of_find_key found

variable {action : PoolAction}

theorem tablesStep (config : PoolConfig) (kept : PoolKept pool) (enabled : poolEnabled pool action) :
  TablesStep config pool.issued pool.tables action.claims (poolNext config pool action).issued
    (poolNext config pool action).tables := by
  have distinct := kept.tables.distinct
  cases action with
  | insertJob jobId now new => exact .insert new now enabled
  | relay jobId clock move =>
    cases found : pool.relayOf jobId with
    | none =>
      simp only [poolNext, relayOutcome, found, map_none]
      exact .move _ (TablesMove.refl _)
    | some relay =>
      simp only [poolNext, relayOutcome, found, map_some]
      refine .move _ (TablesMove.relayStep config clock move relay ?_)
      exact fun job mem named _ => (kept.relays relay (relayOf_spec found).1).sent job mem named
  | touch workerId now | registerWorker workerId => exact .move _ (TablesMove.workers rfl rfl)
  | heartbeat workerId now report jobId => exact .move _ (TablesMove.heartbeat distinct workerId now report jobId)
  | claim asking now place =>
    change TablesStep config pool.issued pool.tables true pool.issued
      (((claim asking now place pool.tables).map Prod.fst).getD pool.tables)
    rcases claim_cases asking now place pool.tables with refused | ⟨_, nothing⟩ | ⟨job, offered, _, taken⟩
    · rw [refused]
      exact .move _ (TablesMove.refl _)
    · rw [nothing]
      exact .move _ (TablesMove.abandonAll distinct asking.workerId now)
    · rw [taken]
      exact .claim now offered
  | submitChunk now moment workerId jobId body =>
    change TablesStep config pool.issued pool.tables false pool.issued
      (submitChunk config now moment workerId jobId body pool.tables).1
    rcases submitChunk_cases config now moment workerId jobId body pool.tables with moves | ⟨_, next, same⟩
    · exact .move _ moves
    · rw [same]
      exact .store now next
  | complete now moment workerId jobId body => exact .move _ (TablesMove.complete config now moment workerId jobId body)
  | fail now workerId jobId body => exact .move _ (TablesMove.fail distinct config now workerId jobId body)
  | setEnabled workerId now on => exact .move _ (TablesMove.setEnabled workerId now on)
  | deleteWorker workerId now => exact .move _ (TablesMove.deleteWorker workerId now)
  | expireJobs moment => exact .move _ (TablesMove.expireJobs config moment)
  | forgetJobs now => exact .move _ (TablesMove.forgetJobs distinct now)

theorem relays_next (config : PoolConfig) (pool : Pool) (action : PoolAction) :
  ∀ relay ∈ (poolNext config pool action).relays,
    relay ∈ pool.relays \/ (∃ old ∈ pool.relays, ∃ sent, RelayTurn pool.tables old relay sent) \/
      ∃ jobId now new, action = .insertJob jobId now new /\ relay = Relay.fresh jobId := by
  intro relay mem
  cases action with
  | insertJob jobId now new =>
    rcases mem_snoc.mp mem with old | isNew
    · exact .inl old
    · exact .inr (.inr ⟨jobId, now, new, rfl, isNew⟩)
  | relay jobId clock move =>
    cases found : pool.relayOf jobId with
    | none =>
      simp only [poolNext, relayOutcome, found, map_none] at mem
      exact .inl mem
    | some old =>
      simp only [poolNext, relayOutcome, found, map_some] at mem
      rcases mem_updateWhere.mp mem with ⟨unmoved, _⟩ | ⟨_, _, _, rfl⟩
      · exact .inl unmoved
      · exact .inr (.inl ⟨old, (relayOf_spec found).1, _, relayStep_turn config clock move old pool.tables⟩)
  | _ => exact .inl mem

theorem relayIds_next (kept : PoolKept pool)
  (enabled : poolEnabled pool action) : ((poolNext config pool action).relays.map Relay.jobId).Nodup := by
  cases action with
  | insertJob jobId now new =>
    change ((pool.relays ++ [Relay.fresh jobId]).map Relay.jobId).Nodup
    rw [map_append, map_singleton, <- concat_eq_append]
    refine List.Nodup.concat ?_ kept.relayIds
    intro mem
    rcases mem_map.mp mem with ⟨relay, relayMember, same⟩
    have isJob : relay.jobId = jobId := same
    exact enabled (isJob ▸ kept.relayIssued relay relayMember)
  | relay jobId clock move =>
    cases found : pool.relayOf jobId with
    | none =>
      simp only [poolNext, relayOutcome, found, map_none]
      exact kept.relayIds
    | some relay =>
      simp only [poolNext, relayOutcome, found, map_some]
      unfold Pool.putRelay
      rw [map_updateWhere_of_mem Relay.jobId]
      · exact kept.relayIds
      · intro _ _ chosen
        exact (of_decide_eq_true chosen).symm
  | _ => exact kept.relayIds

theorem PoolKept.next (kept : PoolKept pool) (config : PoolConfig)
  (enabled : poolEnabled pool action) : PoolKept (poolNext config pool action) := by
  have step := tablesStep config kept enabled
  have tables := step.kept kept.issued kept.tables
  refine ⟨tables, step.named kept.tables kept.issued, relayIds_next kept enabled, ?_, ?_⟩
  · intro relay mem
    rcases relays_next config pool action relay mem with old | ⟨old, oldIn, _, turn⟩ | ⟨jobId, now, new, rfl, rfl⟩
    · exact step.issued_subset (kept.relayIssued relay old)
    · rw [turn.jobId]
      exact step.issued_subset (kept.relayIssued old oldIn)
    · exact .head _
  · intro relay mem
    rcases relays_next config pool action relay mem with old | ⟨old, oldIn, _, turn⟩ | ⟨_, _, _, rfl, rfl⟩
    · exact RelayKept.later step kept.tables (kept.relayIssued relay old) (kept.relays relay old)
    · have known : relay.jobId ∈ pool.issued := turn.jobId ▸ kept.relayIssued old oldIn
      exact RelayKept.later step kept.tables known (turn.kept kept.tables (kept.relays old oldIn))
    · constructor
      · intro job _ _
        change (-1 : ℤ) < job.nextChunkSeq
        omega
      · exact fun row rowMember => absurd rowMember not_mem_nil

theorem poolKept_invariant (config : PoolConfig) : (poolMachine config).Invariant PoolKept where
  initial := by
    rintro _ ⟨noJobs, noChunks, noRelays⟩
    refine ⟨⟨?_, ?_, ?_, ?_⟩, ⟨?_, ?_⟩, ?_, ?_, ?_⟩
    · simp [noJobs]
    · simp [noJobs]
    · simp [noJobs]
    · simp [noJobs]
    · simp [noJobs]
    · simp [noChunks]
    · simp [noRelays]
    · simp [noRelays]
    · simp [noRelays]
  step := fun _ _ kept enabled => kept.next config enabled

end BananaChat.Workers

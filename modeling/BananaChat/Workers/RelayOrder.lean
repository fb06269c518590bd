import BananaChat.Workers.JobStates

namespace BananaChat.Workers

open Foundation List Option JobStatus

/-!
# The relay sends the accepted chunks in order

The chunks a job accepted, in the order of their acceptance, are numbered from 0 on, and only the
last one may be final.
-/

def acceptedOf (jobId : ℕ) (history : List PoolEvent) : List ChunkRow :=
  history.filterMap fun event =>
    match event with
    | .accepted chunk => if chunk.jobId = jobId then some chunk else none
    | _ => none

def relayedOf (jobId : ℕ) (history : List PoolEvent) : List Record :=
  history.filterMap fun event =>
    match event with
    | .relayed other record => if other = jobId then some record else none
    | _ => none

def texts (chunks : List ChunkRow) : List Record := chunks.flatMap ChunkRow.record

def ChunkRow.size (chunk : ChunkRow) : ℕ := utf8Length chunk.content + utf8Length chunk.thinking

def bytes (chunks : List ChunkRow) : ℕ := (chunks.map ChunkRow.size).sum

theorem acceptedOf_append (jobId : ℕ) (first second : List PoolEvent) :
  acceptedOf jobId (first ++ second) = acceptedOf jobId first ++ acceptedOf jobId second :=
  filterMap_append

theorem relayedOf_append (jobId : ℕ) (first second : List PoolEvent) :
  relayedOf jobId (first ++ second) = relayedOf jobId first ++ relayedOf jobId second :=
  filterMap_append

theorem texts_append (first second : List ChunkRow) : texts (first ++ second) = texts first ++ texts second :=
  flatMap_append

variable {before after : Tables}

theorem quiet_of_hands (jobId : ℕ) :
  acceptedOf jobId (hands before after) = [] /\ relayedOf jobId (hands before after) = [] := by
  have about : ∀ event ∈ hands before after, ∃ named, concerns named event := by
    intro event mem
    rcases mem_flatMap.mp mem with ⟨job, _, reported⟩
    exact ⟨job.id, (concerns_of_hand reported).1⟩
  constructor
  · apply filterMap_eq_nil_iff.mpr
    intro event mem
    rcases about event mem with ⟨named, isHand⟩
    cases event with
    | accepted chunk => cases isHand
    | _ => rfl
  · apply filterMap_eq_nil_iff.mpr
    intro event mem
    rcases about event mem with ⟨_, isHand⟩
    cases event with
    | relayed other record => cases isHand
    | _ => rfl

theorem quiet_of_handed (config : PoolConfig) (pool : Pool) (action : PoolAction) (jobId : ℕ) :
  acceptedOf jobId (handed config pool action) = [] /\ relayedOf jobId (handed config pool action) = [] := by
  cases action with
  | claim asking now place =>
    simp only [handed]
    split
    · exact ⟨rfl, rfl⟩
    · rw [acceptedOf_append, relayedOf_append, (quiet_of_hands jobId).1, (quiet_of_hands jobId).2,
        (quiet_of_hands jobId).1, (quiet_of_hands jobId).2]
      exact ⟨rfl, rfl⟩
  | _ => exact quiet_of_hands jobId

theorem acceptedOf_relayedBy (config : PoolConfig) (pool : Pool) (action : PoolAction) (jobId : ℕ) :
  acceptedOf jobId (relayedBy config pool action) = [] := by
  apply filterMap_eq_nil_iff.mpr
  intro _ mem
  cases action with
  | relay other clock move =>
    simp only [relayedBy] at mem
    split at mem
    · exact absurd mem not_mem_nil
    · rcases mem_map.mp mem with ⟨_, _, rfl⟩
      rfl
  | _ => exact absurd mem not_mem_nil

theorem relayedOf_acceptedIn (before after : Tables) (jobId : ℕ) : relayedOf jobId (acceptedIn before after) = [] := by
  apply filterMap_eq_nil_iff.mpr
  intro _ mem
  rcases mem_map.mp mem with ⟨_, _, rfl⟩
  rfl

theorem acceptedOf_report (config : PoolConfig) (pool : Pool) (action : PoolAction) (jobId : ℕ) :
  acceptedOf jobId (poolReport config pool action) =
    acceptedOf jobId (acceptedIn pool.tables (poolNext config pool action).tables) := by
  unfold poolReport
  rw [acceptedOf_append, acceptedOf_append, (quiet_of_handed config pool action jobId).1, acceptedOf_relayedBy,
    nil_append, append_nil]

theorem relayedOf_report (config : PoolConfig) (pool : Pool) (action : PoolAction) (jobId : ℕ) :
  relayedOf jobId (poolReport config pool action) = relayedOf jobId (relayedBy config pool action) := by
  unfold poolReport
  rw [relayedOf_append, relayedOf_append, (quiet_of_handed config pool action jobId).2, relayedOf_acceptedIn]
  rfl

structure Streamed (config : PoolConfig) (accepted : ℕ -> List ChunkRow) (issued : List ℕ) (tables : Tables) : Prop where
  numbered : ∀ (jobId index : ℕ) (chunk : ChunkRow), (accepted jobId)[index]? = some chunk -> chunk.jobId = jobId /\ chunk.seq = index
  stored : ∀ chunk ∈ tables.chunks, (accepted chunk.jobId)[chunk.seq]? = some chunk
  counted : ∀ job ∈ tables.jobs,
    job.nextChunkSeq = (accepted job.id).length /\ job.streamBytes = bytes (accepted job.id)
  within : ∀ jobId, bytes (accepted jobId) <= config.chatMaxResponseBytes
  last : ∀ job ∈ tables.jobs, job.status.live -> ∀ chunk,
    (accepted job.id).getLast? = some chunk -> chunk ∈ tables.chunks
  final : ∀ (jobId index : ℕ) (chunk : ChunkRow), (accepted jobId)[index]? = some chunk -> chunk.done ->
    index + 1 = (accepted jobId).length
  unused : ∀ jobId, jobId ∉ issued -> accepted jobId = []

/-- A stage that stores no chunk: it leaves the counters of chunks alone. -/
structure Silent (issued : List ℕ) (before after : Tables) : Prop where
  rows : ∀ job ∈ after.jobs,
    (∃ old ∈ before.jobs, old.id = job.id /\ old.nextChunkSeq = job.nextChunkSeq /\
      old.streamBytes = job.streamBytes /\ (job.status.live -> old.status.live)) \/
      (job.id ∉ issued /\ job.nextChunkSeq = 0 /\ job.streamBytes = 0)
  chunks : after.chunks.Sublist before.chunks
  last : ∀ job ∈ after.jobs, job.status.live -> ∀ chunk ∈ before.chunks,
    chunk.jobId = job.id -> chunk.seq + 1 = job.nextChunkSeq -> chunk ∈ after.chunks

theorem live_of_moves {old new : Job} (moves : old.Moves new) (live : new.status.live) : old.status.live := by
  rcases old.status.kinds with waiting | active | terminal
  · exact live_of_waiting waiting
  · exact live_of_active active
  · rw [moves.absorbing terminal] at live
    exact absurd terminal (not_terminal_of_live live)

theorem TablesMove.silent (moves : TablesMove before after) (issued : List ℕ) : Silent issued before after where
  rows := by
    intro job mem
    rcases moves.rows job mem with ⟨old, oldIn, move⟩
    exact .inl ⟨old, oldIn, move.id.symm, move.chunks.symm, move.bytes.symm, live_of_moves move⟩
  chunks := moves.chunks
  last := moves.last

variable {jobId : ℕ}

theorem silent_insertJob {issued : List ℕ} {new : NewJob} {now : ℚ} {tables : Tables} (fresh : jobId ∉ issued) :
  Silent issued tables (insertJob new jobId now tables) where
  rows := by
    intro job mem
    rcases mem_insertJob mem with old | rfl
    · exact .inl ⟨job, old, rfl, rfl, rfl, id⟩
    · exact .inr ⟨fresh, rfl, rfl⟩
  chunks := List.Sublist.refl _
  last := fun _ _ _ _ mem _ _ => mem

theorem silent_setClaimed (issued : List ℕ) (jobId workerId : ℕ) (now : ℚ) (tables : Tables) :
  Silent issued tables (setClaimed jobId workerId now tables) where
  rows := by
    intro job mem
    rcases mem_setClaimed mem with old | ⟨old, oldIn, _, waiting, _, rfl⟩
    · exact .inl ⟨job, old, rfl, rfl, rfl, id⟩
    · exact .inl ⟨old, oldIn, rfl, rfl, rfl, fun _ => live_of_waiting waiting⟩
  chunks := List.Sublist.refl _
  last := fun _ _ _ _ mem _ _ => mem

theorem Streamed.silent {config : PoolConfig} {accepted : ℕ -> List ChunkRow} {issued issuedAfter : List ℕ}
  (kept : Streamed config accepted issued before) (silent : Silent issued before after)
  (grows : issued ⊆ issuedAfter) : Streamed config accepted issuedAfter after where
  numbered := kept.numbered
  stored := fun chunk mem => kept.stored chunk (silent.chunks.subset mem)
  counted := by
    intro job mem
    rcases silent.rows job mem with ⟨old, oldIn, same, sameNext, sameBytes, _⟩ | ⟨fresh, noNext, noBytes⟩
    · rw [<- same, <- sameNext, <- sameBytes]
      exact kept.counted old oldIn
    · rw [kept.unused job.id fresh]
      exact ⟨noNext, noBytes⟩
  within := kept.within
  last := by
    intro job mem live chunk isLast
    rcases silent.rows job mem with ⟨old, oldIn, same, _, _, oldLive⟩ | ⟨fresh, _, _⟩
    · rw [<- same] at isLast
      have before := kept.last old oldIn (oldLive live) chunk isLast
      have length := (kept.counted old oldIn).1
      rw [getLast?_eq_getElem?] at isLast
      rcases kept.numbered old.id _ chunk isLast with ⟨named, _⟩
      have bound := (List.getElem?_eq_some_iff.mp isLast).1
      refine silent.last job mem live chunk before (named.trans same) ?_
      omega
    · rw [kept.unused job.id fresh] at isLast
      cases isLast
  final := kept.final
  unused := fun jobId fresh => kept.unused jobId (fun known => fresh (grows known))

theorem getElem?_concat {chunks : List ChunkRow} {new chunk : ChunkRow} {index : ℕ}
  (found : (chunks ++ [new])[index]? = some chunk) :
  chunks[index]? = some chunk \/ (index = chunks.length /\ new = chunk) := by
  rcases Nat.lt_trichotomy index chunks.length with within | rfl | _
  · rw [getElem?_append_left within] at found
    exact .inl found
  · rw [getElem?_concat_length] at found
    exact .inr ⟨rfl, some.inj found⟩
  · rw [getElem?_eq_none (by rw [length_append, length_singleton]; omega)] at found
    cases found

theorem kept_size (config : PoolConfig) (job : Job) (body : ChunkBody) (room : job.streamBytes <= config.chatMaxResponseBytes) :
  job.streamBytes + (kept config job body).1.size <= config.chatMaxResponseBytes := by
  unfold kept
  by_cases tooLong : budget config job < body.size
  · rw [if_pos tooLong]
    have thinkingFits := utf8Length_truncateUtf8 body.thinking (budget config job)
    have contentFits := utf8Length_truncateUtf8 body.content
      (budget config job - utf8Length (truncateUtf8 body.thinking (budget config job)))
    unfold budget at *
    change job.streamBytes + (utf8Length (truncateUtf8 body.content _) + utf8Length (truncateUtf8 body.thinking _)) <= _
    omega
  · rw [if_neg tooLong]
    unfold budget at tooLong
    change job.streamBytes + body.size <= config.chatMaxResponseBytes
    omega

theorem storeChunk_chunks (config : PoolConfig) (now : ℚ) (job : Job) (body : ChunkBody) (tables : Tables) :
  (storeChunk config now job body tables).1.chunks = tables.chunks ++ [(kept config job body).1.row job.id] := by
  change (if _ then _ else _ : Tables × Reply).1.chunks = _
  split <;> rfl

def accept (accepted : ℕ -> List ChunkRow) (chunk : ChunkRow) (jobId : ℕ) : List ChunkRow :=
  if chunk.jobId = jobId then accepted jobId ++ [chunk] else accepted jobId

variable {config : PoolConfig} {accepted : ℕ -> List ChunkRow} {issued : List ℕ} {tables : Tables}

variable {body : ChunkBody} {job : Job}

theorem Streamed.unfinished (streamed : Streamed config accepted issued tables) {workerId : ℕ}
  (next : Next workerId jobId body tables job) :
  ∀ (index : ℕ) (chunk : ChunkRow), (accepted job.id)[index]? = some chunk -> chunk.done = false := by
  intro index chunk found
  rw [<- Bool.not_eq_true]
  intro done
  have position := streamed.final job.id index chunk found done
  have length := (streamed.counted job next.mem).1
  have isLast : (accepted job.id).getLast? = some chunk := by
    rw [getLast?_eq_getElem?]
    have same : (accepted job.id).length - 1 = index := by omega
    rw [same, found]
  have live := live_of_active (Job.heldBy_iff.mp next.held).1
  have mem := streamed.last job next.mem live chunk isLast
  rcases streamed.numbered job.id index chunk found with ⟨named, _⟩
  have opened := next.open_
  unfold lastChunk at opened
  rw [if_neg (by omega)] at opened
  cases at_ : chunkAt job.id (job.nextChunkSeq - 1) tables with
  | none =>
    refine absurd (decide_eq_true ?_) (find?_eq_none.mp at_ chunk mem)
    exact ⟨named, by omega⟩
  | some other =>
    have otherNamed : other.jobId = job.id /\ other.seq = job.nextChunkSeq - 1 := by
      simpa [ChunkRow.named] using find?_some at_
    have otherFound := streamed.stored other (mem_of_find?_eq_some at_)
    rw [otherNamed.1, otherNamed.2] at otherFound
    have sameIndex : job.nextChunkSeq - 1 = index := by omega
    rw [sameIndex, found] at otherFound
    rw [at_, any_some, <- some.inj otherFound, done] at opened
    cases opened

theorem Streamed.store (streamed : Streamed config accepted issued tables) (tablesKept : TablesKept tables)
  (named : Issued issued tables) {workerId : ℕ} (next : Next workerId jobId body tables job) (now : ℚ) :
  Streamed config (accept accepted ((kept config job body).1.row job.id)) issued
    (storeChunk config now job body tables).1 := by
  have counted := streamed.counted job next.mem
  have position : ((kept config job body).1.row job.id).seq = (accepted job.id).length := by
    have numbered := kept_seq config job body
    have isNext := next.seq
    change (kept config job body).1.seq.toNat = _
    omega
  have opened := streamed.unfinished next
  have same : accept accepted ((kept config job body).1.row job.id) job.id =
      accepted job.id ++ [(kept config job body).1.row job.id] := if_pos rfl
  have other : ∀ otherId, otherId ≠ job.id ->
      accept accepted ((kept config job body).1.row job.id) otherId = accepted otherId :=
    fun otherId apart => if_neg (apart ·.symm)
  have rows : ∀ row ∈ (storeChunk config now job body tables).1.jobs,
      (∃ old ∈ tables.jobs, old.id ≠ job.id /\ old.id = row.id /\ old.nextChunkSeq = row.nextChunkSeq /\
        old.streamBytes = row.streamBytes /\ (row.status.live -> old.status.live)) \/
      (row.id = job.id /\ row.nextChunkSeq = job.nextChunkSeq + 1 /\
        row.streamBytes = job.streamBytes + (kept config job body).1.size) := by
    intro row mem
    rcases (storeChunk_moves config now job body tables).rows row mem with ⟨middle, middleMember, move⟩
    rcases mem_stored tablesKept.distinct next.mem middleMember with ⟨old, apart⟩ | rfl
    · exact .inl ⟨middle, old, apart, move.id.symm, move.chunks.symm, move.bytes.symm, live_of_moves move⟩
    · exact .inr ⟨move.id, move.chunks, move.bytes⟩
  have chunks := storeChunk_chunks config now job body tables
  have bytesSame : bytes (accepted job.id ++ [(kept config job body).1.row job.id]) =
      bytes (accepted job.id) + (kept config job body).1.size := by
    unfold bytes
    rw [map_append, sum_append, map_singleton, sum_singleton]
    rfl
  constructor
  · intro otherId index chunk found
    by_cases isJob : otherId = job.id
    · subst isJob
      rw [same] at found
      rcases getElem?_concat found with old | ⟨atEnd, rfl⟩
      · exact streamed.numbered _ index chunk old
      · exact ⟨rfl, position.trans atEnd.symm⟩
    · rw [other otherId isJob] at found
      exact streamed.numbered otherId index chunk found
  · intro chunk mem
    rw [chunks] at mem
    rcases mem_snoc.mp mem with old | new
    · have found := streamed.stored chunk old
      by_cases isJob : chunk.jobId = job.id
      · rw [isJob, same]
        rw [isJob] at found
        rw [List.getElem?_append_left (List.getElem?_eq_some_iff.mp found).1]
        exact found
      · rw [other chunk.jobId isJob]
        exact found
    · rw [new, position]
      change (accept accepted _ job.id)[_]? = _
      rw [same]
      exact getElem?_concat_length
  · intro row mem
    rcases rows row mem with ⟨old, oldIn, apart, sameId, sameNext, sameBytes, _⟩ | ⟨isJob, sameNext, sameBytes⟩
    · rw [<- sameId, other old.id apart, <- sameNext, <- sameBytes]
      exact streamed.counted old oldIn
    · rw [isJob, same, sameNext, sameBytes, bytesSame, length_append, length_singleton, counted.1, counted.2]
      exact ⟨rfl, rfl⟩
  · intro otherId
    by_cases isJob : otherId = job.id
    · subst isJob
      rw [same, bytesSame, <- counted.2]
      apply kept_size
      rw [counted.2]
      exact streamed.within job.id
    · rw [other otherId isJob]
      exact streamed.within otherId
  · intro row mem live chunk isLast
    rw [chunks]
    rcases rows row mem with ⟨old, oldIn, apart, sameId, _, _, oldLive⟩ | ⟨isJob, _, _⟩
    · rw [<- sameId, other old.id apart] at isLast
      exact mem_append_left _ (streamed.last old oldIn (oldLive live) chunk isLast)
    · rw [isJob, same, getLast?_concat] at isLast
      rw [<- some.inj isLast]
      exact mem_append_right _ (mem_singleton_self _)
  · intro otherId index chunk found done
    by_cases isJob : otherId = job.id
    · subst isJob
      rw [same] at found ⊢
      rcases getElem?_concat found with old | ⟨atEnd, rfl⟩
      · rw [opened index chunk old] at done
        cases done
      · rw [length_append, length_singleton, atEnd]
    · rw [other otherId isJob] at found ⊢
      exact streamed.final otherId index chunk found done
  · intro otherId fresh
    have apart : otherId ≠ job.id := by
      intro isJob
      exact fresh (isJob ▸ named.jobs job next.mem)
    rw [other otherId apart]
    exact streamed.unused otherId fresh

theorem acceptedIn_of_sublist (fewer : after.chunks.Sublist before.chunks) : acceptedIn before after = [] := by
  unfold acceptedIn
  rw [drop_eq_nil_of_le fewer.length_le, map_nil]

theorem TablesStep.streamed {claims : Bool} {issuedAfter : List ℕ}
  (step : TablesStep config issued tables claims issuedAfter after) (tablesKept : TablesKept tables)
  (named : Issued issued tables) (streamed : Streamed config accepted issued tables) :
  (acceptedIn tables after = [] /\ Streamed config accepted issuedAfter after) \/
    ∃ chunk, acceptedIn tables after = [.accepted chunk] /\
      Streamed config (accept accepted chunk) issuedAfter after /\
      ∀ (index : ℕ) (old : ChunkRow), (accepted chunk.jobId)[index]? = some old -> old.done = false := by
  cases step with
  | move _ moves =>
    exact .inl ⟨acceptedIn_of_sublist moves.chunks, streamed.silent (moves.silent issued) (List.Subset.refl _)⟩
  | insert new now fresh =>
    exact .inl ⟨acceptedIn_of_sublist (List.Sublist.refl _),
      streamed.silent (silent_insertJob fresh) (subset_cons_self _ _)⟩
  | claim now offered =>
    rename_i asking job
    have freed := TablesMove.abandonAll tablesKept.distinct asking.workerId now
    have freedStreamed := streamed.silent (freed.silent issued) (List.Subset.refl _)
    exact .inl ⟨acceptedIn_of_sublist freed.chunks,
      freedStreamed.silent (silent_setClaimed issued job.id asking.workerId now _) (List.Subset.refl _)⟩
  | store now next =>
    rename_i workerId jobId body job
    refine .inr ⟨(Workers.kept config job body).1.row job.id, ?_, streamed.store tablesKept named next now, streamed.unfinished next⟩
    unfold acceptedIn
    rw [storeChunk_chunks, drop_left, map_singleton]

section Relays

def Relay.count (relay : Relay) : ℕ := (relay.lastSeq + 1).toNat

structure Shows (chunks : List ChunkRow) (sent : List Record) (relay : Relay) : Prop where
  position : 0 <= relay.lastSeq + 1
  within : relay.count <= chunks.length
  sent : sent = texts (chunks.take relay.count) \/
    (relay.over /\ relay.terminal /\ ∃ reason promptTokens completionTokens,
      sent = texts (chunks.take relay.count) ++ [.final reason promptTokens completionTokens])
  terminal : relay.terminal ->
    relay.count = chunks.length /\ ∃ last, chunks.getLast? = some last /\ last.done
  rows : ∀ row ∈ relay.rows, chunks[row.seq]? = some row

variable {chunks : List ChunkRow} {sent : List Record} {relay later : Relay}

theorem Relay.count_of_same (same : later.lastSeq = relay.lastSeq) : later.count = relay.count := by
  unfold Relay.count
  rw [same]

theorem Shows.running (shows : Shows chunks sent relay) (running : relay.over = false) :
  sent = texts (chunks.take relay.count) := by
  rcases shows.sent with plain | ⟨isOver, _, _⟩
  · exact plain
  · rw [running] at isOver
    cases isOver

theorem Shows.idle (shows : Shows chunks sent relay) (sameSeq : later.lastSeq = relay.lastSeq)
  (sameTerminal : later.terminal = relay.terminal) (rows : ∀ row ∈ later.rows, chunks[row.seq]? = some row)
  (stays : relay.over -> later.over) : Shows chunks sent later where
  position := by
    rw [sameSeq]
    exact shows.position
  within := by
    rw [Relay.count_of_same sameSeq]
    exact shows.within
  sent := by
    rw [Relay.count_of_same sameSeq, sameTerminal]
    rcases shows.sent with plain | ⟨isOver, ended⟩
    · exact .inl plain
    · exact .inr ⟨stays isOver, ended⟩
  terminal := by
    rw [Relay.count_of_same sameSeq, sameTerminal]
    exact shows.terminal
  rows := rows

theorem Relay.running_of_rows {row : ChunkRow} (mem : row ∈ relay.rows) : relay.over = false := by
  rw [<- Bool.not_eq_true]
  intro isOver
  rw [Relay.rows_of_over isOver] at mem
  exact absurd mem not_mem_nil

theorem Shows.turn (streamed : Streamed config accepted issued tables) {records : List Record}
  (shows : Shows (accepted relay.jobId) sent relay) (turn : RelayTurn tables relay later records) :
  Shows (accepted relay.jobId) (sent ++ records) later := by
  cases turn with
  | stay =>
    rw [append_nil]
    exact shows
  | idle _ sameSeq sameTerminal noRows stays =>
    rw [append_nil]
    refine shows.idle sameSeq sameTerminal ?_ stays
    rw [noRows]
    exact fun row mem => absurd mem not_mem_nil
  | read running _ sameSeq sameTerminal rows =>
    rw [append_nil]
    refine shows.idle sameSeq sameTerminal ?_ ?_
    · intro row mem
      rw [rows] at mem
      rcases mem_chunksAfter mem with ⟨stored, named, _⟩
      rw [<- named]
      exact streamed.stored row stored
    · rw [running]
      exact fun isOver => Bool.noConfusion isOver
  | @send _ row held position unended _ sameSeq sameTerminal =>
    have mem : row ∈ relay.rows := held ▸ mem_cons_self
    have found := shows.rows row mem
    have isCount : row.seq = relay.count := by
      unfold Relay.count
      omega
    have nextCount : later.count = relay.count + 1 := by
      have before := shows.position
      unfold Relay.count
      omega
    have bound := (List.getElem?_eq_some_iff.mp found).1
    rw [isCount] at found bound
    constructor
    · omega
    · rw [nextCount]
      exact bound
    · left
      rw [shows.running (Relay.running_of_rows mem), nextCount, take_add_one, found, texts_append]
      simp [texts]
    · intro ended
      rw [sameTerminal] at ended
      have isLast := streamed.final relay.jobId relay.count row found ended
      refine ⟨nextCount.trans isLast, row, ?_, ended⟩
      rw [getLast?_eq_getElem?]
      have same : (accepted relay.jobId).length - 1 = relay.count := by omega
      rw [same, found]
    · intro other otherIn
      exact shows.rows other (held ▸ mem_cons_of_mem row otherIn)
  | final reason promptTokens completionTokens running ended _ sameSeq sameTerminal isOver =>
    have plain := shows.running running
    constructor
    · rw [sameSeq]
      exact shows.position
    · rw [Relay.count_of_same sameSeq]
      exact shows.within
    · right
      refine ⟨isOver, sameTerminal.trans ended, reason, promptTokens, completionTokens, ?_⟩
      rw [Relay.count_of_same sameSeq, plain]
    · rw [Relay.count_of_same sameSeq, sameTerminal]
      exact shows.terminal
    · rw [Relay.rows_of_over isOver]
      exact fun row mem => absurd mem not_mem_nil

theorem Shows.accept (shows : Shows chunks sent relay) (new : ChunkRow)
  (unfinished : ∀ (index : ℕ) (old : ChunkRow), chunks[index]? = some old -> old.done = false) :
  Shows (chunks ++ [new]) sent relay := by
  have unended : ¬ relay.terminal := by
    intro ended
    rcases shows.terminal ended with ⟨_, last, isLast, done⟩
    rw [getLast?_eq_getElem?] at isLast
    rw [unfinished _ last isLast] at done
    cases done
  constructor
  · exact shows.position
  · rw [length_append]
    exact le_trans shows.within (Nat.le_add_right _ _)
  · rw [take_append_of_le_length shows.within]
    exact shows.sent
  · exact fun ended => absurd ended unended
  · intro row mem
    have found := shows.rows row mem
    rw [List.getElem?_append_left (List.getElem?_eq_some_iff.mp found).1]
    exact found

end Relays

structure PoolStreamed (config : PoolConfig) (history : List PoolEvent) (pool : Pool) : Prop where
  kept : PoolKept pool
  streamed : Streamed config (acceptedOf · history) pool.issued pool.tables
  shows : ∀ relay ∈ pool.relays,
    Shows (acceptedOf relay.jobId history) (relayedOf relay.jobId history) relay
  unsent : ∀ jobId, (∀ relay ∈ pool.relays, relay.jobId ≠ jobId) -> relayedOf jobId history = []

theorem relayedOf_sent (records : List Record) (named jobId : ℕ) :
  relayedOf jobId (records.map (PoolEvent.relayed named)) = if named = jobId then records else [] := by
  unfold relayedOf
  rw [filterMap_map]
  by_cases same : named = jobId
  · rw [if_pos same]
    have all : ((fun event : PoolEvent =>
        match event with
        | .relayed other record => if other = jobId then some record else none
        | _ => none) ∘ PoolEvent.relayed named) = some := by
      funext record
      simp [same]
    rw [all, filterMap_some]
  · rw [if_neg same]
    apply filterMap_eq_nil_iff.mpr
    intro _ _
    simp [same]

variable {history : List PoolEvent} {pool : Pool} {action : PoolAction}

theorem PoolStreamed.turned (before : PoolStreamed config history pool) (enabled : poolEnabled pool action) :
  ∀ relay ∈ (poolNext config pool action).relays,
    Shows (acceptedOf relay.jobId history) (relayedOf relay.jobId (history ++ poolReport config pool action)) relay := by
  intro relay mem
  rw [relayedOf_append, relayedOf_report]
  cases action with
  | insertJob jobId now new =>
    rw [show relayedOf relay.jobId (relayedBy config pool (.insertJob jobId now new)) = [] from rfl, append_nil]
    rcases mem_snoc.mp mem with old | isNew
    · exact before.shows relay old
    · rw [isNew]
      have apart : ∀ other ∈ pool.relays, other.jobId ≠ jobId :=
        fun other otherIn same => enabled (same ▸ before.kept.relayIssued other otherIn)
      have noChunks := before.streamed.unused jobId enabled
      constructor
      · exact le_refl 0
      · exact Nat.zero_le _
      · exact .inl (before.unsent jobId apart)
      · exact fun ended => Bool.noConfusion ended
      · exact fun row rowMember => absurd rowMember not_mem_nil
  | relay jobId clock move =>
    cases found : pool.relayOf jobId with
    | none =>
      simp only [poolNext, relayedBy, relayOutcome, found, map_none] at mem ⊢
      rw [show relayedOf relay.jobId [] = [] from rfl, append_nil]
      exact before.shows relay mem
    | some old =>
      rcases relayOf_spec found with ⟨oldIn, named⟩
      have turn := relayStep_turn config clock move old pool.tables
      simp only [poolNext, relayedBy, relayOutcome, found, map_some] at mem ⊢
      rw [relayedOf_sent]
      rcases Rows.mem_updateWhere.mp mem with ⟨unmoved, unchosen⟩ | ⟨_, _, _, rfl⟩
      · have apart : jobId ≠ relay.jobId := by
          intro same
          exact unchosen (decide_eq_true (same.symm.trans (named.symm.trans turn.jobId.symm)))
        rw [if_neg apart, append_nil]
        exact before.shows relay unmoved
      · rw [turn.jobId, if_pos named.symm]
        exact Shows.turn before.streamed (before.shows old oldIn) turn
  | _ =>
    rw [show relayedOf relay.jobId (relayedBy config pool _) = [] from rfl, append_nil]
    exact before.shows relay mem

theorem unrelayed (absent : ∀ relay ∈ (poolNext config pool action).relays, relay.jobId ≠ jobId) :
  ∀ relay ∈ pool.relays, relay.jobId ≠ jobId := by
  intro relay mem
  cases action with
  | insertJob otherId now new => exact absent relay (mem_append_left _ mem)
  | relay otherId clock move =>
    cases found : pool.relayOf otherId with
    | none =>
      simp only [poolNext, relayOutcome, found, map_none] at absent
      exact absent relay mem
    | some old =>
      have turn := relayStep_turn config clock move old pool.tables
      simp only [poolNext, relayOutcome, found, map_some] at absent
      by_cases chosen : relay.jobId = (relayStep config clock move old pool.tables).relay.jobId
      · rw [chosen]
        refine absent _ (Rows.mem_updateWhere.mpr (.inr ⟨relay, mem, decide_eq_true chosen, rfl⟩))
      · exact absent relay (Rows.mem_updateWhere.mpr (.inl ⟨mem, by simpa using chosen⟩))
  | _ => exact absent relay mem

theorem PoolStreamed.next (before : PoolStreamed config history pool) (enabled : poolEnabled pool action) :
  PoolStreamed config (history ++ poolReport config pool action) (poolNext config pool action) := by
  have turned := before.turned enabled
  have unsent : ∀ jobId, (∀ relay ∈ (poolNext config pool action).relays, relay.jobId ≠ jobId) ->
      relayedOf jobId (history ++ poolReport config pool action) = [] := by
    intro jobId absent
    rw [relayedOf_append, relayedOf_report, before.unsent jobId (unrelayed absent), nil_append]
    cases action with
    | relay otherId clock move =>
      cases found : pool.relayOf otherId with
      | none =>
        simp only [relayedBy, relayOutcome, found, map_none]
        rfl
      | some old =>
        rcases relayOf_spec found with ⟨oldIn, named⟩
        have apart : otherId ≠ jobId := by
          intro same
          exact unrelayed absent old oldIn (named.trans same)
        simp only [relayedBy, relayOutcome, found, map_some]
        rw [relayedOf_sent, if_neg apart]
    | _ => rfl
  rcases (tablesStep config before.kept enabled).streamed before.kept.tables before.kept.issued before.streamed with
    ⟨nothing, streamed⟩ | ⟨chunk, stored, streamed, unfinished⟩
  · have same : ∀ jobId, acceptedOf jobId (history ++ poolReport config pool action) = acceptedOf jobId history := by
      intro jobId
      rw [acceptedOf_append, acceptedOf_report, nothing]
      exact append_nil _
    refine ⟨before.kept.next config enabled, ?_, ?_, unsent⟩
    · simp only [same]
      exact streamed
    · intro relay mem
      rw [same]
      exact turned relay mem
  · have grown : (fun jobId => acceptedOf jobId (history ++ poolReport config pool action)) =
        accept (acceptedOf · history) chunk := by
      funext jobId
      rw [acceptedOf_append, acceptedOf_report, stored]
      unfold accept
      by_cases same : chunk.jobId = jobId
      · simp [acceptedOf, same]
      · simp [acceptedOf, same]
    refine ⟨before.kept.next config enabled, ?_, ?_, unsent⟩
    · rw [grown]
      exact streamed
    · intro relay mem
      have shows := turned relay mem
      have isGrown := congrFun grown relay.jobId
      rw [isGrown]
      unfold accept
      by_cases same : chunk.jobId = relay.jobId
      · rw [if_pos same]
        exact shows.accept chunk (same ▸ unfinished)
      · rw [if_neg same]
        exact shows

theorem poolStreamed_of_trace
  (trace : (poolMachine config).Trace (poolReport config) history pool) : PoolStreamed config history pool := by
  apply trace.induct
  · intro start initial
    refine ⟨(poolKept_invariant config).initial start initial, ?_, ?_, fun _ _ => rfl⟩
    · rcases initial with ⟨noJobs, noChunks, _⟩
      constructor
      · exact fun jobId index chunk found => nomatch found
      · simp [noChunks]
      · simp [noJobs]
      · exact fun jobId => Nat.zero_le config.chatMaxResponseBytes
      · simp [noJobs]
      · exact fun jobId index chunk found => nomatch found
      · exact fun jobId _ => rfl
    · rcases initial with ⟨_, _, noRelays⟩
      simp [noRelays]
  · exact fun history pool action before enabled => before.next enabled

/--
In every run, what was sent to the requester of a job is the text of a beginning of the chunks the job
accepted, which are numbered without gaps.
-/
theorem relay_exact (config : PoolConfig) {history : List PoolEvent} {pool : Pool}
  (trace : (poolMachine config).Trace (poolReport config) history pool) (jobId : ℕ) :
  ((∃ count, relayedOf jobId history = texts ((acceptedOf jobId history).take count)) \/
      ∃ reason promptTokens completionTokens last,
        relayedOf jobId history = texts (acceptedOf jobId history) ++ [.final reason promptTokens completionTokens] /\
          (acceptedOf jobId history).getLast? = some last /\ last.done) /\
    (∀ (index : ℕ) (chunk : ChunkRow), (acceptedOf jobId history)[index]? = some chunk ->
      chunk.jobId = jobId /\ chunk.seq = index) /\
    bytes (acceptedOf jobId history) <= config.chatMaxResponseBytes := by
  have streamed := poolStreamed_of_trace trace
  refine ⟨?_, streamed.streamed.numbered jobId, streamed.streamed.within jobId⟩
  by_cases present : ∃ relay ∈ pool.relays, relay.jobId = jobId
  · rcases present with ⟨relay, mem, rfl⟩
    have shows := streamed.shows relay mem
    rcases shows.sent with plain | ⟨_, ended, reason, promptTokens, completionTokens, sent⟩
    · exact .inl ⟨relay.count, plain⟩
    · rcases shows.terminal ended with ⟨all, last, isLast, done⟩
      rw [all, take_length] at sent
      exact .inr ⟨reason, promptTokens, completionTokens, last, sent, isLast, done⟩
  · left
    refine ⟨0, ?_⟩
    rw [streamed.unsent jobId fun relay mem same => present ⟨relay, mem, same⟩]
    rfl

/-- The relay reads the one chunk, sends it, and then the final record of the
completed job. -/
def answerRelayed : List PoolAction :=
  oneAnswer ++ [.complete 13 ⟨13, 0⟩ 7 0 ⟨some 3, some 1, some "stop"⟩] ++
    replicate 5 (.relay 0 ⟨14, 14⟩ (.advance false))

theorem relay_exact_witness :
  relayedOf 0 ((poolMachine smallPool).reports (poolReport smallPool) emptyPool answerRelayed) =
      [.text "hi" "", .final "stop" (some 3) (some 1)] /\
    bytes (acceptedOf 0 ((poolMachine smallPool).reports (poolReport smallPool) emptyPool answerRelayed)) <= 64 := by
  have trace := trace_of_actions (show (poolMachine smallPool).Admits emptyPool answerRelayed by decide +kernel)
  exact ⟨by decide +kernel, (relay_exact smallPool trace 0).2.2⟩

/-- What a job's row says of its stream is what was accepted; nothing follows a final chunk, and a job that goes on still has
the last chunk, with which a repetition is compared. -/
theorem rows_count_accepted (config : PoolConfig) {history : List PoolEvent} {pool : Pool}
  (trace : (poolMachine config).Trace (poolReport config) history pool) :
  (∀ (jobId index : ℕ) (chunk : ChunkRow), (acceptedOf jobId history)[index]? = some chunk -> chunk.done ->
    index + 1 = (acceptedOf jobId history).length) /\
  ∀ job ∈ pool.tables.jobs, job.nextChunkSeq = (acceptedOf job.id history).length /\
    job.streamBytes = bytes (acceptedOf job.id history) /\
    (job.status.live -> ∀ chunk, (acceptedOf job.id history).getLast? = some chunk -> chunk ∈ pool.tables.chunks) := by
  have streamed := (poolStreamed_of_trace trace).streamed
  refine ⟨streamed.final, fun job mem => ?_⟩
  have counted := streamed.counted job mem
  exact ⟨counted.1, counted.2, streamed.last job mem⟩

theorem rows_count_accepted_relayed : (poolMachine smallPool).Admits emptyPool answerRelayed /\
    ∀ job ∈ ((poolMachine smallPool).run emptyPool answerRelayed).tables.jobs, job.nextChunkSeq =
      (acceptedOf job.id ((poolMachine smallPool).reports (poolReport smallPool) emptyPool answerRelayed)).length := by
  have admitted : (poolMachine smallPool).Admits emptyPool answerRelayed := by decide +kernel
  exact ⟨admitted, fun job mem => ((rows_count_accepted smallPool (trace_of_actions admitted)).2 job mem).1⟩

end BananaChat.Workers

import BananaChat.Workers.Relay

namespace BananaChat.Workers

open Foundation Bool Rows JobStatus

/-!
# What a write can do to a job

`Follows` holds between the row of a job before and after any operation, and `Moves` of the
operations that neither hand the job to a worker nor store a chunk of it.
-/

/-- What holds of every row of `worker_jobs`. -/
structure Job.Good (job : Job) : Prop where
  stop : job.stopRequested ↔ job.status = .failed \/ job.status = .timeout
  named : job.status.active -> job.workerId.isSome
  cleared : job.status.terminal -> job.messages = "[]" /\ job.options = none
  unstarted : job.status = .pending -> job.nextChunkSeq = 0
  bounded : job.requeues <= maxRequeues

def Job.returned (old new : Job) : Bool := old.status.active && new.status.waiting

structure Job.Follows (old new : Job) : Prop where
  id : new.id = old.id
  good : old.Good -> new.Good
  absorbing : old.status.terminal -> new.status = old.status
  sequence : old.nextChunkSeq <= new.nextChunkSeq
  requeues : old.requeues + (old.returned new).toNat <= new.requeues

structure Job.Moves (old new : Job) : Prop extends Job.Follows old new where
  holder : new.status.active -> old.status.active /\ new.workerId = old.workerId
  chunks : new.nextChunkSeq = old.nextChunkSeq
  bytes : new.streamBytes = old.streamBytes

variable {status : JobStatus} {ending : Ending}

namespace JobStatus

theorem not_terminal_of_live (live : status.live) : ¬ status.terminal := by
  revert live
  cases status <;> decide

theorem live_of_active (isActive : status.active) : status.live := by
  revert isActive
  cases status <;> decide

theorem live_of_waiting (isWaiting : status.waiting) : status.live := by
  revert isWaiting
  cases status <;> decide

theorem not_active_of_terminal (isTerminal : status.terminal) : status.active = false := by
  revert isTerminal
  cases status <;> decide

theorem not_waiting_of_terminal (isTerminal : status.terminal) : status.waiting = false := by
  revert isTerminal
  cases status <;> decide

theorem not_waiting_of_active (isActive : status.active) : status.waiting = false := by
  revert isActive
  cases status <;> decide

theorem kinds (status : JobStatus) : status.waiting \/ status.active \/ status.terminal := by
  cases status <;> decide

end JobStatus

namespace Job

theorem returned_self (job : Job) : job.returned job = false := by
  unfold returned
  cases job.status <;> rfl

variable {old new : Job}

theorem returned_same (same : new.status = old.status) : old.returned new = false := by
  unfold returned
  rw [same]
  exact returned_self old

theorem Moves.refl (job : Job) : Moves job job where
  id := rfl
  good := fun good => good
  absorbing := fun _ => rfl
  sequence := le_refl _
  requeues := by rw [returned_self]; exact le_refl _
  holder := fun active => ⟨active, rfl⟩
  chunks := rfl
  bytes := rfl

theorem Follows.trans {first second third : Job} (left : Follows first second) (right : Follows second third) :
  Follows first third where
  id := right.id.trans left.id
  good := fun good => right.good (left.good good)
  absorbing := by
    intro terminal
    have same := left.absorbing terminal
    rw [<- same] at terminal
    exact (right.absorbing terminal).trans same
  sequence := le_trans left.sequence right.sequence
  requeues := by
    have firstStep := left.requeues
    have secondStep := right.requeues
    by_cases back : first.returned third
    · have active : first.status.active := (and_eq_true _ _ |>.mp back).1
      have waiting : third.status.waiting := (and_eq_true _ _ |>.mp back).2
      rcases second.status.kinds with middleWaiting | middleActive | middleTerminal
      · have early : first.returned second := and_eq_true _ _ |>.mpr ⟨active, middleWaiting⟩
        rw [early, toNat_true] at firstStep
        rw [back, toNat_true]
        omega
      · have late : second.returned third := and_eq_true _ _ |>.mpr ⟨middleActive, waiting⟩
        rw [late, toNat_true] at secondStep
        rw [back, toNat_true]
        omega
      · rw [right.absorbing middleTerminal] at waiting
        rw [not_waiting_of_terminal middleTerminal] at waiting
        cases waiting
    · rw [not_eq_true] at back
      rw [back, toNat_false]
      omega

theorem Moves.trans {first second third : Job} (left : Moves first second) (right : Moves second third) :
  Moves first third where
  toFollows := left.toFollows.trans right.toFollows
  holder := by
    intro active
    rcases right.holder active with ⟨middleActive, same⟩
    rcases left.holder middleActive with ⟨firstActive, firstSame⟩
    exact ⟨firstActive, same.trans firstSame⟩
  chunks := right.chunks.trans left.chunks
  bytes := right.bytes.trans left.bytes

theorem Moves.of_same (id : new.id = old.id) (status : new.status = old.status)
  (worker : new.workerId = old.workerId) (stop : new.stopRequested = old.stopRequested)
  (requeues : new.requeues = old.requeues) (chunks : new.nextChunkSeq = old.nextChunkSeq)
  (bytes : new.streamBytes = old.streamBytes)
  (texts : new.messages = old.messages /\ new.options = old.options \/ new.messages = "[]" /\ new.options = none) :
  Moves old new where
  id := id
  good := by
    intro good
    constructor
    · rw [stop, status]
      exact good.stop
    · rw [status, worker]
      exact good.named
    · intro terminal
      rcases texts with ⟨sameMessages, sameOptions⟩ | cleared
      · rw [sameMessages, sameOptions]
        exact good.cleared (status ▸ terminal)
      · exact cleared
    · rw [status, chunks]
      exact good.unstarted
    · rw [requeues]
      exact good.bounded
  absorbing := fun _ => status
  sequence := le_of_eq chunks.symm
  requeues := by
    rw [returned_same status, requeues]
    exact le_refl _
  holder := by
    intro active
    rw [status] at active
    exact ⟨active, worker⟩
  chunks := chunks
  bytes := bytes

theorem Moves.of_end (live : old.status.live) (terminal : new.status.terminal)
  (id : new.id = old.id) (stop : new.stopRequested = decide (new.status ≠ .done)) (requeues : new.requeues = old.requeues)
  (chunks : new.nextChunkSeq = old.nextChunkSeq) (bytes : new.streamBytes = old.streamBytes)
  (cleared : new.messages = "[]" /\ new.options = none) : Moves old new where
  id := id
  good := by
    intro good
    constructor
    · rw [stop, decide_eq_true_eq]
      revert terminal
      cases new.status <;> simp [terminal]
    · rw [not_active_of_terminal terminal]
      exact fun active => Bool.noConfusion active
    · exact fun _ => cleared
    · intro pending
      rw [pending] at terminal
      cases terminal
    · rw [requeues]
      exact good.bounded
  absorbing := fun oldTerminal => absurd oldTerminal (not_terminal_of_live live)
  sequence := le_of_eq chunks.symm
  requeues := by
    have kept : old.returned new = false := by
      unfold returned
      rw [not_waiting_of_terminal terminal, Bool.and_false]
    rw [kept, requeues]
    exact le_refl _
  holder := by
    rw [not_active_of_terminal terminal]
    exact fun active => Bool.noConfusion active
  chunks := chunks
  bytes := bytes

variable {job : Job}

theorem moves_finished (live : job.status.live) (now : ℚ) (terminal : ending.status.terminal) :
  Moves job (job.finished now ending) :=
  Moves.of_end live terminal rfl rfl rfl rfl rfl ⟨rfl, rfl⟩

theorem moves_expired (live : job.status.live) (now : ℚ) (terminal : status.terminal)
  (undone : status ≠ .done) (error : String) : Moves job (job.expired now status error) :=
  Moves.of_end live terminal rfl (decide_eq_true undone).symm rfl rfl rfl ⟨rfl, rfl⟩

theorem moves_unnamed (inactive : job.status.active = false) : Moves job job.unnamed where
  id := rfl
  good := fun good =>
    ⟨good.stop, fun active => absurd active (eq_false_iff.mp inactive), good.cleared, good.unstarted, good.bounded⟩
  absorbing := fun _ => rfl
  sequence := le_refl _
  requeues := by
    have kept : job.returned job.unnamed = false := returned_same rfl
    rw [kept]
    exact le_refl _
  holder := fun active => absurd active (eq_false_iff.mp inactive)
  chunks := rfl
  bytes := rfl

theorem moves_requeued (active : job.status.active) (unstopped : job.stopRequested = false)
  (unstarted : job.nextChunkSeq = 0) (room : job.requeues < maxRequeues) (now : ℚ) : Moves job (job.requeued now) where
  id := rfl
  good := by
    intro _
    constructor
    · change job.stopRequested ↔ pending = .failed \/ pending = .timeout
      simp [unstopped]
    · exact fun active => Bool.noConfusion active
    · exact fun terminal => Bool.noConfusion terminal
    · exact fun _ => unstarted
    · exact room
  absorbing := fun terminal => absurd terminal (not_terminal_of_live (live_of_active active))
  sequence := le_refl _
  requeues := by
    have back : job.returned (job.requeued now) := by
      unfold returned
      rw [active]
      rfl
    rw [back]
    exact le_refl _
  holder := fun active => Bool.noConfusion active
  chunks := rfl
  bytes := rfl

theorem follows_claimedBy (waiting : job.status.waiting) (unstopped : job.stopRequested = false) (workerId : ℕ)
  (now : ℚ) : Follows job (job.claimedBy workerId now) where
  id := rfl
  good := by
    intro good
    constructor
    · change job.stopRequested ↔ claimed = .failed \/ claimed = .timeout
      simp [unstopped]
    · exact fun _ => rfl
    · exact fun terminal => Bool.noConfusion terminal
    · exact fun pending => noConfusion pending
    · exact good.bounded
  absorbing := fun terminal => absurd terminal (not_terminal_of_live (live_of_waiting waiting))
  sequence := le_refl _
  requeues := by
    have kept : job.returned (job.claimedBy workerId now) = false := by
      exact and_false _
    rw [kept]
    exact le_refl _

theorem follows_advanced (active : job.status.active) (size : ℕ) (now : ℚ) : Follows job (job.advanced size now) where
  id := rfl
  good := by
    intro good
    have unstopped : job.stopRequested = false := by
      rw [<- not_eq_true]
      intro stopped
      rcases good.stop.mp stopped with isFailed | isTimeout
      · rw [isFailed] at active
        cases active
      · rw [isTimeout] at active
        cases active
    constructor
    · change job.stopRequested ↔ streaming = .failed \/ streaming = .timeout
      simp [unstopped]
    · exact fun _ => good.named active
    · exact fun terminal => Bool.noConfusion terminal
    · exact fun pending => noConfusion pending
    · exact good.bounded
  absorbing := fun terminal => absurd terminal (not_terminal_of_live (live_of_active active))
  sequence := Nat.le_succ _
  requeues := by
    have kept : job.returned (job.advanced size now) = false := by
      exact and_false _
    rw [kept]
    exact le_refl _

theorem heldBy_iff {workerId : ℕ} : job.heldBy workerId ↔ job.status.active /\ job.workerId = some workerId := by
  unfold heldBy
  rw [and_eq_true, decide_eq_true_eq]

theorem Moves.heldBy (moves : Moves old new) {workerId : ℕ} (held : new.heldBy workerId) : old.heldBy workerId := by
  rcases heldBy_iff.mp held with ⟨active, worker⟩
  rcases moves.holder active with ⟨oldActive, same⟩
  exact heldBy_iff.mpr ⟨oldActive, same ▸ worker⟩

end Job

/-- What operations that claim no job and store no chunk do to the tables: they
move rows or drop them, and drop chunks, but of a live job never the last one
accepted. -/
structure TablesMove (before after : Tables) : Prop where
  ids : (after.jobs.map Job.id).Sublist (before.jobs.map Job.id)
  rows : ∀ job ∈ after.jobs, ∃ old ∈ before.jobs, old.Moves job
  chunks : after.chunks.Sublist before.chunks
  last : ∀ job ∈ after.jobs, job.status.live -> ∀ chunk ∈ before.chunks,
    chunk.jobId = job.id -> chunk.seq + 1 = job.nextChunkSeq -> chunk ∈ after.chunks

namespace TablesMove

theorem refl (tables : Tables) : TablesMove tables tables where
  ids := List.Sublist.refl _
  rows := fun job mem => ⟨job, mem, Job.Moves.refl job⟩
  chunks := List.Sublist.refl _
  last := fun _ _ _ _ mem _ _ => mem

theorem trans {first second third : Tables} (left : TablesMove first second) (right : TablesMove second third) :
  TablesMove first third where
  ids := right.ids.trans left.ids
  rows := by
    intro job mem
    rcases right.rows job mem with ⟨middle, middleMember, second⟩
    rcases left.rows middle middleMember with ⟨old, oldIn, first⟩
    exact ⟨old, oldIn, first.trans second⟩
  chunks := right.chunks.trans left.chunks
  last := by
    intro job mem live chunk chunkMember named isLast
    rcases right.rows job mem with ⟨middle, middleMember, moves⟩
    have middleLive : middle.status.live := by
      rcases middle.status.kinds with waiting | active | terminal
      · exact live_of_waiting waiting
      · exact live_of_active active
      · rw [moves.absorbing terminal] at live
        exact absurd terminal (not_terminal_of_live live)
    have kept := left.last middle middleMember middleLive chunk chunkMember (named.trans moves.id)
      (isLast.trans moves.chunks)
    exact right.last job mem live chunk kept named isLast

theorem update {tables : Tables} {selected : Job -> Bool} {change : Job -> Job} (ids : ∀ job, (change job).id = job.id)
  (moves : ∀ job ∈ tables.jobs, selected job -> job.Moves (change job)) :
  TablesMove tables { tables with jobs := Rows.updateWhere selected change tables.jobs } where
  ids := map_updateWhere_sublist Job.id ids
  rows := by
    intro job mem
    rcases mem_updateWhere.mp mem with ⟨old, _⟩ | ⟨old, oldIn, chosen, rfl⟩
    · exact ⟨job, old, Job.Moves.refl job⟩
    · exact ⟨old, oldIn, moves old oldIn chosen⟩
  chunks := List.Sublist.refl _
  last := fun _ _ _ _ mem _ _ => mem

theorem workers {before after : Tables} (jobs : after.jobs = before.jobs) (chunks : after.chunks = before.chunks) :
  TablesMove before after where
  ids := by rw [jobs]
  rows := by
    rw [jobs]
    exact fun job mem => ⟨job, mem, Job.Moves.refl job⟩
  chunks := by rw [chunks]
  last := by
    rw [chunks]
    exact fun _ _ _ _ mem _ _ => mem

theorem forget {tables : Tables} {selected : ChunkRow -> Bool}
  (kept : ∀ job ∈ tables.jobs, job.status.live -> ∀ chunk ∈ tables.chunks,
    chunk.jobId = job.id -> chunk.seq + 1 = job.nextChunkSeq -> ¬ selected chunk) :
  TablesMove tables { tables with chunks := Rows.deleteWhere selected tables.chunks } where
  ids := List.Sublist.refl _
  rows := fun job mem => ⟨job, mem, Job.Moves.refl job⟩
  chunks := deleteWhere_sublist
  last := fun job mem live chunk chunkMember named isLast =>
    mem_deleteWhere.mpr ⟨chunkMember, kept job mem live chunk chunkMember named isLast⟩

variable {tables : Tables}

theorem setFault (jobId : ℕ) (fault : Fault) : TablesMove tables (setFault jobId fault tables) :=
  update (fun _ => rfl) (fun _ _ _ => Job.Moves.of_same rfl rfl rfl rfl rfl rfl rfl (.inl ⟨rfl, rfl⟩))

theorem finish {only : JobStatus -> Bool} (live : ∀ status, only status -> status.live) (jobId : ℕ)
  (now : ℚ) (terminal : ending.status.terminal) : TablesMove tables (finish only jobId now ending tables) := by
  refine update (fun _ => rfl) ?_
  intro job _ chosen
  exact Job.moves_finished (live job.status (and_eq_true _ _ |>.mp chosen).2) now terminal

theorem finishLive (jobId : ℕ) (now : ℚ) (terminal : ending.status.terminal) :
  TablesMove tables (Workers.finish live jobId now ending tables) :=
  finish (fun _ live => live) jobId now terminal

theorem finishActive (jobId : ℕ) (now : ℚ) (terminal : ending.status.terminal) :
  TablesMove tables (Workers.finish active jobId now ending tables) :=
  finish (fun _ => live_of_active) jobId now terminal

theorem finishWorkerJobs (workerId : ℕ) (error : String) (now : ℚ) :
  TablesMove tables (finishWorkerJobs workerId error now tables) := by
  refine update (fun _ => rfl) ?_
  intro _ _ held
  exact Job.moves_expired (live_of_active (Job.heldBy_iff.mp held).1) now rfl (by decide) error

theorem renewLease (workerId : ℕ) (now : ℚ) : TablesMove tables (renewLease workerId now tables) :=
  update (fun _ => rfl) (fun _ _ _ => Job.Moves.of_same rfl rfl rfl rfl rfl rfl rfl (.inl ⟨rfl, rfl⟩))

theorem expirePending (before now : ℚ) : TablesMove tables (expirePending before now tables) := by
  refine update (fun _ => rfl) ?_
  intro _ _ chosen
  exact Job.moves_expired (live_of_waiting (and_eq_true _ _ |>.mp chosen).1) now rfl (by decide) _

theorem expireCreatedBefore (before now : ℚ) : TablesMove tables (expireCreatedBefore before now tables) := by
  refine update (fun _ => rfl) ?_
  intro _ _ chosen
  exact Job.moves_expired (and_eq_true _ _ |>.mp chosen).1 now rfl (by decide) _

theorem scrubTerminal : TablesMove tables (scrubTerminal tables) :=
  update (fun _ => rfl) (fun _ _ _ => Job.Moves.of_same rfl rfl rfl rfl rfl rfl rfl (.inr ⟨rfl, rfl⟩))

section

variable (distinct : (tables.jobs.map Job.id).Nodup)
include distinct

theorem requeueJob {job : Job} (mem : job ∈ tables.jobs) (now : ℚ) :
  TablesMove tables (requeueJob job now tables).1 := by
  unfold Workers.requeueJob
  by_cases often : maxRequeues <= job.requeues
  · rw [if_pos often]
    exact finishActive job.id now rfl
  · rw [if_neg often]
    refine update (fun _ => rfl) ?_
    intro other otherIn chosen
    unfold Job.returnable at chosen
    simp only [and_eq_true, decide_eq_true_eq, not_eq_true'] at chosen
    rcases chosen with ⟨⟨⟨same, active⟩, unstopped⟩, unstarted⟩
    have isJob : other = job := eq_of_key distinct otherIn mem same
    subst isJob
    exact Job.moves_requeued active unstopped unstarted (Nat.lt_of_not_le often) now

theorem deleteOrphanChunks (before : ℚ) : TablesMove tables (deleteOrphanChunks before tables) := by
  refine forget ?_
  intro job mem live _ _ named _ chosen
  rcases or_eq_true _ _ |>.mp chosen with ended | orphan
  · rcases List.any_eq_true.mp ended with ⟨other, otherIn, isEnded⟩
    rw [and_eq_true, decide_eq_true_eq] at isEnded
    have isJob : other = job := eq_of_key distinct otherIn mem (isEnded.1.trans named)
    rw [isJob] at isEnded
    exact not_terminal_of_live live (and_eq_true _ _ |>.mp isEnded.2).1
  · have apart := List.all_eq_true.mp orphan job mem
    exact of_decide_eq_true apart named.symm

theorem deleteTerminalBefore (before : ℚ) : TablesMove tables (deleteTerminalBefore before tables) where
  ids := deleteWhere_sublist.map Job.id
  rows := fun job mem => ⟨job, (mem_deleteWhere.mp mem).1, Job.Moves.refl job⟩
  chunks := deleteWhere_sublist
  last := by
    intro job mem _ _ chunkMember named _
    refine mem_deleteWhere.mpr ⟨chunkMember, ?_⟩
    intro chosen
    rcases List.any_eq_true.mp chosen with ⟨other, otherIn, isEnded⟩
    rw [and_eq_true, decide_eq_true_eq] at isEnded
    rcases mem_deleteWhere.mp mem with ⟨jobMember, stays⟩
    have isJob : other = job := eq_of_key distinct otherIn jobMember (isEnded.1.trans named)
    rw [isJob] at isEnded
    exact stays isEnded.2

end

end TablesMove

end BananaChat.Workers

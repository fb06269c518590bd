import BananaChat.Checkpoints.WorkerKept

namespace BananaChat.Checkpoints

open Foundation List Rows Nat Job

/-!
# Saves that fail

What a job ended as stays, what a request changed is undone, and the worker goes on, in
every run that meets the condition on failing saves.
-/

def Continues (jobs later : List Job) : Prop :=
  ∀ row ∈ later, ∃ job ∈ jobs, job.id = row.id /\ (job.status.finished -> row.status = job.status)

namespace Continues

variable {jobs middle later : List Job}

theorem refl (jobs : List Job) : Continues jobs jobs := fun row mem => ⟨row, mem, rfl, fun _ => rfl⟩

theorem trans (first : Continues jobs middle) (second : Continues middle later) : Continues jobs later := by
  intro row mem
  rcases second row mem with ⟨between, betweenMember, betweenId, betweenOver⟩
  rcases first between betweenMember with ⟨job, jobMember, sameId, isOver⟩
  refine ⟨job, jobMember, sameId.trans betweenId, fun finished => ?_⟩
  have same := isOver finished
  rw [betweenOver (same ▸ finished), same]

theorem of_prunes {records after : Records} (prunes : Prunes records after) : Continues records.jobs after.jobs :=
  fun row mem => ⟨row, prunes.mem mem, rfl, fun _ => rfl⟩

theorem setJob {records : Records} (jobId : ℕ) {change : Job -> Job} (keepsId : ∀ row, (change row).id = row.id)
  (isOver : ∀ job ∈ records.jobs, job.id = jobId -> job.status.finished -> (change job).status = job.status) :
  Continues records.jobs (records.setJob jobId change).jobs := by
  intro row mem
  rcases mem_updateWhere.mp mem with ⟨same, _⟩ | ⟨old, oldIn, chosen, rfl⟩
  · exact ⟨row, same, rfl, fun _ => rfl⟩
  · exact ⟨old, oldIn, (keepsId old).symm, isOver old oldIn (of_decide_eq_true chosen)⟩

theorem persist {records changed after : Records} (prunes : Prunes changed after) (jobId : ℕ) {change : Job -> Job}
  (keepsId : ∀ row, (change row).id = row.id) (jobs : changed.jobs = (records.setJob jobId change).jobs)
  (isOver : ∀ job ∈ records.jobs, job.id = jobId -> job.status.finished -> (change job).status = job.status) :
  Continues records.jobs after.jobs := by
  have saved := of_prunes prunes
  rw [jobs] at saved
  exact (setJob jobId keepsId isOver).trans saved

end Continues

structure Absorbs (before after : Agent) : Prop where
  issued : ∀ jobId ∈ before.history.issued, jobId ∈ after.history.issued
  isOver : ∀ row ∈ after.records.jobs, row.id ∈ before.history.issued ->
    ∃ job ∈ before.records.jobs, job.id = row.id /\ (job.status.finished -> row.status = job.status)

theorem Absorbs.of_continues {before after : Agent} (history : after.history.issued = before.history.issued)
  (continues : Continues before.records.jobs after.records.jobs) : Absorbs before after :=
  ⟨fun _ issued => history ▸ issued, fun row mem _ => continues row mem⟩

variable {action : Action} {clock jobId : ℕ} {works : Bool} {agent : Agent}

namespace Kept

variable {agent : Agent}

theorem submit_absorbs (kept : Kept agent) (config : Config) (request : Request) (fresh : jobId ∉ agent.history.issued)
  (clock : ℕ) (works : Bool) : Absorbs agent (Checkpoints.submit config request jobId clock works agent).1 := by
  have prunes := @persist_prunes clock works (agent.records.add (newJob config request jobId clock)) (kept.add_nodup fresh)
  have rows : ∀ row ∈ (agent.records.add (newJob config request jobId clock)).jobs, row.id ∈ agent.history.issued ->
      ∃ job ∈ agent.records.jobs, job.id = row.id /\ (job.status.finished -> row.status = job.status) := by
    intro row mem known
    rcases mem_snoc.mp mem with old | new
    · exact ⟨row, old, rfl, fun _ => rfl⟩
    · rw [new] at known
      exact absurd known fresh
  unfold Checkpoints.submit
  split
  · split
    · exact .of_continues rfl (.refl _)
    · exact .of_continues rfl (.refl _)
  · split
    · exact .of_continues rfl (.refl _)
    · dsimp only
      generalize persist clock works (agent.records.add (newJob config request jobId clock)) = saved at prunes
      split
      · refine ⟨fun _ known => mem_cons_of_mem _ known, fun row mem known => rows row ?_ known⟩
        exact prunes.mem (mem_deleteWhere.mp mem).1
      · exact ⟨fun _ known => mem_cons_of_mem _ known, fun row mem known => rows row (prunes.mem mem) known⟩

theorem cancel_absorbs (kept : Kept agent) (jobId clock : ℕ) (works : Bool) :
  Absorbs agent (Checkpoints.cancel jobId clock works agent).1 := by
  unfold Checkpoints.cancel
  split
  · exact .of_continues rfl (.refl _)
  · rename_i job found
    rcases getJob_some found with ⟨mem, rfl⟩
    split
    · exact .of_continues rfl (.refl _)
    · rename_i unfinished
      split
      · have keepsId : ∀ row : Job, (row.ended .canceled "canceled" canceledMessage clock).id = row.id := fun _ => rfl
        have prunes := @persist_prunes clock works (withdraw job.id clock agent.records) (kept.setJob_nodup job.id keepsId)
        have continues : Continues agent.records.jobs (persist clock works (withdraw job.id clock agent.records)).1.jobs := by
          refine Continues.persist prunes job.id keepsId rfl ?_
          intro _ otherIn same finished
          rw [eq_of_key kept.ids otherIn mem same] at finished
          exact absurd finished unfinished
        dsimp only
        generalize persist clock works (withdraw job.id clock agent.records) = saved at continues
        split
        · exact .of_continues rfl continues
        · exact .of_continues rfl continues
      · exact .of_continues rfl (.refl _)

theorem deleteFinish_absorbs (kept : Kept agent) (name : String) (item : Managed) (problem : Option Problem) (clock : ℕ)
  (works : Bool) : Absorbs agent (Checkpoints.deleteFinish name item problem clock works agent).1 := by
  have prunes := @persist_prunes clock works (agent.records.dropManaged name) kept.ids
  have continues : Continues agent.records.jobs (persist clock works (agent.records.dropManaged name)).1.jobs :=
    @Continues.of_prunes (agent.records.dropManaged name) _ prunes
  unfold Checkpoints.deleteFinish
  split
  · exact .of_continues rfl (.refl _)
  · split
    · exact .of_continues rfl (.refl _)
    · dsimp only
      generalize persist clock works (agent.records.dropManaged name) = saved at continues
      split
      · exact .of_continues rfl continues
      · exact .of_continues rfl continues

theorem saveJob_continues (kept : Kept agent) (jobId : ℕ) {change : Job -> Job} (keepsId : ∀ row, (change row).id = row.id)
  (clock : ℕ) (works : Bool)
  (isOver : ∀ job, agent.records.getJob jobId = some job -> job.status.finished -> (change job).status = job.status) :
  Continues agent.records.jobs (Checkpoints.saveJob jobId change clock works agent.records).1.jobs := by
  unfold Checkpoints.saveJob
  split
  · exact .refl _
  · rename_i job found
    rcases getJob_some found with ⟨mem, rfl⟩
    refine Continues.persist (persist_prunes clock works (kept.setJob_nodup job.id keepsId)) job.id keepsId rfl ?_
    intro _ otherIn same
    rw [eq_of_key kept.ids otherIn mem same]
    exact isOver job found

section

variable (kept : Kept agent)
include kept

theorem unfinished (claimed : agent.worker.claim = some jobId) {job : Job}
  (mem : job ∈ agent.records.jobs) (same : job.id = jobId) : ¬ job.status.finished := by
  rcases kept.holds jobId claimed with ⟨_, heldMember, heldId, downloads, _⟩
  rw [eq_of_key kept.ids mem heldMember (same.trans heldId.symm), downloads]
  exact Bool.false_ne_true

theorem beginJob_absorbs (jobId clock : ℕ) (works : Bool) :
  Absorbs agent (Checkpoints.beginJob jobId clock works agent) := by
  unfold Checkpoints.beginJob
  split
  · exact .of_continues rfl (.refl _)
  · rename_i job found
    rcases getJob_some found with ⟨mem, rfl⟩
    split
    · exact .of_continues rfl (.refl _)
    · rename_i begins
      have keepsId : ∀ row : Job, (row.begun clock).id = row.id := fun _ => rfl
      have prunes := @persist_prunes clock works (agent.records.setJob job.id (begun clock)) (kept.setJob_nodup job.id keepsId)
      have continues : Continues agent.records.jobs (persist clock works (agent.records.setJob job.id (begun clock))).1.jobs := by
        refine Continues.persist prunes job.id keepsId rfl ?_
        intro _ otherIn same finished
        rw [eq_of_key kept.ids otherIn mem same] at finished
        have isQueued : job.status = .queued := by
          by_contra notQueued
          exact begins (.inl notQueued)
        rw [isQueued] at finished
        cases finished
      generalize persist clock works (agent.records.setJob job.id (begun clock)) = saved at continues
      exact .of_continues rfl continues

theorem complete_absorbs {digest : String} {size : ℕ}
  (worker : agent.worker = .installed jobId digest size) (clock : ℕ) (works : Bool) :
  Absorbs agent (Checkpoints.complete jobId digest size clock works agent) := by
  have claimed : agent.worker.claim = some jobId := by rw [worker]; rfl
  unfold Checkpoints.complete
  split
  · exact .of_continues rfl (.refl _)
  · rename_i job found
    rcases getJob_some found with ⟨_, rfl⟩
    have keepsId : ∀ row : Job, (row.done digest size clock).id = row.id := fun _ => rfl
    have prunes := @persist_prunes clock works (install job digest size clock agent.records) (kept.setJob_nodup job.id keepsId)
    have continues : Continues agent.records.jobs (persist clock works (install job digest size clock agent.records)).1.jobs := by
      refine Continues.persist prunes job.id keepsId rfl ?_
      exact fun other otherIn same finished => absurd finished (kept.unfinished claimed otherIn same)
    generalize persist clock works (install job digest size clock agent.records) = saved at continues
    exact .of_continues rfl continues

theorem recordEnding_absorbs {ending : Ending} (worker : agent.worker = .ended jobId ending)
  (clock : ℕ) (works : Bool) : Absorbs agent (Checkpoints.recordEnding jobId ending clock works agent) := by
  have claimed : agent.worker.claim = some jobId := by rw [worker]; rfl
  have saved : ∀ change : Job -> Job, (∀ row, (change row).id = row.id) ->
      Continues agent.records.jobs (Checkpoints.saveJob jobId change clock works agent.records).1.jobs := by
    intro _ keepsId
    refine kept.saveJob_continues jobId keepsId clock works ?_
    intro _ found finished
    rcases getJob_some found with ⟨mem, same⟩
    exact absurd finished (kept.unfinished claimed mem same)
  refine .of_continues rfl ?_
  cases ending with
  | requeue => exact saved (requeued clock) (fun _ => rfl)
  | canceled => exact saved (ended .canceled "canceled" canceledMessage clock) (fun _ => rfl)
  | failed code message => exact saved (ended .failed code message clock) (fun _ => rfl)

theorem recover_absorbs {config : Config} (meets : Meets config agent (.recover jobId clock works)) :
  Absorbs agent (Checkpoints.recover jobId clock works agent) := by
  have outcome : ∀ job, agent.records.getJob jobId = some job -> job.status ≠ .completed /\ job.status ≠ .canceled /\
      (agent.stopping \/ (markFailed jobId clock agent.records).Fits) := meets
  let failed := ended .failed "internal_error" "the agent could not record the download" clock
  have isOver : ∀ job, agent.records.getJob jobId = some job -> job.status.finished -> (failed job).status = job.status := by
    intro job found finished
    rcases outcome job found with ⟨incomplete, uncanceled, _⟩
    cases status : job.status with
    | failed => rfl
    | completed => exact absurd status incomplete
    | canceled => exact absurd status uncanceled
    | queued | downloading =>
      rw [status] at finished
      cases finished
  exact .of_continues rfl (@saveJob_continues agent kept jobId failed (fun _ => rfl) clock works isOver)

theorem perform_absorbs {config : Config} (possible : Possible agent action)
  (meets : Meets config agent action) : Absorbs agent (Checkpoints.perform config agent action) := by
  cases action with
  | submit request jobId clock works => exact kept.submit_absorbs config request possible clock works
  | cancel jobId clock works => exact kept.cancel_absorbs jobId clock works
  | deleteStart name supplied =>
    dsimp only [Checkpoints.perform]
    unfold Checkpoints.deleteStart
    split
    · exact .of_continues rfl (.refl _)
    · split
      · exact .of_continues rfl (.refl _)
      · split
        · exact .of_continues rfl (.refl _)
        · exact .of_continues rfl (.refl _)
  | deleteFinish name item problem clock works => exact kept.deleteFinish_absorbs name item problem clock works
  | stop => exact .of_continues rfl (.refl _)
  | pick =>
    dsimp only [Checkpoints.perform]
    unfold Checkpoints.pick
    split
    · exact .of_continues rfl (.refl _)
    · split
      · exact .of_continues rfl (.refl _)
      · exact .of_continues rfl (.refl _)
  | beginJob jobId clock works => exact kept.beginJob_absorbs jobId clock works
  | progress snapshot total clock =>
    have claimed : agent.worker.claim = some snapshot.id := by
      have downloading : agent.worker = .downloading snapshot := possible
      rw [downloading]
      rfl
    refine .of_continues rfl (@Continues.setJob agent.records snapshot.id
      (fun job => { job with bytesReceived := total, updatedAt := stamp clock }) (fun _ => rfl) ?_)
    exact fun job mem same finished => absurd finished (kept.unfinished claimed mem same)
  | finishDownload snapshot outcome =>
    cases outcome with
    | installed digest size | canceled | failed code message => exact .of_continues rfl (.refl _)
  | complete jobId digest size clock works => exact kept.complete_absorbs possible clock works
  | recordEnding jobId ending clock works => exact kept.recordEnding_absorbs possible clock works
  | recover jobId clock works => exact kept.recover_absorbs meets

end

end Kept

def Settled (jobId : ℕ) (status : Status) (agent : Agent) : Prop :=
  jobId ∈ agent.history.issued /\ ∀ job ∈ agent.records.jobs, job.id = jobId -> job.status = status

theorem settled_run {config : Config} (kept : Kept agent) {status : Status} (finished : status.finished)
  (settled : Settled jobId status agent) (actions : List Action)
  (admitted : (agents config (Meets config)).Admits agent actions) :
  Settled jobId status ((agents config (Meets config)).run agent actions) := by
  induction actions generalizing agent with
  | nil => exact settled
  | cons action rest ih =>
    rcases admitted with ⟨⟨possible, meets⟩, admittedLater⟩
    have absorbs := kept.perform_absorbs possible meets
    refine ih (kept.perform possible meets) ⟨absorbs.issued jobId settled.1, ?_⟩ admittedLater
    intro row mem same
    rcases absorbs.isOver row mem (same ▸ settled.1) with ⟨job, jobMember, sameId, isOver⟩
    have before := settled.2 job jobMember (sameId.trans same)
    rw [isOver (before ▸ finished), before]

theorem not_saved {records : Records} {error : SaveError} (distinct : (records.jobs.map Job.id).Nodup)
  (failed : (persist clock works records).2 = some error) : ¬ Saves works records := by
  intro saves
  rw [(persist_saved_iff distinct).mpr saves] at failed
  cases failed

namespace Kept

variable {agent : Agent}

variable {error : SaveError}

theorem submit_failed (kept : Kept agent) {config : Config} {request : Request} (fresh : jobId ∉ agent.history.issued)
  (meets : Meets config agent (.submit request jobId clock works))
  (failed : (Checkpoints.submit config request jobId clock works agent).2 = .saveFailed error) :
  (Checkpoints.submit config request jobId clock works agent).1.records.jobs = agent.records.jobs := by
  unfold Checkpoints.submit at failed ⊢
  cases found : submitted request agent.records with
  | some existing =>
    simp only [found] at failed
    split at failed
    · cases failed
    · cases failed
  | none =>
    simp only [found] at failed ⊢
    by_cases full : config.queueSize <= agent.records.queued
    · rw [if_pos full] at failed
      cases failed
    · rw [if_neg full] at failed ⊢
      cases saved : (persist clock works (agent.records.add (newJob config request jobId clock))).2 with
      | none =>
        rw [saved] at failed
        cases failed
      | some reason =>
        have tidy : Tidy clock (agent.records.add (newJob config request jobId clock)) := by
          rcases meets with known | isFull | saves | tidy
          · rw [found] at known
            cases known
          · exact absurd isFull full
          · exact absurd saves (not_saved (kept.add_nodup fresh) saved)
          · exact tidy
        have same := tidy.persist_fst works
        rw [same]
        exact @drop_add agent kept (newJob config request jobId clock) fresh

theorem cancel_failed (kept : Kept agent) {config : Config} (meets : Meets config agent (.cancel jobId clock works))
  (error : SaveError) : (Checkpoints.cancel jobId clock works agent).2 ≠ .saveFailed error := by
  intro failed
  unfold Checkpoints.cancel at failed
  split at failed
  · cases failed
  · rename_i job found
    split at failed
    · cases failed
    · split at failed
      · rename_i isQueued
        have saves := meets job found isQueued
        have distinct : ((withdraw jobId clock agent.records).jobs.map Job.id).Nodup :=
          @setJob_nodup agent kept jobId (Job.ended .canceled "canceled" canceledMessage clock) (fun _ => rfl)
        have saved := (@persist_saved_iff clock works (withdraw jobId clock agent.records) distinct).mpr saves
        dsimp only at failed
        rw [saved] at failed
        cases failed
      · cases failed

theorem deleteFinish_failed (kept : Kept agent) {config : Config} {name : String} {item : Managed}
  {problem : Option Problem} (meets : Meets config agent (.deleteFinish name item problem clock works))
  (failed : (Checkpoints.deleteFinish name item problem clock works agent).2 = .saveFailed error) :
  (Checkpoints.deleteFinish name item problem clock works agent).1.records.jobs = agent.records.jobs := by
  unfold Checkpoints.deleteFinish at failed ⊢
  cases problem with
  | some problem => cases failed
  | none =>
    dsimp only at failed ⊢
    by_cases changed : agent.records.getManaged name ≠ some item
    · rw [if_pos changed] at failed
      cases failed
    · rw [if_neg changed] at failed ⊢
      cases saved : (persist clock works (agent.records.dropManaged name)).2 with
      | none =>
        rw [saved] at failed
        cases failed
      | some reason =>
        have tidy : Tidy clock (agent.records.dropManaged name) := by
          rcases meets with refused | other | saves | tidy
          · cases refused
          · exact absurd other changed
          · exact absurd saves (@not_saved clock works (agent.records.dropManaged name) reason kept.ids saved)
          · exact tidy
        have same := tidy.persist_fst works
        rw [same]
        rfl

theorem reply_failed (kept : Kept agent) {config : Config} (possible : Possible agent action)
  (meets : Meets config agent action) (failed : reply config agent action = some (.saveFailed error)) :
  (Checkpoints.perform config agent action).records.jobs = agent.records.jobs := by
  cases action with
  | submit request jobId clock works => exact kept.submit_failed possible meets (Option.some.inj failed)
  | cancel jobId clock works => exact absurd (Option.some.inj failed) (kept.cancel_failed meets error)
  | deleteStart name supplied =>
    have refused := Option.some.inj failed
    unfold Checkpoints.deleteStart at refused
    split at refused
    · cases refused
    · split at refused
      · cases refused
      · split at refused
        · cases refused
        · cases refused
  | deleteFinish name item problem clock works => exact kept.deleteFinish_failed meets (Option.some.inj failed)
  | _ => cases failed

end Kept

def Worker.rank : Worker -> ℕ
  | .idle => 0
  | .gone => 0
  | .recovering _ => 1
  | .installed _ _ _ => 2
  | .ended _ _ => 2
  | .downloading _ => 3
  | .chosen _ => 4

def Action.proceeds : Action -> Bool
  | .beginJob _ _ _ => true
  | .finishDownload _ _ => true
  | .complete _ _ _ _ _ => true
  | .recordEnding _ _ _ _ => true
  | .recover _ _ _ => true
  | _ => false

theorem after_rank (jobId : ℕ) (error : Option SaveError) : (Worker.after jobId error).rank <= 1 := by
  cases error with
  | none => exact zero_le 1
  | some error => exact le_rfl

theorem rank_lt {config : Config} (possible : Possible agent action) (proceeds : action.proceeds) :
  (perform config agent action).worker.rank < agent.worker.rank := by
  cases action with
  | beginJob jobId clock works =>
    have worker : agent.worker = .chosen jobId := possible
    rw [worker]
    dsimp only [perform]
    unfold beginJob
    split
    · exact succ_pos 3
    · split
      · exact succ_pos 3
      · dsimp only
        split
        · exact lt_succ_self 3
        · exact lt_of_lt_of_le (lt_succ_self 1) (le_add_right 2 2)
  | finishDownload snapshot outcome =>
    rw [possible.1]
    cases outcome with
    | installed digest size | canceled | failed code message => exact lt_succ_self 2
  | complete jobId digest size clock works =>
    have worker : agent.worker = .installed jobId digest size := possible
    rw [worker]
    dsimp only [perform]
    unfold complete
    split
    · exact lt_succ_self 1
    · rename_i job _
      generalize persist clock works (install job digest size clock agent.records) = saved
      exact lt_succ_of_le (after_rank jobId saved.2)
  | recordEnding jobId ending clock works =>
    have worker : agent.worker = .ended jobId ending := possible
    rw [worker]
    exact lt_succ_of_le (after_rank jobId (ending.save jobId clock works agent.records).2)
  | recover jobId clock works =>
    have worker : agent.worker = .recovering jobId := possible
    rw [worker]
    dsimp only [perform]
    unfold recover
    dsimp only
    generalize finishError jobId .failed "internal_error" "the agent could not record the download" clock works agent.records = saved
    split
    · exact zero_lt_one
    · exact zero_lt_one
  | _ => cases proceeds

theorem busy_proceeds (busy : agent.worker ≠ .idle) (alive : agent.worker ≠ .gone) (clock : ℕ) (works : Bool) :
  ∃ action : Action, action.proceeds /\ Possible agent action := by
  cases worker : agent.worker with
  | idle => exact absurd worker busy
  | gone => exact absurd worker alive
  | chosen jobId => exact ⟨.beginJob jobId clock works, rfl, worker⟩
  | downloading snapshot => exact ⟨.finishDownload snapshot (.failed "download_failed" "download failed"), rfl, worker, trivial⟩
  | installed jobId digest size => exact ⟨.complete jobId digest size clock works, rfl, worker⟩
  | ended jobId ending => exact ⟨.recordEnding jobId ending clock works, rfl, worker⟩
  | recovering jobId => exact ⟨.recover jobId clock works, rfl, worker⟩

namespace Kept

variable {agent : Agent}

theorem pick_serves (kept : Kept agent) (runs : agent.stopping = false) (idle : agent.worker = .idle) {job : Job}
  (mem : job ∈ agent.records.jobs) (isQueued : job.status = .queued) :
  ∃ jobId earlier, (Checkpoints.pick agent).worker = .chosen jobId /\ waits agent.records jobId /\
    agent.order = earlier ++ jobId :: (Checkpoints.pick agent).order /\
    ∀ other ∈ earlier, waits agent.records other = false := by
  have listed : job.id ∈ agent.order := by
    refine (kept.waiting runs job mem isQueued).1.resolve_right ?_
    rw [idle]
    exact Worker.noConfusion
  unfold Checkpoints.pick
  rw [if_neg (by rw [runs]; exact Bool.false_ne_true)]
  cases chosen : (nextJob agent.records agent.order).1 with
  | none =>
    have waiting := waits_iff.mpr ⟨job, mem, rfl, isQueued⟩
    rw [nextJob_none chosen job.id listed] at waiting
    cases waiting
  | some jobId =>
    rcases nextJob_some chosen with ⟨waiting, earlier, order, skipped⟩
    exact ⟨jobId, earlier, rfl, waiting, order, skipped⟩

theorem begin_serves (kept : Kept agent) (runs : agent.stopping = false) {job : Job} (mem : job ∈ agent.records.jobs)
  (isQueued : job.status = .queued) (saves : Saves works (agent.records.setJob job.id (begun clock))) :
  (Checkpoints.beginJob job.id clock works agent).worker = .downloading (job.begun clock) := by
  have found : agent.records.getJob job.id = some job := find_of_key kept.ids mem
  have distinct := @setJob_nodup agent kept job.id (begun clock) (fun _ => rfl)
  have saved := (@persist_saved_iff clock works _ distinct).mpr saves
  unfold Checkpoints.beginJob
  simp only [found]
  rw [if_neg]
  · generalize persist clock works (agent.records.setJob job.id (begun clock)) = outcome at saved
    exact if_pos saved
  · rintro (notQueued | isMarked)
    · exact notQueued isQueued
    · exact (kept.waiting runs job mem isQueued).2 isMarked

end Kept

/-- In every run whose steps meet the condition, whatever saves fail: a job that is over stays what it is as long as it is kept. -/
theorem records_survive {config : Config} {agent : Agent} (reachable : (agents config (Meets config)).Reachable agent) :
  (∀ actions, (agents config (Meets config)).Admits agent actions -> ∀ job ∈ agent.records.jobs,
    job.status.finished -> ∀ later ∈ ((agents config (Meets config)).run agent actions).records.jobs,
      later.id = job.id -> later.status = job.status) /\
  (∀ job ∈ agent.records.jobs,
    (job.status = .completed -> job.id ∈ agent.history.installed /\ job.digest = some job.request.expectedSha256 /\
      (job.request.targetName ∈ agent.records.managed.map Managed.name \/ job.id ∈ agent.history.removed)) /\
    (job.id ∈ agent.history.installed -> job.status = .completed \/ agent.worker.Installs job.id)) /\
  (∀ action error, Possible agent action -> Meets config agent action ->
    reply config agent action = some (.saveFailed error) -> (perform config agent action).records.jobs = agent.records.jobs) /\
  (agent.stopping = false -> agent.worker ≠ .gone /\
    (agent.worker = .idle -> ∀ job ∈ agent.records.jobs, job.status = .queued ->
      ∃ jobId earlier, (perform config agent .pick).worker = .chosen jobId /\
        waits agent.records jobId /\ agent.order = earlier ++ jobId :: (perform config agent .pick).order /\
        ∀ other ∈ earlier, waits agent.records other = false) /\
    (∀ job ∈ agent.records.jobs, job.status = .queued -> ∀ clock works,
      Saves works (agent.records.setJob job.id (Job.begun clock)) ->
        (perform config agent (.beginJob job.id clock works)).worker = .downloading (job.begun clock)) /\
    (agent.worker ≠ .idle -> (∃ action : Action, action.proceeds /\ Possible agent action) /\
      ∀ action : Action, action.proceeds -> Possible agent action ->
        (perform config agent action).worker.rank < agent.worker.rank)) := by
  have kept := kept_of_reachable reachable
  refine ⟨?_, ?_, ?_, ?_⟩
  · intro actions admitted job mem finished later laterMember same
    have settled : Settled job.id job.status agent := by
      refine ⟨kept.issued job mem, ?_⟩
      intro other otherIn sameId
      rw [eq_of_key kept.ids otherIn mem sameId]
    exact (settled_run kept finished settled actions admitted).2 later laterMember same
  · intro job mem
    refine ⟨?_, kept.installed job mem⟩
    intro isCompleted
    rcases kept.completed job mem isCompleted with ⟨installed, verified, managed⟩
    exact ⟨installed, verified, managed⟩
  · exact fun action error possible meets failed => kept.reply_failed possible meets failed
  · intro runs
    have alive : agent.worker ≠ .gone := by
      intro gone
      rw [kept.alive gone] at runs
      cases runs
    refine ⟨alive, ?_, ?_, ?_⟩
    · exact fun idle job mem isQueued => kept.pick_serves runs idle mem isQueued
    · exact fun job mem isQueued clock works saves => kept.begin_serves runs mem isQueued saves
    · exact fun busy => ⟨busy_proceeds busy alive 0 true, fun action proceeds possible => rank_lt possible proceeds⟩

namespace OneDownload

def digest : String := "ca978112ca1bbdcafac231b39a23dc4da786eff8147c4e72b9807785afee48bb"

def request : Request where
  source := { repoId := "a/b", filename := "a.safetensors", revision := "main" }
  targetName := "a.safetensors"
  expectedSha256 := digest
  expectedSize := none
  idempotencyKey := "a"

def config : Config where
  queueSize := 4
  fingerprint := fun _ => "acda7822a3863ccd968b3084bfb752d82b435e5da5cad76d990355b6feca8e70"

def empty : Agent where
  records := { jobs := [], managed := [], cancel := [] }
  order := []
  deleting := []
  worker := .idle
  stopping := false
  history := { issued := [], installed := [], removed := [] }

theorem empty_loaded : Loaded empty where
  idle := rfl
  runs := rfl
  unmarked := rfl
  ids := nodup_nil
  stopped := forall_mem_nil _
  waiting := forall_mem_nil _
  verified := forall_mem_nil _
  issued := rfl
  installed := by
    intro _
    constructor
    · exact fun placed => absurd placed not_mem_nil
    · rintro ⟨_, mem, _⟩
      exact absurd mem not_mem_nil
  removed := forall_mem_nil _

def unwritten : List Action :=
  [.submit request 1 5000000 true, .pick, .beginJob 1 8000000 false, .recover 1 9000000 false]

def installing : List Action :=
  [.submit request 1 5000000 true, .pick, .beginJob 1 8000000 true,
    .finishDownload ((newJob config request 1 5000000).begun 8000000) (.installed digest 1000), .complete 1 digest 1000 9000000 false]

end OneDownload

/-- Two saves fail, and the job has failed for good while the worker is idle again. -/
theorem records_survive_unwritten : ∃ agent, (agents OneDownload.config (Meets OneDownload.config)).Reachable agent /\
    agent.records.jobs.map Job.status = [.failed] /\ agent.worker = .idle /\
    ∀ actions, (agents OneDownload.config (Meets OneDownload.config)).Admits agent actions ->
      ∀ later ∈ ((agents OneDownload.config (Meets OneDownload.config)).run agent actions).records.jobs,
        later.id = 1 -> later.status = .failed := by
  let agent := (agents OneDownload.config (Meets OneDownload.config)).run OneDownload.empty OneDownload.unwritten
  have ran : (agents OneDownload.config (Meets OneDownload.config)).Admits OneDownload.empty OneDownload.unwritten /\
      agent.records.jobs.map (fun job => (job.id, job.status)) = [(1, .failed)] /\ agent.worker = .idle := by decide +kernel
  rcases ran with ⟨admits, rows, idle⟩
  have reachable := (Machine.Reachable.start OneDownload.empty_loaded).run OneDownload.unwritten admits
  have survives := records_survive reachable
  have listed : (1, Status.failed) ∈ agent.records.jobs.map (fun job => (job.id, job.status)) := rows ▸ mem_cons_self
  rcases mem_map.mp listed with ⟨job, mem, same⟩
  rcases Prod.mk.inj same with ⟨isFirst, isFailed⟩
  refine ⟨agent, reachable, ?_, idle, ?_⟩
  · have statuses : agent.records.jobs.map Job.status = (agent.records.jobs.map fun job => (job.id, job.status)).map Prod.snd := by
      rw [map_map]
      rfl
    rw [statuses, rows]
    rfl
  · intro actions admitted later laterMember isLater
    have ended := survives.1 actions admitted job mem (by rw [isFailed]; rfl) later laterMember (isLater.trans isFirst.symm)
    exact ended.trans isFailed

/-- Where any save may fail, a completed job is marked failed, and a cancellation is not undone. -/
theorem records_overwritten : (∃ agent, (agents OneDownload.config fun _ _ => True).Reachable agent /\
    agent.records.jobs.map Job.status = [.completed] /\ Possible agent (.recover 1 10000000 true) /\
    (perform OneDownload.config agent (.recover 1 10000000 true)).records.jobs.map Job.status = [.failed] /\
    (perform OneDownload.config agent (.recover 1 10000000 true)).history.installed = [1] /\
    (perform OneDownload.config agent (.recover 1 10000000 true)).records.managed.map Managed.name = ["a.safetensors"]) /\
  ∃ agent, (agents OneDownload.config fun _ _ => True).Reachable agent /\
    agent.records.jobs.map Job.status = [.queued] /\
    reply OneDownload.config agent (.cancel 1 6000000 false) = some (.saveFailed .storage) /\
    (perform OneDownload.config agent (.cancel 1 6000000 false)).records.jobs.map Job.status = [.canceled] := by
  let installed := (agents OneDownload.config fun _ _ => True).run OneDownload.empty OneDownload.installing
  let submitted := perform OneDownload.config OneDownload.empty (.submit OneDownload.request 1 5000000 true)
  have ran : (agents OneDownload.config fun _ _ => True).Admits OneDownload.empty OneDownload.installing /\
      installed.records.jobs.map Job.status = [.completed] /\ Possible installed (.recover 1 10000000 true) /\
      (perform OneDownload.config installed (.recover 1 10000000 true)).records.jobs.map Job.status = [.failed] /\
      (perform OneDownload.config installed (.recover 1 10000000 true)).history.installed = [1] /\
      (perform OneDownload.config installed (.recover 1 10000000 true)).records.managed.map Managed.name = ["a.safetensors"] /\
      submitted.records.jobs.map Job.status = [.queued] /\
      reply OneDownload.config submitted (.cancel 1 6000000 false) = some (.saveFailed .storage) /\
      (perform OneDownload.config submitted (.cancel 1 6000000 false)).records.jobs.map Job.status = [.canceled] := by
    decide +kernel
  rcases ran with ⟨admits, completed, possible, failed, placed, managed, queued, refused, canceled⟩
  have start : (agents OneDownload.config fun _ _ => True).Reachable OneDownload.empty := .start OneDownload.empty_loaded
  refine ⟨⟨installed, start.run OneDownload.installing admits, completed, possible, failed, placed, managed⟩,
    ⟨submitted, start.next admits.1, queued, refused, canceled⟩⟩

end BananaChat.Checkpoints

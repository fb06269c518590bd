import BananaChat.Checkpoints.AgentKept

namespace BananaChat.Checkpoints

open Foundation List

/-!
# The worker keeps the records

The worker takes a job through its steps: it is chosen, begun, downloaded and recorded, and the
worker is idle again.
-/

variable {records : Records} {order : List ℕ}

theorem waits_iff {jobId : ℕ} :
  waits records jobId ↔ ∃ job ∈ records.jobs, job.id = jobId /\ job.status = .queued := by
  unfold waits
  rw [any_eq_true]
  constructor
  · rintro ⟨job, mem, chosen⟩
    rw [Bool.and_eq_true, decide_eq_true_eq, decide_eq_true_eq] at chosen
    exact ⟨job, mem, chosen⟩
  · rintro ⟨job, mem, same, isQueued⟩
    exact ⟨job, mem, by rw [decide_eq_true same, decide_eq_true isQueued]; rfl⟩

theorem nextJob_some {jobId : ℕ} (chosen : (nextJob records order).1 = some jobId) :
  waits records jobId /\ ∃ earlier, order = earlier ++ jobId :: (nextJob records order).2 /\
    ∀ other ∈ earlier, waits records other = false := by
  induction order with
  | nil => cases chosen
  | cons first rest ih =>
    unfold nextJob at chosen ⊢
    by_cases waiting : waits records first
    · rw [if_pos waiting] at chosen ⊢
      cases chosen
      exact ⟨waiting, [], rfl, forall_mem_nil _⟩
    · rw [if_neg waiting] at chosen ⊢
      rcases ih chosen with ⟨waits, earlier, same, skipped⟩
      refine ⟨waits, first :: earlier, congrArg (first :: ·) same, ?_⟩
      intro other mem
      rcases mem_cons.mp mem with rfl | later
      · exact Bool.eq_false_of_not_eq_true waiting
      · exact skipped other later

theorem nextJob_none (none : (nextJob records order).1 = none) :
  ∀ jobId ∈ order, waits records jobId = false := by
  induction order with
  | nil => exact forall_mem_nil _
  | cons first rest ih =>
    unfold nextJob at none
    by_cases waiting : waits records first
    · rw [if_pos waiting] at none
      cases none
    · rw [if_neg waiting] at none
      intro jobId mem
      rcases mem_cons.mp mem with rfl | later
      · exact Bool.eq_false_of_not_eq_true waiting
      · exact ih none jobId later

namespace Kept

variable {agent : Agent}

theorem moves (kept : Kept agent) {worker : Worker} (before : ∀ jobId, ¬ agent.worker.Installs jobId)
  (free : worker.claim = none) (alive : worker = .gone -> agent.stopping)
  (waits : agent.stopping = false -> ∀ job ∈ agent.records.jobs, job.status = .queued ->
    job.id ∈ order \/ worker = .chosen job.id) : Kept { agent with order, worker } where
  ids := kept.ids
  issued := kept.issued
  marked := kept.marked
  placed := kept.placed
  holds := fun jobId claimed => nomatch free.symm.trans claimed
  installs := fun jobId installs => absurd installs (Worker.not_installs free jobId)
  completed := kept.completed
  installed := fun job mem placed =>
    .inl ((kept.installed job mem placed).resolve_right (before job.id))
  requeues := by
    rintro _ rfl
    cases free
  waiting := fun runs job mem isQueued => ⟨waits runs job mem isQueued, (kept.waiting runs job mem isQueued).2⟩
  alive := alive

theorem pick (kept : Kept agent) (idle : agent.worker = .idle) : Kept (pick agent) := by
  have before : ∀ jobId, ¬ agent.worker.Installs jobId := Worker.not_installs (by rw [idle]; rfl)
  have inOrder : agent.stopping = false -> ∀ job ∈ agent.records.jobs, job.status = .queued -> job.id ∈ agent.order := by
    intro runs job mem isQueued
    refine (kept.waiting runs job mem isQueued).1.resolve_right ?_
    rw [idle]
    exact Worker.noConfusion
  unfold Checkpoints.pick
  split
  · rename_i stops
    refine kept.moves before rfl (fun _ => stops) ?_
    intro runs
    rw [stops] at runs
    cases runs
  · split
    · rename_i jobId chosen
      rcases nextJob_some chosen with ⟨_, _, order, skipped⟩
      refine kept.moves before rfl (fun gone => nomatch gone) ?_
      intro runs job mem isQueued
      have listed := inOrder runs job mem isQueued
      rw [order] at listed
      rcases mem_append.mp listed with dropped | left
      · have waiting := waits_iff.mpr ⟨job, mem, rfl, isQueued⟩
        rw [skipped job.id dropped] at waiting
        cases waiting
      · rcases mem_cons.mp left with same | later
        · exact .inr (congrArg Worker.chosen same.symm)
        · exact .inl later
    · rename_i none
      rw [idle]
      refine kept.moves before rfl (fun gone => nomatch gone) ?_
      intro runs job mem isQueued
      have waiting := waits_iff.mpr ⟨job, mem, rfl, isQueued⟩
      rw [nextJob_none none job.id (inOrder runs job mem isQueued)] at waiting
      cases waiting

theorem releases (kept : Kept agent) {job : Job} (mem : job ∈ agent.records.jobs) {change : Job -> Job}
  (keepsId : ∀ row, (change row).id = row.id) {records : Records} {worker : Worker}
  (jobs : records.jobs = (agent.records.setJob job.id change).jobs)
  (managed : ∀ name ∈ agent.records.managed.map Managed.name, name ∈ records.managed.map Managed.name)
  (cancel : records.cancel = agent.records.cancel)
  (free : worker.claim = none) (alive : worker = .gone -> agent.stopping)
  (completed : (change job).status = .completed -> Recorded records agent.history (change job))
  (installed : job.id ∈ agent.history.installed -> (change job).status = .completed)
  (only : ∀ jobId, agent.worker.Installs jobId -> jobId = job.id)
  (unchosen : ∀ jobId, agent.worker ≠ .chosen jobId \/ jobId = job.id)
  (queued : (change job).status = .queued -> agent.stopping) : Kept { agent with records, worker } := by
  refine kept.replace mem keepsId jobs managed (fun jobId isMarked => .inl (cancel ▸ isMarked)) ?_
  constructor
  · exact fun jobId claimed => nomatch free.symm.trans claimed
  · exact fun jobId installs => absurd installs (Worker.not_installs free jobId)
  · exact completed
  · exact fun placed => .inl (installed placed)
  · exact fun jobId other installs => absurd (only jobId installs) other
  · rintro jobId rfl
    cases free
  · exact alive
  · intro _ jobId other listed
    refine .inl (listed.resolve_right ?_)
    intro chosen
    rcases unchosen jobId with isNot | same
    · exact isNot chosen
    · exact other same
  · intro runs isQueued
    rw [queued isQueued] at runs
    cases runs

variable {jobId : ℕ}

theorem beginJob (kept : Kept agent) (chosen : agent.worker = .chosen jobId) (clock : ℕ) (works : Bool) :
  Kept (beginJob jobId clock works agent) := by
  have before : ∀ jobId, ¬ agent.worker.Installs jobId := Worker.not_installs (by rw [chosen]; rfl)
  have others : agent.stopping = false -> ∀ job ∈ agent.records.jobs, job.status = .queued -> job.id ≠ jobId ->
      job.id ∈ agent.order := by
    intro runs job mem isQueued other
    refine (kept.waiting runs job mem isQueued).1.resolve_right ?_
    rw [chosen]
    intro same
    cases same
    exact other rfl
  unfold Checkpoints.beginJob
  split
  · rename_i missing
    refine kept.moves before rfl (fun gone => nomatch gone) ?_
    exact fun runs job mem isQueued => .inl (others runs job mem isQueued (getJob_none missing mem))
  · rename_i job found
    rcases getJob_some found with ⟨mem, rfl⟩
    split
    · rename_i skipped
      refine kept.moves before rfl (fun gone => nomatch gone) ?_
      intro runs other otherIn isQueued
      refine .inl (others runs other otherIn isQueued ?_)
      intro same
      obtain rfl : other = job := Rows.eq_of_key kept.ids otherIn mem same
      rcases skipped with notQueued | isMarked
      · exact notQueued isQueued
      · exact (kept.waiting runs other otherIn isQueued).2 isMarked
    · rename_i begins
      have isQueued : job.status = .queued := by
        by_contra notQueued
        exact begins (.inl notQueued)
      have unplaced := kept.unplaced mem (by rw [isQueued]; exact Status.noConfusion) (before job.id)
      have keepsId : ∀ row : Job, (row.begun clock).id = row.id := fun _ => rfl
      have prunes := @persist_prunes clock works (agent.records.setJob job.id (Job.begun clock)) (kept.setJob_nodup job.id keepsId)
      dsimp only
      split
      · have next : Next agent job (job.begun clock) (agent.records.setJob job.id (Job.begun clock)) agent.order
            (.downloading (job.begun clock)) := by
          constructor
          · intro jobId claimed
            cases claimed
            exact .inl ⟨rfl, rfl, rfl⟩
          · rintro jobId ⟨_, _, same⟩
            cases same
          · exact fun isCompleted => nomatch isCompleted
          · exact fun placed => absurd placed unplaced
          · exact fun jobId _ installs => absurd installs (before jobId)
          · exact fun jobId same => nomatch same
          · exact fun gone => nomatch gone
          · intro _ jobId other listed
            refine .inl (listed.resolve_right ?_)
            rw [chosen]
            intro same
            cases same
            exact other rfl
          · exact fun _ waits => nomatch waits
        have begun := kept.replace mem keepsId rfl (fun _ named => named) (fun _ isMarked => .inl isMarked) next
        exact begun.prunes prunes
      · have begun := @releases agent kept job mem _ keepsId _ (.recovering job.id) rfl (fun _ named => named) rfl rfl
          (fun gone => nomatch gone) (fun isCompleted => nomatch isCompleted) (absurd · unplaced)
          (fun jobId installs => absurd installs (before jobId))
          (fun jobId => by
            rw [chosen]
            by_cases same : jobId = job.id
            · exact .inr same
            · exact .inl fun other => same (by cases other; rfl))
          (fun waits => nomatch waits)
        exact begun.prunes prunes

variable {snapshot : Job}

section

variable (kept : Kept agent) (downloading : agent.worker = .downloading snapshot)
include kept downloading

theorem progress (total clock : ℕ) :
  Kept (progress snapshot.id total clock agent) := by
  rcases kept.holds snapshot.id (by rw [downloading]; rfl) with ⟨job, mem, same, downloads, agrees⟩
  rw [<- same]
  refine @replace agent kept job mem (fun job => { job with bytesReceived := total, updatedAt := stamp clock }) (fun _ => rfl) _
    agent.order agent.worker rfl (fun _ named => named) (fun _ isMarked => .inl isMarked) ?_
  have status : ∀ {other : Status}, job.status = other -> other = .downloading := fun is => is.symm.trans downloads
  constructor
  · intro _ claimed
    rw [downloading] at claimed
    cases claimed
    exact .inl ⟨same.symm, downloads, agrees⟩
  · exact fun _ installs => installs
  · exact fun isCompleted => nomatch status isCompleted
  · intro placed
    exact kept.installed job mem placed
  · exact fun _ _ installs => installs
  · exact kept.requeues
  · exact kept.alive
  · exact fun _ _ _ listed => listed
  · exact fun _ isQueued => nomatch status isQueued

theorem returns {ending : Ending}
  (requeues : ending = .requeue -> agent.stopping) : Kept { agent with worker := .ended snapshot.id ending } where
  ids := kept.ids
  issued := kept.issued
  marked := kept.marked
  placed := kept.placed
  holds := by
    intro jobId claimed
    cases claimed
    rcases kept.holds snapshot.id (by rw [downloading]; rfl) with ⟨job, mem, same, downloads, _⟩
    exact ⟨job, mem, same, downloads, trivial⟩
  installs := by
    rintro jobId ⟨digest, size, same⟩
    cases same
  completed := kept.completed
  installed := by
    intro job mem placed
    refine .inl ((kept.installed job mem placed).resolve_right ?_)
    rw [downloading]
    rintro ⟨_, _, same⟩
    cases same
  requeues := by
    intro _ same
    cases same
    exact requeues rfl
  waiting := by
    intro runs job mem isQueued
    rcases kept.waiting runs job mem isQueued with ⟨waits, unmarked⟩
    rw [downloading] at waits
    exact ⟨.inl (waits.resolve_right Worker.noConfusion), unmarked⟩
  alive := fun gone => nomatch gone

theorem finishDownload {outcome : Outcome}
  (possible : outcome.Possible snapshot agent) : Kept (finishDownload snapshot.id outcome agent) := by
  have stops : ∀ {other : Ending}, other ≠ .requeue -> (if agent.stopping then .requeue else other) = Ending.requeue ->
      agent.stopping := by
    intro other isOther same
    by_contra runs
    rw [if_neg runs] at same
    exact isOther same
  cases outcome with
  | canceled | failed code message => exact kept.returns downloading (stops Ending.noConfusion)
  | installed digest size =>
    rcases kept.holds snapshot.id (by rw [downloading]; rfl) with ⟨job, mem, same, downloads, agrees⟩
    rw [downloading] at agrees
    constructor
    · exact kept.ids
    · exact kept.issued
    · exact kept.marked
    · intro jobId placed
      rcases mem_cons.mp placed with rfl | before
      · exact same ▸ kept.issued job mem
      · exact kept.placed jobId before
    · intro jobId claimed
      cases claimed
      exact ⟨job, mem, same, downloads, possible.1.trans (congrArg Request.expectedSha256 agrees.symm)⟩
    · rintro _ ⟨otherDigest, otherSize, isInstalled⟩
      cases isInstalled
      exact .head _
    · intro other otherIn isCompleted
      rcases kept.completed other otherIn isCompleted with ⟨placed, verified, managed⟩
      exact ⟨mem_cons_of_mem _ placed, verified, managed⟩
    · intro other otherIn placed
      rcases mem_cons.mp placed with isOwn | before
      · exact .inr ⟨digest, size, by rw [isOwn]; rfl⟩
      · refine .inl ((kept.installed other otherIn before).resolve_right ?_)
        rw [downloading]
        rintro ⟨_, _, isInstalled⟩
        cases isInstalled
    · exact fun _ ended => nomatch ended
    · intro runs other otherIn isQueued
      rcases kept.waiting runs other otherIn isQueued with ⟨waits, unmarked⟩
      rw [downloading] at waits
      exact ⟨.inl (waits.resolve_right Worker.noConfusion), unmarked⟩
    · exact fun gone => nomatch gone

end

theorem putManaged_names (item : Managed) (records : Records) (name : String) :
  name ∈ (records.putManaged item).managed.map Managed.name ↔ name = item.name \/ name ∈ records.managed.map Managed.name := by
  change name ∈ (records.managed.filter (·.name ≠ item.name) ++ [item]).map Managed.name ↔ _
  rw [map_append, mem_append, map_singleton, mem_singleton]
  constructor
  · rintro (old | new)
    · rcases mem_map.mp old with ⟨other, mem, same⟩
      exact .inr (mem_map.mpr ⟨other, mem_of_mem_filter mem, same⟩)
    · exact .inl new
  · rintro (new | old)
    · exact .inr new
    · rcases mem_map.mp old with ⟨other, mem, rfl⟩
      by_cases same : other.name = item.name
      · exact .inr same
      · exact .inl (mem_map_of_mem (mem_filter.mpr ⟨mem, decide_eq_true same⟩))

theorem complete (kept : Kept agent) {digest : String} {size : ℕ} (worker : agent.worker = .installed jobId digest size)
  (clock : ℕ) (works : Bool) : Kept (complete jobId digest size clock works agent) := by
  rcases kept.holds jobId (by rw [worker]; rfl) with ⟨held, heldMember, heldId, _, agrees⟩
  have placed := kept.installs jobId ⟨digest, size, worker⟩
  rw [worker] at agrees
  unfold Checkpoints.complete
  split
  · rename_i missing
    exact absurd heldId (getJob_none missing heldMember)
  · rename_i job found
    rcases getJob_some found with ⟨mem, rfl⟩
    obtain rfl : held = job := Rows.eq_of_key kept.ids heldMember mem heldId
    have keepsId : ∀ row : Job, (row.done digest size clock).id = row.id := fun _ => rfl
    have prunes := @persist_prunes clock works (install held digest size clock agent.records) (kept.setJob_nodup held.id keepsId)
    generalize persist clock works (install held digest size clock agent.records) = saved at prunes
    have completed := @releases agent kept held mem _ keepsId (install held digest size clock agent.records)
      (.after held.id saved.2) rfl (fun name named => (putManaged_names _ _ name).mpr (.inr named)) rfl (Worker.after_claim _ _)
      (fun gone => absurd gone (Worker.after_alive held.id saved.2))
      (fun _ => ⟨placed, congrArg some agrees, .inl ((putManaged_names _ _ _).mpr (.inl rfl))⟩) (fun _ => rfl)
      (fun jobId installs => by
        rcases installs with ⟨_, _, isInstalled⟩
        cases worker.symm.trans isInstalled
        rfl)
      (fun jobId => .inl (by rw [worker]; exact Worker.noConfusion)) (fun waits => nomatch waits)
    exact completed.prunes prunes

theorem saveJob (kept : Kept agent) (jobId : ℕ) {change : Job -> Job} (keepsId : ∀ row, (change row).id = row.id)
  (clock : ℕ) (works : Bool) {worker : Worker} (before : ∀ other, ¬ agent.worker.Installs other)
  (unchosen : ∀ other, agent.worker ≠ .chosen other) (free : worker.claim = none)
  (alive : worker = .gone -> agent.stopping)
  (status : ∀ job, agent.records.getJob jobId = some job -> job.status ≠ .completed /\ (change job).status ≠ .completed /\
    ((change job).status = .queued -> agent.stopping)) :
  Kept { agent with records := (saveJob jobId change clock works agent.records).1, worker } := by
  unfold Checkpoints.saveJob
  split
  · refine kept.moves before free alive ?_
    intro runs job mem isQueued
    exact .inl ((kept.waiting runs job mem isQueued).1.resolve_right (unchosen job.id))
  · rename_i job found
    rcases status job found with ⟨incomplete, stays, requeues⟩
    rcases getJob_some found with ⟨mem, rfl⟩
    have prunes := @persist_prunes clock works (agent.records.setJob job.id change) (kept.setJob_nodup job.id keepsId)
    have saved := @releases agent kept job mem _ keepsId (agent.records.setJob job.id change) worker rfl (fun _ named => named) rfl
      free alive (absurd · stays)
      (fun placed => absurd placed (kept.unplaced mem incomplete (before job.id)))
      (fun other installs => absurd installs (before other)) (fun other => .inl (unchosen other)) requeues
    exact saved.prunes prunes

theorem recordEnding (kept : Kept agent) {ending : Ending} (worker : agent.worker = .ended jobId ending) (clock : ℕ)
  (works : Bool) : Kept (recordEnding jobId ending clock works agent) := by
  rcases kept.holds jobId (by rw [worker]; rfl) with ⟨_, heldMember, heldId, downloads, _⟩
  have before : ∀ other, ¬ agent.worker.Installs other := by
    rw [worker]
    rintro other ⟨_, _, same⟩
    cases same
  have unchosen : ∀ other, agent.worker ≠ .chosen other := by
    intro _
    rw [worker]
    exact Worker.noConfusion
  have incomplete : ∀ job, agent.records.getJob jobId = some job -> job.status ≠ .completed := by
    intro job found
    rcases getJob_some found with ⟨mem, same⟩
    rw [Rows.eq_of_key kept.ids mem heldMember (same.trans heldId.symm), downloads]
    exact Status.noConfusion
  have saved : ∀ change : Job -> Job, (∀ row, (change row).id = row.id) -> (∀ job, (change job).status ≠ .completed) ->
      (∀ job, (change job).status = .queued -> agent.stopping) ->
      Kept { agent with
        records := (Checkpoints.saveJob jobId change clock works agent.records).1,
        worker := .after jobId (Checkpoints.saveJob jobId change clock works agent.records).2 } := by
    intro _ keepsId stays requeues
    exact kept.saveJob jobId keepsId clock works before unchosen (Worker.after_claim _ _)
      (fun gone => absurd gone (Worker.after_alive jobId _)) (fun job found => ⟨incomplete job found, stays job, requeues job⟩)
  cases ending with
  | requeue => exact saved (Job.requeued clock) (fun _ => rfl) (fun _ => Status.noConfusion) (fun _ _ => kept.requeues jobId worker)
  | canceled =>
    exact saved (Job.ended .canceled "canceled" canceledMessage clock) (fun _ => rfl) (fun _ => Status.noConfusion)
      (fun _ waits => nomatch waits)
  | failed code message =>
    exact saved (Job.ended .failed code message clock) (fun _ => rfl) (fun _ => Status.noConfusion) (fun _ waits => nomatch waits)

theorem recover (kept : Kept agent) {config : Config} {clock : ℕ} {works : Bool} (worker : agent.worker = .recovering jobId)
  (meets : Meets config agent (.recover jobId clock works)) : Kept (recover jobId clock works agent) := by
  have before : ∀ other, ¬ agent.worker.Installs other := Worker.not_installs (by rw [worker]; rfl)
  have unchosen : ∀ other, agent.worker ≠ .chosen other := by
    intro _
    rw [worker]
    exact Worker.noConfusion
  have outcome : ∀ job, agent.records.getJob jobId = some job -> job.status ≠ .completed /\ job.status ≠ .canceled /\
      (agent.stopping \/ (markFailed jobId clock agent.records).Fits) := meets
  let failed := Job.ended .failed "internal_error" "the agent could not record the download" clock
  have saved : ∀ next : Worker, next.claim = none -> (next = .gone -> agent.stopping) ->
      Kept { agent with records := (Checkpoints.saveJob jobId failed clock works agent.records).1, worker := next } := by
    intro next free alive
    have status : ∀ job, agent.records.getJob jobId = some job -> job.status ≠ .completed /\ (failed job).status ≠ .completed /\
        ((failed job).status = .queued -> agent.stopping) :=
      fun job found => ⟨(outcome job found).1, Status.noConfusion, fun waits => nomatch waits⟩
    exact @saveJob agent kept jobId failed (fun _ => rfl) clock works next before unchosen free alive status
  have dies : (Checkpoints.saveJob jobId failed clock works agent.records).2 = some .tooLarge -> agent.stopping := by
    intro tooLarge
    unfold Checkpoints.saveJob at tooLarge
    split at tooLarge
    · cases tooLarge
    · rename_i job found
      have unfit := (persist_tooLarge_iff (@setJob_nodup agent kept jobId failed fun _ => rfl)).mp tooLarge
      exact (outcome job found).2.2.resolve_right unfit
  refine saved (if (Checkpoints.saveJob jobId failed clock works agent.records).2 = some .tooLarge then .gone else .idle) ?_ ?_
  · split
    · rfl
    · rfl
  · split
    · rename_i tooLarge
      exact fun _ => dies tooLarge
    · exact fun gone => nomatch gone

theorem perform (kept : Kept agent) {config : Config} {action : Action} (possible : Possible agent action)
  (meets : Meets config agent action) : Kept (perform config agent action) := by
  cases action with
  | submit request jobId clock works => exact kept.submit config request possible clock works
  | cancel jobId clock works => exact kept.cancel jobId clock works
  | deleteStart name supplied => exact kept.deleteStart name supplied
  | deleteFinish name item problem clock works => exact kept.deleteFinish name item problem clock works
  | stop => exact kept.stop
  | pick => exact kept.pick possible
  | beginJob jobId clock works => exact kept.beginJob possible clock works
  | progress snapshot total clock => exact kept.progress possible total clock
  | finishDownload snapshot outcome => exact kept.finishDownload possible.1 possible.2
  | complete jobId digest size clock works => exact kept.complete possible clock works
  | recordEnding jobId ending clock works => exact kept.recordEnding possible clock works
  | recover jobId clock works => exact kept.recover possible meets

end Kept

theorem kept_of_reachable {config : Config} {agent : Agent} (reachable : (agents config (Meets config)).Reachable agent) :
  Kept agent := by
  have invariant : (agents config (Meets config)).Invariant Kept :=
    ⟨fun _ loaded => Loaded.kept loaded, fun _ _ kept enabled => kept.perform enabled.1 enabled.2⟩
  exact invariant.reachable reachable

end BananaChat.Checkpoints

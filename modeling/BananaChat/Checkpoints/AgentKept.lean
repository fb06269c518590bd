import BananaChat.Checkpoints.Agent

namespace BananaChat.Checkpoints

open Foundation List Rows

/-!
# The agent's records are kept

Three parties touch a job: its requests, the worker and the handler of a failed save.
-/

namespace Worker

def claim : Worker -> Option ℕ
  | .downloading snapshot => some snapshot.id
  | .installed jobId _ _ => some jobId
  | .ended jobId _ => some jobId
  | _ => none

def Agrees (job : Job) : Worker -> Prop
  | .downloading snapshot => job.request = snapshot.request
  | .installed _ digest _ => digest = job.request.expectedSha256
  | _ => True

def Installs (jobId : ℕ) (worker : Worker) : Prop := ∃ digest size, worker = .installed jobId digest size

theorem Installs.claim {worker : Worker} {jobId : ℕ} (installs : worker.Installs jobId) : worker.claim = some jobId := by
  rcases installs with ⟨_, _, rfl⟩
  rfl

theorem not_installs {worker : Worker} (free : worker.claim = none) (jobId : ℕ) : ¬ worker.Installs jobId := by
  intro installs
  rw [installs.claim] at free
  cases free

theorem after_claim (jobId : ℕ) (error : Option SaveError) : (Worker.after jobId error).claim = none := by
  cases error with
  | none | some error => rfl

theorem after_alive (jobId : ℕ) (error : Option SaveError) : Worker.after jobId error ≠ .gone := by
  cases error with
  | none | some error => exact Worker.noConfusion

end Worker

/-- The file of a completed job: the job installed it, it is the expected one, and its target
is a managed file unless it was deleted since. -/
structure Recorded (records : Records) (history : History) (job : Job) : Prop where
  installed : job.id ∈ history.installed
  verified : job.digest = some job.request.expectedSha256
  managed : job.request.targetName ∈ records.managed.map Managed.name \/ job.id ∈ history.removed

structure Kept (agent : Agent) : Prop where
  ids : (agent.records.jobs.map Job.id).Nodup
  issued : ∀ job ∈ agent.records.jobs, job.id ∈ agent.history.issued
  marked : ∀ jobId ∈ agent.records.cancel, jobId ∈ agent.history.issued
  placed : ∀ jobId ∈ agent.history.installed, jobId ∈ agent.history.issued
  holds : ∀ jobId, agent.worker.claim = some jobId -> ∃ job ∈ agent.records.jobs, job.id = jobId /\
    job.status = .downloading /\ agent.worker.Agrees job
  installs : ∀ jobId, agent.worker.Installs jobId -> jobId ∈ agent.history.installed
  completed : ∀ job ∈ agent.records.jobs, job.status = .completed -> Recorded agent.records agent.history job
  installed : ∀ job ∈ agent.records.jobs, job.id ∈ agent.history.installed ->
    job.status = .completed \/ agent.worker.Installs job.id
  requeues : ∀ jobId, agent.worker = .ended jobId .requeue -> agent.stopping
  waiting : agent.stopping = false -> ∀ job ∈ agent.records.jobs, job.status = .queued ->
    (job.id ∈ agent.order \/ agent.worker = .chosen job.id) /\ job.id ∉ agent.records.cancel
  alive : agent.worker = .gone -> agent.stopping

theorem Loaded.kept {agent : Agent} (loaded : Loaded agent) : Kept agent where
  ids := loaded.ids
  issued := by
    intro job mem
    rw [loaded.issued]
    exact mem_map_of_mem mem
  marked := by
    intro jobId marked
    rw [loaded.unmarked] at marked
    exact absurd marked not_mem_nil
  placed := by
    intro jobId placed
    rcases (loaded.installed jobId).mp placed with ⟨job, mem, rfl, _⟩
    rw [loaded.issued]
    exact mem_map_of_mem mem
  holds := by
    intro jobId claimed
    rw [loaded.idle] at claimed
    cases claimed
  installs := by
    intro jobId installs
    exact absurd installs (Worker.not_installs (by rw [loaded.idle]; rfl) jobId)
  completed := by
    intro job mem isCompleted
    refine ⟨(loaded.installed job.id).mpr ⟨job, mem, rfl, isCompleted⟩, loaded.verified job mem isCompleted, ?_⟩
    by_cases managed : job.request.targetName ∈ agent.records.managed.map Managed.name
    · exact .inl managed
    · exact .inr (loaded.removed job mem isCompleted managed)
  installed := by
    intro job mem placed
    rcases (loaded.installed job.id).mp placed with ⟨_, otherIn, same, isCompleted⟩
    rw [eq_of_key loaded.ids mem otherIn same.symm]
    exact .inl isCompleted
  requeues := by
    intro _ ended
    rw [loaded.idle] at ended
    cases ended
  waiting := by
    intro _ job mem isQueued
    refine ⟨.inl (loaded.waiting job mem isQueued), ?_⟩
    rw [loaded.unmarked]
    exact not_mem_nil
  alive := by
    intro gone
    rw [loaded.idle] at gone
    cases gone

namespace Kept

variable {agent : Agent}

theorem prunes (kept : Kept agent) {records : Records} (prunes : Prunes agent.records records) : Kept { agent with records } where
  ids := prunes.nodup kept.ids
  issued := fun job mem => kept.issued job (prunes.mem mem)
  marked := fun jobId mem => kept.marked jobId (prunes.cancel jobId mem)
  placed := kept.placed
  holds := by
    intro jobId claimed
    rcases kept.holds jobId claimed with ⟨job, mem, same, downloads, agrees⟩
    exact ⟨job, prunes.stays mem (by rw [downloads]; rfl), same, downloads, agrees⟩
  installs := kept.installs
  completed := by
    intro job mem isCompleted
    rcases kept.completed job (prunes.mem mem) isCompleted with ⟨placed, verified, _⟩
    refine ⟨placed, verified, ?_⟩
    rwa [prunes.managed]
  installed := fun job mem => kept.installed job (prunes.mem mem)
  requeues := kept.requeues
  waiting := by
    intro runs job mem isQueued
    rcases kept.waiting runs job (prunes.mem mem) isQueued with ⟨waits, unmarked⟩
    exact ⟨waits, fun marked => unmarked (prunes.cancel job.id marked)⟩
  alive := kept.alive

structure Next (agent : Agent) (job after : Job) (records : Records) (order : List ℕ) (worker : Worker) : Prop where
  holds : ∀ jobId, worker.claim = some jobId ->
    (jobId = job.id /\ after.status = .downloading /\ worker.Agrees after) \/ (jobId ≠ job.id /\ worker = agent.worker)
  installs : ∀ jobId, worker.Installs jobId -> agent.worker.Installs jobId
  completed : after.status = .completed -> Recorded records agent.history after
  installed : job.id ∈ agent.history.installed -> after.status = .completed \/ worker.Installs job.id
  others : ∀ jobId, jobId ≠ job.id -> agent.worker.Installs jobId -> worker.Installs jobId
  requeues : ∀ jobId, worker = .ended jobId .requeue -> agent.stopping
  alive : worker = .gone -> agent.stopping
  rest : agent.stopping = false -> ∀ jobId, jobId ≠ job.id -> jobId ∈ agent.order \/ agent.worker = .chosen jobId ->
    jobId ∈ order \/ worker = .chosen jobId
  waits : agent.stopping = false -> after.status = .queued ->
    (job.id ∈ order \/ worker = .chosen job.id) /\ job.id ∉ records.cancel

theorem replace (kept : Kept agent) {job : Job} (mem : job ∈ agent.records.jobs) {change : Job -> Job}
  (keepsId : ∀ row, (change row).id = row.id) {records : Records} {order : List ℕ} {worker : Worker}
  (jobs : records.jobs = (agent.records.setJob job.id change).jobs)
  (managed : ∀ name ∈ agent.records.managed.map Managed.name, name ∈ records.managed.map Managed.name)
  (cancel : ∀ jobId ∈ records.cancel, jobId ∈ agent.records.cancel \/ jobId = job.id)
  (next : Next agent job (change job) records order worker) : Kept { agent with records, order, worker } := by
  have rows : ∀ other, other ∈ records.jobs ↔ (other ∈ agent.records.jobs /\ other.id ≠ job.id) \/ other = change job := by
    intro other
    rw [jobs]
    exact mem_updateWhere_key kept.ids mem (fun _ chosen => of_decide_eq_true chosen) (decide_eq_true rfl)
  constructor
  · rw [jobs]
    unfold Records.setJob
    rw [map_updateWhere Job.id keepsId]
    exact kept.ids
  · intro other otherIn
    rcases (rows other).mp otherIn with ⟨old, _⟩ | rfl
    · exact kept.issued other old
    · rw [keepsId]
      exact kept.issued job mem
  · intro jobId isMarked
    rcases cancel jobId isMarked with old | rfl
    · exact kept.marked jobId old
    · exact kept.issued job mem
  · exact kept.placed
  · intro jobId claimed
    rcases next.holds jobId claimed with ⟨rfl, downloads, agrees⟩ | ⟨other, sameWorker⟩
    · exact ⟨change job, (rows _).mpr (.inr rfl), keepsId job, downloads, agrees⟩
    · rcases kept.holds jobId (sameWorker ▸ claimed) with ⟨row, rowMember, rfl, downloads, agrees⟩
      exact ⟨row, (rows row).mpr (.inl ⟨rowMember, other⟩), rfl, downloads, sameWorker ▸ agrees⟩
  · exact fun jobId installs => kept.installs jobId (next.installs jobId installs)
  · intro other otherIn isCompleted
    rcases (rows other).mp otherIn with ⟨old, _⟩ | rfl
    · rcases kept.completed other old isCompleted with ⟨placed, verified, target⟩
      exact ⟨placed, verified, target.imp_left (managed _)⟩
    · exact next.completed isCompleted
  · intro other otherIn placed
    rcases (rows other).mp otherIn with ⟨old, isOther⟩ | rfl
    · exact (kept.installed other old placed).imp_right (next.others other.id isOther)
    · rw [keepsId] at placed ⊢
      exact next.installed placed
  · exact next.requeues
  · intro runs other otherIn isQueued
    rcases (rows other).mp otherIn with ⟨old, isOther⟩ | rfl
    · rcases kept.waiting runs other old isQueued with ⟨waits, unmarked⟩
      refine ⟨next.rest runs other.id isOther waits, ?_⟩
      intro isMarked
      rcases cancel other.id isMarked with before | same
      · exact unmarked before
      · exact isOther same
    · rw [keepsId]
      exact next.waits runs isQueued
  · exact next.alive

theorem free (kept : Kept agent) {job : Job} (mem : job ∈ agent.records.jobs) (status : job.status ≠ .downloading) :
  agent.worker.claim ≠ some job.id := by
  intro claimed
  rcases kept.holds job.id claimed with ⟨_, otherIn, same, downloads, _⟩
  rw [eq_of_key kept.ids otherIn mem same] at downloads
  exact status downloads

theorem unplaced (kept : Kept agent) {job : Job} (mem : job ∈ agent.records.jobs) (status : job.status ≠ .completed)
  (worker : ¬ agent.worker.Installs job.id) : job.id ∉ agent.history.installed := by
  intro placed
  rcases kept.installed job mem placed with isCompleted | installs
  · exact status isCompleted
  · exact worker installs

end Kept

variable {records : Records} {jobId : ℕ} {job : Job}

theorem getJob_some (found : records.getJob jobId = some job) :
  job ∈ records.jobs /\ job.id = jobId :=
  of_find_key found

theorem getJob_none (missing : records.getJob jobId = none) (mem : job ∈ records.jobs) : job.id ≠ jobId :=
  fun same => find?_eq_none.mp missing job mem (decide_eq_true same)

def Saves (works : Bool) (records : Records) : Prop := works /\ records.Fits

/-- Saves may fail, but not that of a job which is canceled in the queue; not that of a new
job or a deletion while finished jobs are due to be forgotten; and the handler of the worker
loop meets no job that is completed or canceled, and no state that is too large. -/
def Meets (config : Config) (agent : Agent) : Action -> Prop
  | .submit request jobId clock works =>
    (submitted request agent.records).isSome \/ config.queueSize <= agent.records.queued \/
      Saves works (agent.records.add (newJob config request jobId clock)) \/
      Tidy clock (agent.records.add (newJob config request jobId clock))
  | .cancel jobId clock works => ∀ job, agent.records.getJob jobId = some job -> job.status = .queued ->
      Saves works (withdraw jobId clock agent.records)
  | .deleteFinish name item problem clock works =>
    problem.isSome \/ agent.records.getManaged name ≠ some item \/ Saves works (agent.records.dropManaged name) \/
      Tidy clock (agent.records.dropManaged name)
  | .recover jobId clock _ => ∀ job, agent.records.getJob jobId = some job ->
      job.status ≠ .completed /\ job.status ≠ .canceled /\ (agent.stopping \/ (markFailed jobId clock agent.records).Fits)
  | _ => True

instance (works : Bool) (records : Records) : Decidable (Saves works records) := inferInstanceAs (Decidable (_ /\ _))

instance (config : Config) (agent : Agent) : ∀ action, Decidable (Meets config agent action)
  | .submit request jobId clock works => inferInstanceAs (Decidable (
      (submitted request agent.records).isSome \/ config.queueSize <= agent.records.queued \/
        Saves works (agent.records.add (newJob config request jobId clock)) \/
        Tidy clock (agent.records.add (newJob config request jobId clock))))
  | .cancel jobId clock works => inferInstanceAs (Decidable (∀ job ∈ agent.records.getJob jobId,
      job.status = .queued -> Saves works (withdraw jobId clock agent.records)))
  | .deleteFinish name item problem clock works => inferInstanceAs (Decidable (
      problem.isSome \/ agent.records.getManaged name ≠ some item \/ Saves works (agent.records.dropManaged name) \/
        Tidy clock (agent.records.dropManaged name)))
  | .recover jobId clock _ => inferInstanceAs (Decidable (∀ job ∈ agent.records.getJob jobId,
      job.status ≠ .completed /\ job.status ≠ .canceled /\
        (agent.stopping \/ (markFailed jobId clock agent.records).Fits)))
  | .deleteStart _ _ => inferInstanceAs (Decidable True)
  | .stop => inferInstanceAs (Decidable True)
  | .pick => inferInstanceAs (Decidable True)
  | .beginJob _ _ _ => inferInstanceAs (Decidable True)
  | .progress _ _ _ => inferInstanceAs (Decidable True)
  | .finishDownload _ _ => inferInstanceAs (Decidable True)
  | .complete _ _ _ _ _ => inferInstanceAs (Decidable True)
  | .recordEnding _ _ _ _ => inferInstanceAs (Decidable True)

namespace Kept

variable {agent : Agent}

theorem issue (kept : Kept agent) (jobId : ℕ) :
  Kept { agent with history := { agent.history with issued := jobId :: agent.history.issued } } where
  ids := kept.ids
  issued := fun job mem => mem_cons_of_mem _ (kept.issued job mem)
  marked := fun other isMarked => mem_cons_of_mem _ (kept.marked other isMarked)
  placed := fun other placed => mem_cons_of_mem _ (kept.placed other placed)
  holds := kept.holds
  installs := kept.installs
  completed := fun job mem isCompleted =>
    have recorded := kept.completed job mem isCompleted
    ⟨recorded.installed, recorded.verified, recorded.managed⟩
  installed := kept.installed
  requeues := kept.requeues
  waiting := kept.waiting
  alive := kept.alive

theorem add_nodup (kept : Kept agent) {job : Job} (fresh : job.id ∉ agent.history.issued) :
  ((agent.records.add job).jobs.map Job.id).Nodup := by
  change ((agent.records.jobs ++ [job]).map Job.id).Nodup
  rw [map_append, map_singleton]
  refine nodup_append.mpr ⟨kept.ids, nodup_singleton _, ?_⟩
  intro _ oldIn _ newMember same
  rcases mem_map.mp oldIn with ⟨row, rowMember, rfl⟩
  refine fresh ?_
  rw [<- mem_singleton.mp newMember, <- same]
  exact kept.issued row rowMember

theorem add (kept : Kept agent) {job : Job} (fresh : job.id ∉ agent.history.issued) (isQueued : job.status = .queued) :
  Kept { agent with
    records := agent.records.add job,
    order := agent.order ++ [job.id],
    history := { agent.history with issued := job.id :: agent.history.issued } } := by
  have rows : ∀ other ∈ (agent.records.add job).jobs, other ∈ agent.records.jobs \/ other = job := by
    intro other mem
    exact (mem_append.mp mem).imp_right mem_singleton.mp
  constructor
  · exact kept.add_nodup fresh
  · intro other mem
    rcases rows other mem with old | rfl
    · exact .tail _ (kept.issued other old)
    · exact .head _
  · exact fun jobId isMarked => mem_cons_of_mem _ (kept.marked jobId isMarked)
  · exact fun jobId placed => mem_cons_of_mem _ (kept.placed jobId placed)
  · intro jobId claimed
    rcases kept.holds jobId claimed with ⟨row, rowMember, about⟩
    exact ⟨row, mem_append_left _ rowMember, about⟩
  · exact kept.installs
  · intro other mem isCompleted
    rcases rows other mem with old | rfl
    · rcases kept.completed other old isCompleted with ⟨placed, verified, managed⟩
      exact ⟨placed, verified, managed⟩
    · rw [isQueued] at isCompleted
      cases isCompleted
  · intro other mem placed
    rcases rows other mem with old | rfl
    · exact kept.installed other old placed
    · exact absurd (kept.placed _ placed) fresh
  · exact kept.requeues
  · intro runs other mem waits
    rcases rows other mem with old | rfl
    · rcases kept.waiting runs other old waits with ⟨listed, unmarked⟩
      exact ⟨listed.imp_left (mem_append_left _), unmarked⟩
    · exact ⟨.inl (mem_concat_self), fun isMarked => fresh (kept.marked _ isMarked)⟩
  · exact kept.alive

theorem drop_add (kept : Kept agent) {job : Job} (fresh : job.id ∉ agent.history.issued) :
  ((agent.records.add job).drop job.id).jobs = agent.records.jobs := by
  change deleteWhere (·.id = job.id) (agent.records.jobs ++ [job]) = agent.records.jobs
  have old : deleteWhere (·.id = job.id) agent.records.jobs = agent.records.jobs := by
    refine deleteWhere_eq_self ?_
    exact fun row mem chosen => fresh (of_decide_eq_true chosen ▸ kept.issued row mem)
  have new : deleteWhere (·.id = job.id) [job] = [] := by
    refine eq_nil_iff_forall_not_mem.mpr ?_
    intro _ mem
    rcases mem_deleteWhere.mp mem with ⟨isNew, unchosen⟩
    rw [mem_singleton.mp isNew] at unchosen
    exact unchosen (decide_eq_true rfl)
  unfold deleteWhere at old new ⊢
  rw [filter_append, old, new, append_nil]

theorem prunes_drop (kept : Kept agent) {job : Job} (fresh : job.id ∉ agent.history.issued) {saved : Records}
  (prunes : Prunes (agent.records.add job) saved) : Prunes agent.records (saved.drop job.id) := by
  rcases prunes.jobs with ⟨keeps, jobs, stays⟩
  refine ⟨⟨keeps, ?_, fun row mem => stays row (mem_append_left _ mem)⟩, prunes.managed,
    fun jobId isMarked => prunes.cancel jobId (mem_of_mem_filter isMarked)⟩
  have dropped := kept.drop_add fresh
  unfold Records.drop deleteWhere at dropped ⊢
  dsimp only at dropped ⊢
  rw [jobs, filter_filter, <- dropped, filter_filter]
  exact filter_congr (fun _ _ => Bool.and_comm _ _)

theorem submit (kept : Kept agent) (config : Config) (request : Request) {jobId : ℕ} (fresh : jobId ∉ agent.history.issued)
  (clock : ℕ) (works : Bool) : Kept (submit config request jobId clock works agent).1 := by
  unfold Checkpoints.submit
  split
  · split
    · exact kept
    · exact kept
  · split
    · exact kept
    · have prunes := @persist_prunes clock works (agent.records.add (newJob config request jobId clock)) (kept.add_nodup fresh)
      dsimp only
      split
      · have dropped := @prunes_drop agent kept (newJob config request jobId clock) fresh _ prunes
        exact (kept.issue jobId).prunes dropped
      · have added := @add agent kept (newJob config request jobId clock) fresh rfl
        exact added.prunes prunes

theorem mark (kept : Kept agent) {job : Job} (mem : job ∈ agent.records.jobs) (status : job.status ≠ .queued) :
  Kept { agent with records := agent.records.mark job.id } where
  ids := kept.ids
  issued := kept.issued
  marked := by
    intro jobId isMarked
    rcases mem_cons.mp isMarked with rfl | before
    · exact kept.issued job mem
    · exact kept.marked jobId before
  placed := kept.placed
  holds := kept.holds
  installs := kept.installs
  completed := fun other otherIn isCompleted =>
    have recorded := kept.completed other otherIn isCompleted
    ⟨recorded.installed, recorded.verified, recorded.managed⟩
  installed := kept.installed
  requeues := kept.requeues
  waiting := by
    intro runs other otherIn isQueued
    rcases kept.waiting runs other otherIn isQueued with ⟨waits, unmarked⟩
    refine ⟨waits, ?_⟩
    intro isMarked
    rcases mem_cons.mp isMarked with same | before
    · rw [eq_of_key kept.ids otherIn mem same] at isQueued
      exact status isQueued
    · exact unmarked before
  alive := kept.alive

theorem setJob_nodup (kept : Kept agent) (jobId : ℕ) {change : Job -> Job} (keepsId : ∀ row, (change row).id = row.id) :
  ((agent.records.setJob jobId change).jobs.map Job.id).Nodup := by
  unfold Records.setJob
  rw [map_updateWhere Job.id keepsId]
  exact kept.ids

section

variable (kept : Kept agent)
include kept

theorem cancel (jobId clock : ℕ) (works : Bool) : Kept (cancel jobId clock works agent).1 := by
  unfold Checkpoints.cancel
  split
  · exact kept
  · rename_i job found
    rcases getJob_some found with ⟨mem, rfl⟩
    split
    · exact kept
    · split
      · rename_i isQueued
        have free := kept.free mem (by rw [isQueued]; exact Status.noConfusion)
        have keepsId : ∀ row : Job, (row.ended .canceled "canceled" canceledMessage clock).id = row.id := fun _ => rfl
        have next : Next agent job (job.ended .canceled "canceled" canceledMessage clock) (withdraw job.id clock agent.records)
            (agent.order.filter (· ≠ job.id)) agent.worker := by
          constructor
          · exact fun jobId claimed => .inr ⟨fun same => free (same ▸ claimed), rfl⟩
          · exact fun jobId installs => installs
          · exact fun isCompleted => nomatch isCompleted
          · intro placed
            rcases kept.installed job mem placed with isCompleted | installs
            · rw [isQueued] at isCompleted
              cases isCompleted
            · exact .inr installs
          · exact fun jobId _ installs => installs
          · exact kept.requeues
          · exact kept.alive
          · intro _ _ other listed
            exact listed.imp_left (fun listed => mem_filter.mpr ⟨listed, decide_eq_true other⟩)
          · exact fun _ waits => nomatch waits
        have withdrawn := @replace agent kept job mem _ keepsId (withdraw job.id clock agent.records) _ _ rfl (fun _ named => named)
          (fun _ isMarked => (mem_cons.mp isMarked).symm) next
        have prunes := @persist_prunes clock works (withdraw job.id clock agent.records) (kept.setJob_nodup job.id keepsId)
        dsimp only
        split
        · exact withdrawn.prunes prunes
        · exact withdrawn.prunes prunes
      · rename_i waits
        exact kept.mark mem waits

theorem deleting (deleting : List (String × Managed)) : Kept { agent with deleting } :=
  ⟨kept.ids, kept.issued, kept.marked, kept.placed, kept.holds, kept.installs, kept.completed, kept.installed, kept.requeues,
    kept.waiting, kept.alive⟩

theorem dropManaged (name : String) :
  Kept { agent with
    records := agent.records.dropManaged name,
    history := { agent.history with removed := completedFor name agent.records ++ agent.history.removed } } where
  ids := kept.ids
  issued := kept.issued
  marked := kept.marked
  placed := kept.placed
  holds := kept.holds
  installs := kept.installs
  completed := by
    intro job mem isCompleted
    rcases kept.completed job mem isCompleted with ⟨placed, verified, managed⟩
    refine ⟨placed, verified, ?_⟩
    by_cases target : job.request.targetName = name
    · refine .inr (mem_append_left _ (mem_map_of_mem (mem_filter.mpr ⟨mem, ?_⟩)))
      rw [decide_eq_true isCompleted, decide_eq_true target]
      rfl
    · refine managed.imp ?_ (mem_append_right _)
      intro named
      rcases mem_map.mp named with ⟨item, itemMember, same⟩
      exact mem_map.mpr ⟨item, mem_filter.mpr ⟨itemMember, decide_eq_true (same ▸ target)⟩, same⟩
  installed := kept.installed
  requeues := kept.requeues
  waiting := kept.waiting
  alive := kept.alive

theorem deleteStart (name supplied : String) : Kept (deleteStart name supplied agent).1 := by
  unfold Checkpoints.deleteStart
  split
  · exact kept
  · split
    · exact kept
    · split
      · exact kept
      · exact kept.deleting _

theorem deleteFinish (name : String) (item : Managed) (problem : Option Problem) (clock : ℕ) (works : Bool) :
  Kept (deleteFinish name item problem clock works agent).1 := by
  have released := kept.deleting (agent.deleting.filter (·.1 ≠ name))
  unfold Checkpoints.deleteFinish
  split
  · exact released
  · split
    · exact released
    · have prunes := @persist_prunes clock works (agent.records.dropManaged name) kept.ids
      dsimp only
      split
      · exact (released.dropManaged name).prunes prunes
      · exact (released.dropManaged name).prunes prunes

theorem stop : Kept (stop agent) where
  ids := kept.ids
  issued := kept.issued
  marked := by
    intro jobId isMarked
    rcases mem_append.mp isMarked with ofJob | before
    · rcases mem_map.mp ofJob with ⟨job, mem, rfl⟩
      exact kept.issued job mem
    · exact kept.marked jobId before
  placed := kept.placed
  holds := kept.holds
  installs := kept.installs
  completed := fun job mem isCompleted =>
    have recorded := kept.completed job mem isCompleted
    ⟨recorded.installed, recorded.verified, recorded.managed⟩
  installed := kept.installed
  requeues := fun _ _ => rfl
  waiting := fun runs => nomatch runs
  alive := fun _ => rfl

end

end Kept

end BananaChat.Checkpoints

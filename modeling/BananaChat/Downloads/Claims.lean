import BananaChat.Downloads.Jobs

namespace BananaChat.Downloads

open Foundation List Bool Rows

/-!
# Claims of download jobs

Every write but a claim and a new job rewrites rows one by one: a job keeps its name, a job that is
over stays as it ended, and no job starts.
-/

theorem latest_toList : latest.toList = [':', 'l', 'a', 't', 'e', 's', 't'] := by
  unfold latest
  simp

variable (name : String) {job : Job} {owner : Option ℕ} {tables : Tables}

theorem latest_tagged (name : List Char) : ':' ∈ lastSegment (name ++ latest.toList) := by
  have untouched : ∀ char ∈ latest.toList.reverse, decide (char ≠ '/') := by
    rw [latest_toList]
    simp
  have tagged : ':' ∈ latest.toList := by
    exact .head _
  unfold lastSegment
  rw [reverse_append, takeWhile_append_of_pos untouched, reverse_append, reverse_reverse]
  exact mem_append_right _ tagged
theorem canonical_fixed : canonicalOllamaName (canonicalOllamaName name) = canonicalOllamaName name := by
  have tagged : ':' ∈ lastSegment (canonicalOllamaName name).toList := by
    unfold canonicalOllamaName
    split
    · assumption
    · rw [String.toList_append]
      exact latest_tagged name.toList
  exact if_pos tagged

theorem withoutLatest_append : withoutLatest (name ++ latest) = name := by
  unfold withoutLatest
  rw [String.toList_append, if_pos (isSuffixOf_iff_suffix.mpr (suffix_append _ _)), length_append,
    Nat.add_sub_cancel, take_left, String.ofList_toList]

theorem canonical_spelling (backend : Backend) :
  name = (names (canonicalName name backend) backend).1 \/ name = (names (canonicalName name backend) backend).2 := by
  cases backend with
  | comfyui => exact .inl rfl
  | ollama =>
    unfold names canonicalName
    dsimp only
    rw [canonical_fixed]
    unfold canonicalOllamaName
    split
    · exact .inl rfl
    · exact .inr (withoutLatest_append name).symm

structure Keeps (job after : Job) : Prop where
  id : after.id = job.id
  name : after.name = job.name
  backend : after.backend = job.backend
  isOver : job.status.finished -> after.status = job.status
  notStarted : after.status = .pulling -> job.status = .pulling

namespace Keeps

variable {job after : Job}

theorem refl (job : Job) : Keeps job job := ⟨rfl, rfl, rfl, fun _ => rfl, fun pulling => pulling⟩

theorem trans {later : Job} (first : Keeps job after) (second : Keeps after later) : Keeps job later where
  id := second.id.trans first.id
  name := second.name.trans first.name
  backend := second.backend.trans first.backend
  isOver := by
    intro finished
    have same := first.isOver finished
    rw [second.isOver (same ▸ finished), same]
  notStarted := fun pulling => first.notStarted (second.notStarted pulling)

theorem active (keeps : Keeps job after) (isActive : after.status.active) : job.status.active := by
  by_contra ended
  have finished : job.status.finished := by
    unfold Status.finished
    rw [eq_false_of_not_eq_true ended]
    rfl
  rw [keeps.isOver finished] at isActive
  exact ended isActive

theorem of_status (id : after.id = job.id) (name : after.name = job.name) (backend : after.backend = job.backend)
  (status : after.status = job.status) : Keeps job after :=
  ⟨id, name, backend, fun _ => status, fun pulling => status ▸ pulling⟩

theorem of_active (id : after.id = job.id) (name : after.name = job.name) (backend : after.backend = job.backend)
  (isActive : job.status.active) (stops : after.status ≠ .pulling) : Keeps job after := by
  refine ⟨id, name, backend, ?_, fun pulling => absurd pulling stops⟩
  intro finished
  unfold Status.finished at finished
  rw [isActive] at finished
  cases finished

end Keeps

theorem active_of_pulling (pulling : job.status = .pulling) : job.status.active := by
  rw [pulling]
  rfl

def Rewrites (tables after : Tables) : Prop :=
  after.nextId = tables.nextId /\ ∃ change, after.jobs = tables.jobs.map change /\ ∀ job, Keeps job (change job)

namespace Rewrites

variable {tables middle after : Tables}

theorem refl (tables : Tables) : Rewrites tables tables := ⟨rfl, id, (map_id _).symm, Keeps.refl⟩

theorem trans (first : Rewrites tables middle) (second : Rewrites middle after) : Rewrites tables after := by
  rcases first with ⟨sameNext, change, jobs, keeps⟩
  rcases second with ⟨laterNext, later, laterJobs, laterKeeps⟩
  refine ⟨laterNext.trans sameNext, later ∘ change, ?_, fun job => (keeps job).trans (laterKeeps _)⟩
  rw [laterJobs, jobs, map_map]

theorem update {selected : Job -> Bool} {change : Job -> Job} (next : after.nextId = tables.nextId)
  (jobs : after.jobs = Rows.updateWhere selected change tables.jobs)
  (keeps : ∀ job, selected job -> Keeps job (change job)) : Rewrites tables after := by
  refine ⟨next, fun job => if selected job then change job else job, jobs, ?_⟩
  intro job
  dsimp only
  split
  · rename_i chosen
    exact keeps job chosen
  · exact Keeps.refl job

theorem setJob (jobId : ℕ) {allowed : Job -> Bool} {change : Job -> Job}
  (keeps : ∀ job, allowed job -> Keeps job (change job)) (tables : Tables) :
  Rewrites tables (setJob jobId allowed change tables) :=
  update rfl rfl (fun job chosen => keeps job (and_eq_true _ _ ▸ chosen).2)

theorem discovery (jobId : ℕ) (outcome : Status) (tables : Tables) : Rewrites tables (discoveryOutcome jobId outcome tables) := by
  unfold discoveryOutcome
  split
  · exact refl tables
  · split
    · exact refl tables
    · split
      · exact ⟨rfl, id, (map_id _).symm, Keeps.refl⟩
      · exact ⟨rfl, id, (map_id _).symm, Keeps.refl⟩
      · exact refl tables

theorem foldl {Item : Type} {step : Tables -> Item -> Tables} (each : ∀ tables item, Rewrites tables (step tables item))
  (items : List Item) (tables : Tables) : Rewrites tables (items.foldl step tables) := by
  induction items generalizing tables with
  | nil => exact refl tables
  | cons item rest ih => exact (each tables item).trans (ih _)

end Rewrites

theorem isPulling_status (allowed : isPulling owner job) : job.status = .pulling := by
  unfold isPulling at allowed
  rw [and_eq_true, decide_eq_true_eq] at allowed
  exact allowed.1

theorem isActive_status (allowed : isActive owner job) : job.status.active := by
  unfold isActive at allowed
  rw [and_eq_true] at allowed
  exact allowed.1

theorem finish_rewrites (jobId : ℕ) (outcome : Status) (error digest : Option String) (owner : Option ℕ) (now : ℕ)
  (tables : Tables) : Rewrites tables (finish jobId outcome error digest owner now tables) := by
  unfold finish
  split
  · exact .refl tables
  · rename_i known
    have ended := @Rewrites.setJob jobId (isActive owner) (fun job => { job with
      status := outcome, errorMessage := error.bind (fun text => if text = "" then none else some (clip text)),
      finishedAt := some now, nextAttemptAt := none, digest := digest.or job.digest,
      progressPct := if outcome = .done then 100 else job.progressPct })
      (fun job allowed => Keeps.of_active rfl rfl rfl (isActive_status allowed)
        (fun pulling : outcome = .pulling => known (pulling ▸ rfl))) tables
    dsimp only
    split
    · exact ended.trans (.discovery jobId outcome _)
    · exact ended

theorem cancel_rewrites (jobId : ℕ) (error : Option String) (owner : Option ℕ) (now : ℕ) (tables : Tables) :
  Rewrites tables (cancel jobId error owner now tables) := by
  have ended := @Rewrites.setJob jobId (isActive owner) (fun job => { job with
    status := .cancelled, errorMessage := error, finishedAt := some now, nextAttemptAt := none })
    (fun job allowed => Keeps.of_active rfl rfl rfl (isActive_status allowed) Status.noConfusion) tables
  unfold cancel
  dsimp only
  split
  · exact ended.trans (.discovery jobId .cancelled _)
  · exact ended

theorem write_rewrites (jobId : ℕ) (owner : Option ℕ) (now : ℕ) (write : Write) (tables : Tables) :
  Rewrites tables (write.perform jobId owner now tables) := by
  cases write with
  | progress percent detail completed total | remote remoteJobId | finishedDetail detail =>
    refine .setJob jobId ?_ tables
    exact fun job _ => Keeps.of_status rfl rfl rfl rfl
  | retry attempts nextAttemptAt error detail | requeue note =>
    refine .setJob jobId ?_ tables
    exact fun job allowed => Keeps.of_active rfl rfl rfl (active_of_pulling (isPulling_status allowed)) Status.noConfusion
  | finish outcome error digest => exact finish_rewrites jobId outcome error digest owner now tables
  | cancel error => exact cancel_rewrites jobId error owner now tables

theorem requeueOrphan_rewrites (note : String) (tables : Tables) (row : Job) : Rewrites tables (requeueOrphan note tables row) := by
  refine .update rfl rfl (fun job chosen => ?_)
  unfold orphanSelected at chosen
  rw [and_eq_true, and_eq_true, decide_eq_true_eq, decide_eq_true_eq] at chosen
  exact Keeps.of_active rfl rfl rfl (active_of_pulling chosen.1.2) Status.noConfusion

theorem cancelForGood_rewrites (jobId : ℕ) (cleanup : Bool) (now : ℕ) (tables : Tables) :
  Rewrites tables (cancelForGood jobId cleanup now tables) := by
  unfold cancelForGood
  split
  · exact .refl tables
  · split
    · refine Rewrites.trans (.setJob jobId ?_ tables) (cancel_rewrites jobId _ none now _)
      exact fun job _ => Keeps.of_status rfl rfl rfl rfl
    · exact .refl tables

theorem perform_rewrites (limit : ℕ) (tables : Tables) (action : Action) :
  Rewrites tables (perform limit tables action) \/ (∃ name backend now, action = .enqueue name backend now) \/
    ∃ skipBackend token now, action = .claimNext skipBackend token now := by
  cases action with
  | enqueue name backend now => exact .inr (.inl ⟨name, backend, now, rfl⟩)
  | claimNext skipBackend token now => exact .inr (.inr ⟨skipBackend, token, now, rfl⟩)
  | write jobId owner write now => exact .inl (write_rewrites jobId owner now write tables)
  | retryOrFail job retries problem now => exact .inl (write_rewrites job.id job.claimToken now _ tables)
  | interrupted job retries reason now =>
    refine .inl ?_
    dsimp only [perform]
    cases interrupted retries now job reason with
    | none => exact .refl tables
    | some write => exact write_rewrites job.id job.claimToken now write tables
  | requeueOrphans before running note => exact .inl (.foldl (requeueOrphan_rewrites note) _ tables)
  | resetStuck =>
    refine .inl (.update rfl rfl fun job chosen => ?_)
    exact Keeps.of_active rfl rfl rfl (active_of_pulling (of_decide_eq_true chosen)) Status.noConfusion
  | setPaused jobId paused | retryNow jobId =>
    refine .inl (.setJob jobId ?_ tables)
    exact fun job _ => Keeps.of_status rfl rfl rfl rfl
  | noteWaiting backend detail => exact .inl (.update rfl rfl fun job _ => Keeps.of_status rfl rfl rfl rfl)
  | cancelForGood jobId cleanup now => exact .inl (cancelForGood_rewrites jobId cleanup now tables)

structure Sound (limit : ℕ) (tables : Tables) : Prop where
  ids : (tables.jobs.map Job.id).Nodup
  below : ∀ job ∈ tables.jobs, job.id < tables.nextId
  single : ∀ first ∈ tables.jobs, ∀ second ∈ tables.jobs, first.status.active ->
    second.status.active -> first.backend = second.backend ->
      canonicalName first.name first.backend = canonicalName second.name second.backend -> first = second
  within : ∀ backend, tables.jobs.countP (pullingOf backend) <= max 1 limit

theorem pullingOf_iff {backend : Backend} : pullingOf backend job ↔ job.status = .pulling /\ job.backend = backend := by
  unfold pullingOf
  rw [and_eq_true, decide_eq_true_eq, decide_eq_true_eq]

namespace Sound

variable {limit : ℕ} {tables after : Tables}

theorem empty (limit nextId : ℕ) (discovery : List (String × Bool)) : Sound limit { jobs := [], discovery, nextId } :=
  ⟨nodup_nil, forall_mem_nil _, forall_mem_nil _, fun _ => Nat.zero_le _⟩

theorem rewrites (sound : Sound limit tables) (rewritten : Rewrites tables after) : Sound limit after := by
  rcases rewritten with ⟨next, _, jobs, keeps⟩
  have ids : after.jobs.map Job.id = tables.jobs.map Job.id := by
    rw [jobs, map_map]
    exact map_congr_left (fun job _ => (keeps job).id)
  constructor
  · rw [ids]
    exact sound.ids
  · intro job mem
    rw [jobs] at mem
    rcases mem_map.mp mem with ⟨old, oldIn, rfl⟩
    rw [(keeps old).id, next]
    exact sound.below old oldIn
  · intro _ firstMember _ secondMember firstActive secondActive sameBackend sameName
    rw [jobs] at firstMember secondMember
    rcases mem_map.mp firstMember with ⟨firstOld, firstOldMember, rfl⟩
    rcases mem_map.mp secondMember with ⟨secondOld, secondOldMember, rfl⟩
    rw [(keeps firstOld).backend, (keeps secondOld).backend] at sameBackend sameName
    rw [(keeps firstOld).name, (keeps secondOld).name] at sameName
    rw [sound.single firstOld firstOldMember secondOld secondOldMember ((keeps firstOld).active firstActive)
      ((keeps secondOld).active secondActive) sameBackend sameName]
  · intro backend
    rw [jobs, countP_map]
    refine le_trans (countP_mono_left ?_) (sound.within backend)
    intro job _ pulling
    rcases pullingOf_iff.mp pulling with ⟨isPulling, sameBackend⟩
    exact pullingOf_iff.mpr ⟨(keeps job).notStarted isPulling, (keeps job).backend.symm.trans sameBackend⟩

theorem enqueue (sound : Sound limit tables) {name : String} {backend : Backend} {now : ℕ}
  (done : enqueue name backend now tables = some after) : Sound limit after := by
  unfold Downloads.enqueue at done
  dsimp only at done
  have isCanonical : (if backend = .ollama then canonicalOllamaName name else name) = canonicalName name backend := by
    cases backend <;> rfl
  rw [isCanonical] at done
  split at done
  · cases done
  · rename_i noneActive
    cases done
    have noOther : ∀ job ∈ tables.jobs, job.status.active -> job.backend = backend ->
        canonicalName job.name job.backend ≠ canonicalName (canonicalName name backend) backend := by
      intro job mem isActive sameBackend sameName
      have fixed : canonicalName (canonicalName name backend) backend = canonicalName name backend := by
        cases backend with
        | ollama => exact canonical_fixed name
        | comfyui => rfl
      apply noneActive
      refine any_eq_true.mpr ⟨job, mem, ?_⟩
      rw [and_eq_true, and_eq_true, or_eq_true, decide_eq_true_eq, decide_eq_true_eq, decide_eq_true_eq]
      refine ⟨⟨sameBackend, ?_⟩, isActive⟩
      have spelled := canonical_spelling job.name job.backend
      rw [sameName, sameBackend, fixed] at spelled
      exact spelled
    have members : ∀ job ∈ tables.jobs ++ [newJob (canonicalName name backend) backend now tables],
        job ∈ tables.jobs \/ job = newJob (canonicalName name backend) backend now tables := by
      intro job mem
      rw [mem_append, mem_singleton] at mem
      exact mem
    constructor
    · rw [map_append]
      refine List.Nodup.append sound.ids (nodup_singleton _) (disjoint_singleton.mpr ?_)
      intro mem
      rcases mem_map.mp mem with ⟨job, jobMember, same⟩
      exact absurd (sound.below job jobMember) (same ▸ Nat.lt_irrefl _)
    · intro job mem
      rcases members job mem with old | rfl
      · exact Nat.lt_succ_of_lt (sound.below job old)
      · exact Nat.lt_succ_self _
    · intro first firstMember second secondMember firstActive secondActive sameBackend sameName
      rcases members first firstMember with firstOld | rfl
      · rcases members second secondMember with secondOld | rfl
        · exact sound.single first firstOld second secondOld firstActive secondActive sameBackend sameName
        · exact absurd sameName (noOther first firstOld firstActive sameBackend)
      · rcases members second secondMember with secondOld | rfl
        · exact absurd sameName.symm (noOther second secondOld secondActive sameBackend.symm)
        · rfl
    · intro other
      rw [countP_append]
      exact sound.within other

theorem claimNext (sound : Sound limit tables) (skipBackend : Option Backend) (token now : ℕ) :
  Sound limit (claimNext limit skipBackend token now tables) := by
  unfold Downloads.claimNext
  split
  · exact sound
  · rename_i job found
    rcases mem_filter.mp (argmin_mem found) with ⟨mem, isRunnable⟩
    unfold runnable at isRunnable
    simp only [and_eq_true, decide_eq_true_eq] at isRunnable
    have waiting : job.status.active := by
      rw [isRunnable.1.1.1.1]
      rfl
    have room : tables.jobs.countP (pullingOf job.backend) < max 1 limit := isRunnable.1.2
    have changed : ∀ other,
        other ∈ Rows.updateWhere (·.id = job.id) (Job.claimedBy token now) tables.jobs ->
          (other ∈ tables.jobs /\ other.id ≠ job.id) \/ other = job.claimedBy token now :=
      fun other => (mem_updateWhere_key sound.ids mem (fun _ same => of_decide_eq_true same) (decide_eq_true rfl)).mp
    constructor
    · rw [map_updateWhere Job.id]
      · exact sound.ids
      · exact fun _ => rfl
    · intro other otherIn
      rcases changed other otherIn with ⟨old, _⟩ | rfl
      · exact sound.below other old
      · exact sound.below job mem
    · intro first firstMember second secondMember firstActive secondActive sameBackend sameName
      rcases changed first firstMember with ⟨firstOld, firstOther⟩ | rfl
      · rcases changed second secondMember with ⟨secondOld, _⟩ | rfl
        · exact sound.single first firstOld second secondOld firstActive secondActive sameBackend sameName
        · exact absurd (congrArg Job.id (sound.single first firstOld job mem firstActive waiting sameBackend sameName)) firstOther
      · rcases changed second secondMember with ⟨secondOld, secondOther⟩ | rfl
        · exact absurd (congrArg Job.id (sound.single job mem second secondOld waiting secondActive sameBackend sameName)).symm
            secondOther
        · rfl
    · intro backend
      by_cases own : job.backend = backend
      · subst own
        have one := affected_key sound.ids job.id
        rw [if_pos (mem_map_of_mem mem)] at one
        refine (countP_updateWhere_le_add _).trans ?_
        rw [one]
        exact room
      · refine (countP_updateWhere_le ?_).trans (sound.within backend)
        intro _ otherIn same pulling
        rw [eq_of_key sound.ids otherIn mem (of_decide_eq_true same)] at pulling
        exact absurd (pullingOf_iff.mp pulling).2 own

theorem perform (sound : Sound limit tables) (action : Action) : Sound limit (perform limit tables action) := by
  rcases perform_rewrites limit tables action with rewritten | ⟨name, backend, now, rfl⟩ | ⟨skipBackend, token, now, rfl⟩
  · exact sound.rewrites rewritten
  · dsimp only [Downloads.perform]
    cases done : Downloads.enqueue name backend now tables with
    | none => exact sound
    | some after => exact sound.enqueue done
  · exact sound.claimNext skipBackend token now

end Sound

def Continues (tables after : Tables) : Prop :=
  ∀ job ∈ tables.jobs, ∃ later ∈ after.jobs, later.id = job.id /\ (job.status.finished -> later.status = job.status)

theorem Continues.trans {middle after : Tables} (first : Continues tables middle) (second : Continues middle after) :
  Continues tables after := by
  intro job mem
  rcases first job mem with ⟨between, betweenMember, betweenId, betweenOver⟩
  rcases second between betweenMember with ⟨later, laterMember, laterId, laterOver⟩
  refine ⟨later, laterMember, laterId.trans betweenId, fun isOver => ?_⟩
  have same := betweenOver isOver
  rw [laterOver (same ▸ isOver), same]

theorem enqueue_appends {name : String} {backend : Backend} {now : ℕ} {after : Tables}
  (done : enqueue name backend now tables = some after) : ∃ new, after.jobs = tables.jobs ++ [new] := by
  unfold enqueue at done
  dsimp only at done
  generalize (if backend = .ollama then canonicalOllamaName name else name) = canonical at done
  split at done
  · cases done
  · cases done
    exact ⟨_, rfl⟩

theorem perform_continues {limit : ℕ} (sound : Sound limit tables) (action : Action) :
  Continues tables (perform limit tables action) := by
  rcases perform_rewrites limit tables action with ⟨_, change, jobs, keeps⟩ | ⟨name, backend, now, rfl⟩ | ⟨_, token, now, rfl⟩
  · intro job mem
    refine ⟨change job, ?_, (keeps job).id, (keeps job).isOver⟩
    rw [jobs]
    exact mem_map_of_mem mem
  · dsimp only [perform]
    cases done : enqueue name backend now tables with
    | none => exact fun job mem => ⟨job, mem, rfl, fun _ => rfl⟩
    | some after =>
      rcases enqueue_appends done with ⟨_, jobs⟩
      intro job mem
      refine ⟨job, ?_, rfl, fun _ => rfl⟩
      change job ∈ after.jobs
      rw [jobs]
      exact mem_append_left _ mem
  · dsimp only [perform]
    unfold claimNext
    split
    · exact fun job mem => ⟨job, mem, rfl, fun _ => rfl⟩
    · rename_i claimed found
      rcases mem_filter.mp (argmin_mem found) with ⟨claimedMember, isRunnable⟩
      intro job mem
      by_cases same : job.id = claimed.id
      · obtain rfl : job = claimed := eq_of_key sound.ids mem claimedMember same
        refine ⟨job.claimedBy token now, mem_updateWhere.mpr (.inr ⟨job, mem, decide_eq_true rfl, rfl⟩), rfl, ?_⟩
        intro isOver
        unfold runnable at isRunnable
        simp only [and_eq_true, decide_eq_true_eq] at isRunnable
        rw [isRunnable.1.1.1.1] at isOver
        cases isOver
      · exact ⟨job, mem_updateWhere.mpr (.inl ⟨mem, fun chosen => same (of_decide_eq_true chosen)⟩), rfl, fun _ => rfl⟩

def Lost (jobId : ℕ) (token : ℕ) (tables : Tables) : Prop :=
  ∀ job ∈ tables.jobs, job.id = jobId -> job.claimToken ≠ some token

theorem owned_iff {token : ℕ} : job.owned (some token) ↔ job.claimToken = some token := by
  unfold Job.owned
  rw [Option.isNone_some, Bool.false_or, decide_eq_true_eq]

section LostClaims

variable {jobId token : ℕ} {tables : Tables}

theorem setJob_lost (lost : Lost jobId token tables) {allowed : Job -> Bool}
  (named : ∀ job, allowed job -> job.owned (some token)) (change : Job -> Job) :
  setJob jobId allowed change tables = tables := by
  unfold setJob
  rw [updateWhere_eq_self]
  intro job mem chosen
  rw [and_eq_true, decide_eq_true_eq] at chosen
  exact lost job mem chosen.1 (owned_iff.mp (named job chosen.2))

theorem isPulling_owned (allowed : isPulling owner job) : job.owned owner := (and_eq_true _ _ ▸ allowed).2

theorem isActive_owned (allowed : isActive owner job) : job.owned owner := (and_eq_true _ _ ▸ allowed).2

theorem affected_lost (lost : Lost jobId token tables) :
  Rows.affected (fun job => decide (job.id = jobId) && isActive (some token) job) tables.jobs = 0 := by
  refine affected_eq_zero_iff.mpr ?_
  intro job mem chosen
  rw [and_eq_true, decide_eq_true_eq] at chosen
  exact lost job mem chosen.1 (owned_iff.mp (isActive_owned chosen.2))

theorem write_lost (lost : Lost jobId token tables) (write : Write) (now : ℕ) :
  write.perform jobId (some token) now tables = tables := by
  cases write with
  | progress percent detail completed total | retry attempts nextAttemptAt error detail | remote remoteJobId
  | requeue note => exact setJob_lost lost (fun job => isPulling_owned) _
  | finishedDetail detail => exact setJob_lost lost (fun job allowed => (and_eq_true _ _ ▸ allowed).2) _
  | finish outcome error digest =>
    dsimp only [Write.perform]
    unfold finish
    split
    · rfl
    · dsimp only
      rw [affected_lost lost, if_neg (absurd ·.1 Nat.zero_ne_one)]
      exact setJob_lost lost (fun job => isActive_owned) _
  | cancel error =>
    dsimp only [Write.perform]
    unfold cancel
    dsimp only
    rw [affected_lost lost, if_neg Nat.zero_ne_one]
    exact setJob_lost lost (fun job => isActive_owned) _

end LostClaims

theorem requeueOrphan_lost {row : Job}
  (lost : ∀ job ∈ tables.jobs, job.id = row.id -> job.claimToken ≠ row.claimToken) (note : String) :
  requeueOrphan note tables row = tables := by
  unfold requeueOrphan
  rw [updateWhere_eq_self]
  intro job mem chosen
  unfold orphanSelected at chosen
  rw [and_eq_true, and_eq_true, decide_eq_true_eq, decide_eq_true_eq, decide_eq_true_eq] at chosen
  exact lost job mem chosen.1.1 chosen.2

/-- Any order of operations by any processes.  The table may begin with jobs of earlier
releases, whose names need not be canonical. -/
def downloads (limit : ℕ) : Machine Tables Action where
  initial := Sound limit
  enabled := fun _ _ => True
  next := perform limit

theorem sound_of_reachable {limit : ℕ} (reachable : (downloads limit).Reachable tables) : Sound limit tables := by
  have invariant : (downloads limit).Invariant (Sound limit) :=
    ⟨fun _ isInitial => isInitial, fun _ action sound _ => sound.perform action⟩
  exact invariant.reachable reachable

theorem run_continues {limit : ℕ} (sound : Sound limit tables) (actions : List Action) :
  Continues tables ((downloads limit).run tables actions) := by
  induction actions generalizing tables with
  | nil => exact fun job mem => ⟨job, mem, rfl, fun _ => rfl⟩
  | cons action rest ih =>
    exact (perform_continues sound action).trans (ih (sound.perform action))

/-- In any interleaving: a job that is done, failed or cancelled stays so. -/
theorem downloads_claimed {limit : ℕ} {tables : Tables} (reachable : (downloads limit).Reachable tables) :
  (∀ actions, ∀ job ∈ tables.jobs, job.status.finished ->
    ∃ later ∈ ((downloads limit).run tables actions).jobs, later.id = job.id /\ later.status = job.status) /\
  (∀ jobId token, Lost jobId token tables ->
    (∀ write now, perform limit tables (.write jobId (some token) write now) = tables) /\
    ∀ job, job.id = jobId -> job.claimToken = some token ->
      (∀ retries problem now, perform limit tables (.retryOrFail job retries problem now) = tables) /\
      (∀ retries reason now, perform limit tables (.interrupted job retries reason now) = tables) /\
      ∀ note, requeueOrphan note tables job = tables) /\
  (∀ backend, tables.jobs.countP (pullingOf backend) <= max 1 limit) /\
  (tables.jobs.map Job.id).Nodup /\
  ∀ first ∈ tables.jobs, ∀ second ∈ tables.jobs, first.status.active ->
    second.status.active -> first.backend = second.backend ->
      canonicalName first.name first.backend = canonicalName second.name second.backend -> first = second := by
  have sound := sound_of_reachable reachable
  refine ⟨?_, ?_, sound.within, sound.ids, sound.single⟩
  · intro actions job mem isOver
    rcases run_continues sound actions job mem with ⟨later, laterMember, same, ended⟩
    exact ⟨later, laterMember, same, ended isOver⟩
  · intro jobId token lost
    refine ⟨fun write now => write_lost lost write now, ?_⟩
    rintro job rfl claimed
    refine ⟨?_, ?_, ?_⟩
    · intro retries problem now
      dsimp only [perform]
      rw [claimed]
      exact write_lost lost _ now
    · intro retries reason now
      dsimp only [perform]
      cases interrupted retries now job reason with
      | none => rfl
      | some write =>
        rw [claimed]
        exact write_lost lost write now
    · intro note
      refine requeueOrphan_lost ?_ note
      rw [claimed]
      exact lost

def claimedTwice : List Action :=
  [.enqueue "llama3" .ollama 0, .claimNext none 7 10, .requeueOrphans 500 [] "", .claimNext none 8 510,
    .cancelForGood 1 true 600]

/-- The first run finds the model complete and changes nothing, and the job is cancelled
whatever comes. -/
theorem downloads_claimed_twice :
  ∃ tables, (downloads 1).Reachable tables /\ tables.jobs.map Job.status = [.cancelled] /\
    perform 1 tables (.write 1 (some 7) (.finish .done none (some "digest")) 700) = tables /\
    ∀ actions, ∃ later ∈ ((downloads 1).run tables actions).jobs, later.id = 1 /\
      later.status = .cancelled := by
  have initial : (downloads 1).initial { jobs := [], discovery := [], nextId := 1 } := Sound.empty 1 1 []
  have reachable := (Machine.Reachable.start initial).run claimedTwice ⟨trivial, trivial, trivial, trivial, trivial, trivial⟩
  have claimed := downloads_claimed reachable
  let tables := (downloads 1).run { jobs := [], discovery := [], nextId := 1 } claimedTwice
  have lost : Lost 1 7 tables := by
    unfold Lost
    decide +kernel
  have ended : ∃ job ∈ tables.jobs, job.id = 1 /\ job.status = .cancelled := by decide +kernel
  refine ⟨tables, reachable, by decide +kernel, (claimed.2.1 1 7 lost).1 _ 700, ?_⟩
  intro actions
  rcases ended with ⟨job, mem, isFirst, cancelled⟩
  rcases claimed.1 actions job mem (by rw [cancelled]; rfl) with ⟨later, laterMember, same, status⟩
  exact ⟨later, laterMember, same.trans isFirst, status.trans cancelled⟩

end BananaChat.Downloads

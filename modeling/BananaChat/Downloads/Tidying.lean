import Mathlib.Data.Finset.Basic
import BananaChat.Downloads.Claims
import BananaChat.Foundation.Dictionary

namespace BananaChat.Downloads

open Foundation List Bool Rows Dictionary Prod Status

/-!
# Tidying the history of downloads

Discovery must not enroll a model whose download is not over or was cancelled.
-/

/-- The stored value: a list of names was written by an earlier release.  Anything that is no
text, or no truth value, is none. -/
inductive StoredRecords
  | missing
  | names (names : List (Option String))
  | entries (entries : List (String × Option Bool))

def discoveryRecords : StoredRecords -> List (String × Bool)
  | .missing => []
  | .names names => ofEntries (names.reduceOption.map fun name => (canonicalOllamaName name, true))
  | .entries entries =>
    ofEntries (entries.filterMap fun entry => entry.2.map fun cancelled => (canonicalOllamaName entry.1, cancelled))

/-- The jobs, in the order of their ids, and what is stored about cancelled ones. -/
structure History where
  jobs : List Job
  stored : StoredRecords
  rising : jobs.Pairwise (fun one other => one.id < other.id)

def Job.named (name : String) (job : Job) : Bool := (job.backend = .ollama) && (canonicalOllamaName job.name = name)

/-- `_latest_ollama_statuses`. -/
def latestStatuses (jobs : List Job) : List (String × Status) :=
  ofEntries ((jobs.filter (·.backend = .ollama)).map
    (fun job => (canonicalOllamaName job.name, job.status)))

namespace History

variable (past : History)

def blockedDiscoveryNames : Finset String :=
  let latest := latestStatuses past.jobs
  let recorded := discoveryRecords past.stored
  ((recorded.filter Prod.snd).map Prod.fst).toFinset ∪
    ((latest.filter (fun entry => entry.2.active ||
      ((entry.2 = .cancelled) && (get? entry.1 recorded ≠ some false)))).map Prod.fst).toFinset

/-- One turn of the loop of `_preserve_cancelled_history`. -/
def recordCancelled (recorded : List (String × Bool)) (entry : String × Status) : List (String × Bool) :=
  if entry.2 = .cancelled /\ (get? entry.1 recorded).isNone then put entry.1 true recorded else recorded

/-- The records that `_preserve_cancelled_history` stores. -/
def preserved : List (String × Bool) := (latestStatuses past.jobs).foldl recordCancelled (discoveryRecords past.stored)

/-- `_preserve_cancelled_history`; nothing is stored where nothing is recorded. -/
def preserveCancelledHistory : History :=
  { past with
    stored := if past.preserved = [] then past.stored
      else .entries (past.preserved.map fun entry => (entry.1, some entry.2)) }

/-- `DELETE`. -/
def deleteJobs (selected : Job -> Bool) : History where
  jobs := deleteWhere selected past.jobs
  stored := past.stored
  rising := past.rising.sublist deleteWhere_sublist

end History

inductive Tidying
  | deleteFinished (jobId : ℕ)
  | clearFinished

/-- The jobs that are deleted; `clear_finished` keeps the recipes of checkpoints. -/
def Tidying.selects : Tidying -> Job -> Bool
  | .deleteFinished jobId => fun job => (job.id = jobId) && job.status.finished
  | .clearFinished => fun job => job.status.finished && !((job.backend = .comfyui) && (job.status = .done))

/-- `delete_finished` and `clear_finished`, with the number of deleted jobs. -/
def Tidying.perform (tidying : Tidying) (past : History) : History × ℕ :=
  (past.preserveCancelledHistory.deleteJobs tidying.selects, affected tidying.selects past.jobs)

def Blocks (recorded : Option Bool) (latest : Option Status) : Prop :=
  recorded = some true \/ ∃ status, latest = some status /\
    (status.active \/ (status = .cancelled /\ recorded ≠ some false))

def lastJob (name : String) (jobs : List Job) : Option Job := (jobs.filter (Job.named name)).getLast?

theorem latestStatuses_get (name : String) (jobs : List Job) :
  get? name (latestStatuses jobs) = (lastJob name jobs).map Job.status := by
  unfold latestStatuses lastJob
  rw [get?_ofEntries, filter_map, getLast?_map, filter_filter, Option.map_map]
  have same : jobs.filter (fun job => ((fun entry : String × Status => decide (entry.1 = name)) ∘
      fun job : Job => (canonicalOllamaName job.name, job.status)) job && decide (job.backend = .ollama)) =
        jobs.filter (Job.named name) :=
    filter_congr fun job _ => and_comm _ _
  rw [same]
  rfl

theorem discoveryRecords_nodup (stored : StoredRecords) : ((discoveryRecords stored).map fst).Nodup := by
  unfold discoveryRecords
  split
  · exact nodup_nil
  · exact nodup_ofEntries _
  · exact nodup_ofEntries _

theorem mem_blocked_iff (past : History) (name : String) : name ∈ past.blockedDiscoveryNames ↔
    Blocks (get? name (discoveryRecords past.stored)) ((lastJob name past.jobs).map Job.status) := by
  have distinctRecords := discoveryRecords_nodup past.stored
  have distinctJobs : ((latestStatuses past.jobs).map fst).Nodup := nodup_ofEntries _
  unfold History.blockedDiscoveryNames Blocks
  rw [<- latestStatuses_get]
  rw [Finset.mem_union, mem_toFinset, mem_toFinset, mem_map, mem_map]
  apply or_congr
  · constructor
    · rintro ⟨⟨other, cancelled⟩, mem, rfl⟩
      rcases mem_filter.mp mem with ⟨inside, isTrue⟩
      rw [<- (show cancelled = true from isTrue)]
      exact (mem_iff_get? distinctRecords).mp inside
    · intro recorded
      exact ⟨(name, true), mem_filter.mpr ⟨(mem_iff_get? distinctRecords).mpr recorded, rfl⟩, rfl⟩
  · constructor
    · rintro ⟨⟨_, status⟩, mem, rfl⟩
      rcases mem_filter.mp mem with ⟨inside, judged⟩
      refine ⟨status, (mem_iff_get? distinctJobs).mp inside, ?_⟩
      simpa using judged
    · rintro ⟨status, isLatest, judged⟩
      refine ⟨(name, status), mem_filter.mpr ⟨(mem_iff_get? distinctJobs).mpr isLatest, ?_⟩, rfl⟩
      simpa using judged

def afterwards (recorded : Option Bool) (latest : Option Status) : Option Bool :=
  recorded.or (if latest = some .cancelled then some true else none)

variable {name : String} {recorded : Option Bool}

theorem recorded_canonical {stored : StoredRecords} {cancelled : Bool}
  (recorded : get? name (discoveryRecords stored) = some cancelled) : canonicalOllamaName name = name := by
  have mem : name ∈ (discoveryRecords stored).map fst :=
    get?_isSome_iff.mp (by rw [recorded]; rfl)
  unfold discoveryRecords at mem
  split at mem
  · cases mem
  · rcases mem_map.mp (mem_keys_ofEntries.mp mem) with ⟨entry, inside, rfl⟩
    rcases mem_map.mp inside with ⟨other, _, rfl⟩
    exact canonical_fixed other
  · rcases mem_map.mp (mem_keys_ofEntries.mp mem) with ⟨_, inside, rfl⟩
    rcases mem_filterMap.mp inside with ⟨⟨other, _⟩, _, isEntry⟩
    rcases Option.map_eq_some_iff.mp isEntry with ⟨_, _, rfl⟩
    exact canonical_fixed other

theorem recordCancelled_get (recorded : List (String × Bool)) (entry : String × Status) (name : String) :
  get? name (History.recordCancelled recorded entry) =
    (get? name recorded).or (if entry = (name, .cancelled) then some true else none) := by
  rcases entry with ⟨other, status⟩
  unfold History.recordCancelled
  by_cases isCancelled : status = .cancelled
  · subst isCancelled
    by_cases same : other = name
    · subst same
      cases isRecorded : get? other recorded with
      | none => simp [get?_put]
      | some cancelled => simp [isRecorded]
    · have apart : ¬ (other, cancelled) = (name, .cancelled) := fun equal => same (Prod.ext_iff.mp equal).1
      rw [if_neg apart, Option.or_none]
      split
      · rw [get?_put, if_neg same]
      · rfl
  · have apart : ¬ (other, status) = (name, .cancelled) := fun equal => isCancelled (Prod.ext_iff.mp equal).2
    rw [if_neg (isCancelled ·.1), if_neg apart, Option.or_none]

theorem foldl_recordCancelled_get (entries : List (String × Status)) (recorded : List (String × Bool)) (name : String) :
  get? name (entries.foldl History.recordCancelled recorded) =
    (get? name recorded).or (if (name, cancelled) ∈ entries then some true else none) := by
  induction entries generalizing recorded with
  | nil => simp
  | cons entry rest ih =>
    rw [foldl_cons, ih, recordCancelled_get, Option.or_assoc]
    congr 1
    by_cases isFirst : entry = (name, .cancelled)
    · simp [isFirst]
    · have apart : (name, cancelled) ≠ entry := Ne.symm isFirst
      simp [isFirst, apart]

theorem preserved_get (past : History) (name : String) : get? name past.preserved =
    afterwards (get? name (discoveryRecords past.stored)) ((lastJob name past.jobs).map Job.status) := by
  unfold History.preserved afterwards
  rw [foldl_recordCancelled_get, <- latestStatuses_get]
  congr 1
  exact if_congr (mem_iff_get? (nodup_ofEntries _)) rfl rfl

theorem preserved_nodup (past : History) : (past.preserved.map fst).Nodup := by
  have start : ((discoveryRecords past.stored).map fst).Nodup := discoveryRecords_nodup _
  unfold History.preserved
  induction latestStatuses past.jobs using reverseRecOn with
  | nil => exact start
  | append_singleton entries entry ih =>
    rw [foldl_append]
    change ((History.recordCancelled _ entry).map fst).Nodup
    unfold History.recordCancelled
    split
    · exact nodup_put ih _ _
    · exact ih

theorem preserved_canonical {past : History} (mem : name ∈ past.preserved.map fst) :
  canonicalOllamaName name = name := by
  have isRecorded := get?_isSome_iff.mpr mem
  rw [preserved_get] at isRecorded
  cases recorded : get? name (discoveryRecords past.stored) with
  | some cancelled => exact recorded_canonical recorded
  | none =>
    rw [recorded] at isRecorded
    cases latest : lastJob name past.jobs with
    | none =>
      rw [latest] at isRecorded
      cases isRecorded
    | some job =>
      have isNamed := (mem_filter.mp (mem_of_getLast? latest)).2
      rw [<- of_decide_eq_true (and_eq_true_iff.mp isNamed).2]
      exact canonical_fixed job.name

theorem preserve_records (past : History) (name : String) :
  get? name (discoveryRecords past.preserveCancelledHistory.stored) = get? name past.preserved := by
  unfold History.preserveCancelledHistory
  split
  · rename_i nothing
    have none := preserved_get past name
    rw [nothing] at none ⊢
    exact (Option.or_eq_none_iff.mp none.symm).1
  · refine congrArg (get? name) ?_
    unfold discoveryRecords
    dsimp only
    have same : (past.preserved.map fun entry => (entry.1, some entry.2)).filterMap
        (fun entry : String × Option Bool => entry.2.map fun cancelled => (canonicalOllamaName entry.1, cancelled)) =
          past.preserved := by
      rw [filterMap_map]
      refine (filterMap_congr ?_).trans (filterMap_some)
      rintro ⟨other, cancelled⟩ mem
      change some (canonicalOllamaName other, cancelled) = some (other, cancelled)
      rw [preserved_canonical (mem_map.mpr ⟨_, mem, rfl⟩)]
    rw [same, ofEntries_self (preserved_nodup past)]

theorem blocks_none : Blocks recorded none ↔ recorded = some true := by
  simp [Blocks]

theorem blocks_some {status : Status} : Blocks recorded (some status) ↔
    recorded = some true \/ status.active \/ (status = .cancelled /\ recorded ≠ some false) := by
  simp [Blocks]

theorem blocks_afterwards (recorded : Option Bool) (latest : Option Status) :
  Blocks (afterwards recorded latest) latest ↔ Blocks recorded latest := by
  cases latest with
  | none => simp [afterwards]
  | some status =>
    rw [blocks_some, blocks_some]
    unfold afterwards
    by_cases isCancelled : status = .cancelled
    · subst isCancelled
      cases recorded with
      | none | some cancelled => simp
    · have apart : ¬ some status = some cancelled := fun same => isCancelled (Option.some.inj same)
      rw [if_neg apart, Option.or_none]

theorem blocks_deleted {status : Status} (finished : status.finished) (before : Option Status) :
  (Blocks (afterwards recorded (some status)) before ↔ Blocks recorded (some status)) ↔
    ∀ uncovered, before = some uncovered -> uncovered.active \/ (uncovered = .cancelled /\ recorded = none) ->
        recorded = some true \/ (status = .cancelled /\ recorded = none) := by
  cases before with
  | none =>
    rw [blocks_none, blocks_some]
    cases status <;> cases recorded <;> simp_all [afterwards, Status.finished, Status.active]
  | some uncovered =>
    rw [blocks_some, blocks_some]
    cases status <;> rcases recorded with _ | _ | _ <;> cases uncovered <;>
      simp_all [afterwards, Status.finished, Status.active]

variable {jobs : List Job} {job : Job} {selected : Job -> Bool}

theorem lastJob_kept (isLast : lastJob name jobs = some job)
  (kept : selected job = false) : lastJob name (deleteWhere selected jobs) = some job := by
  unfold lastJob deleteWhere at *
  rw [filter_filter, filter_congr (fun other _ => and_comm _ _), <- filter_filter]
  rcases getLast?_eq_some_iff.mp isLast with ⟨_, split⟩
  rw [split, filter_append, filter_singleton, kept]
  simp

theorem lastJob_none (nothing : lastJob name jobs = none) : lastJob name (deleteWhere selected jobs) = none := by
  unfold lastJob deleteWhere at *
  rw [getLast?_eq_none_iff] at *
  rw [filter_filter, filter_congr (fun other _ => and_comm _ _), <- filter_filter, nothing]
  rfl

theorem selects_finished {tidying : Tidying} (selected : tidying.selects job) : job.status.finished := by
  cases tidying with
  | deleteFinished jobId => exact (and_eq_true_iff.mp selected).2
  | clearFinished => exact (and_eq_true_iff.mp selected).1

/-- No deletion of a last job uncovers an earlier job that blocks a name which was free: one that is not over,
or a cancelled one without a record. -/
def Tidying.UncoversNothing (tidying : Tidying) (past : History) : Prop :=
  ∀ name job, lastJob name past.jobs = some job -> tidying.selects job ->
    ∀ before, lastJob name (deleteWhere tidying.selects past.jobs) = some before -> before.status.active \/
        (before.status = .cancelled /\ get? name (discoveryRecords past.stored) = none) ->
      get? name (discoveryRecords past.stored) = some true \/
        (job.status = .cancelled /\ get? name (discoveryRecords past.stored) = none)

/-- Tidying changes what is blocked exactly where it uncovers something. -/
theorem tidying_keeps_iff (tidying : Tidying) (past : History) :
  (tidying.perform past).1.blockedDiscoveryNames = past.blockedDiscoveryNames ↔ tidying.UncoversNothing past := by
  have after (name : String) : name ∈ (tidying.perform past).1.blockedDiscoveryNames ↔
      Blocks (afterwards (get? name (discoveryRecords past.stored)) ((lastJob name past.jobs).map Job.status))
        ((lastJob name (deleteWhere tidying.selects past.jobs)).map Job.status) := by
    rw [mem_blocked_iff, <- preserved_get, <- preserve_records]
    rfl
  rw [Finset.ext_iff]
  refine forall_congr' fun name => ?_
  rw [after, mem_blocked_iff]
  cases isLast : lastJob name past.jobs with
  | none =>
    rw [lastJob_none isLast]
    constructor
    · intro _ job clash
      cases clash
    · intro _
      exact blocks_afterwards _ _
  | some job =>
    cases selected : tidying.selects job with
    | false =>
      rw [lastJob_kept isLast selected]
      constructor
      · intro _ other same isSelected
        cases same
        rw [selected] at isSelected
        cases isSelected
      · intro _
        exact blocks_afterwards _ _
    | true =>
      rw [Option.map_some, blocks_deleted (selects_finished selected)]
      constructor
      · intro uncovered other same _ before isBefore
        cases same
        exact uncovered before.status (by rw [isBefore]; rfl)
      · intro nothing status isStatus
        rcases Option.map_eq_some_iff.mp isStatus with ⟨before, isBefore, rfl⟩
        exact nothing job rfl selected before isBefore

def retried : History where
  jobs := [{ (newJob "llama3:latest" .ollama 0 ⟨[], [], 1⟩) with status := .cancelled },
    { (newJob "llama3:latest" .ollama 5 ⟨[], [], 2⟩) with status := .done }]
  stored := .missing
  rising := by decide +kernel

/-- Deleting the row of the retry blocks the model again. -/
theorem retried_blocked :
  ¬ ((Tidying.deleteFinished 2).perform retried).1.blockedDiscoveryNames = retried.blockedDiscoveryNames := by
  intro same
  have free : "llama3:latest" ∉ retried.blockedDiscoveryNames := by decide +kernel
  have blocked : "llama3:latest" ∈ ((Tidying.deleteFinished 2).perform retried).1.blockedDiscoveryNames := by decide +kernel
  exact free (same ▸ blocked)

end BananaChat.Downloads

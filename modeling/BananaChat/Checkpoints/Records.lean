import BananaChat.Foundation.Descending
import BananaChat.Foundation.Rows

namespace BananaChat.Checkpoints

open Foundation List

/-!
# The records of the checkpoint agent

Jobs and managed files are held in memory and written to `state.json` as a whole.
-/

inductive Status
  | queued
  | downloading
  | completed
  | failed
  | canceled
deriving DecidableEq

namespace Status

/-- `TERMINAL_STATES`. -/
def finished : Status -> Bool
  | .completed => true
  | .failed => true
  | .canceled => true
  | _ => false

def text : Status -> String
  | .queued => "queued"
  | .downloading => "downloading"
  | .completed => "completed"
  | .failed => "failed"
  | .canceled => "canceled"

end Status

structure Source where
  repoId : String
  filename : String
  revision : String
deriving DecidableEq

structure Request where
  source : Source
  targetName : String
  expectedSha256 : String
  expectedSize : Option ℕ
  idempotencyKey : String
deriving DecidableEq

structure Failure where
  code : String
  message : String
deriving DecidableEq

structure Job where
  id : ℕ
  request : Request
  requestFingerprint : String
  status : Status
  bytesReceived : ℕ
  digest : Option String
  size : Option ℕ
  createdAt : ℕ
  updatedAt : ℕ
  error : Option Failure
deriving DecidableEq

structure Managed where
  name : String
  digest : String
  size : ℕ
  installedAt : ℕ
  jobId : ℕ
deriving DecidableEq

/-- What a save writes, and the jobs whose cancel event is set. -/
structure Records where
  jobs : List Job
  managed : List Managed
  cancel : List ℕ

/-- A character in a text of `json.dumps`, which escapes all but printable ASCII. -/
def charSize (char : Char) : ℕ :=
  if 32 <= char.toNat /\ char.toNat <= 126 then (if char.toNat = 34 \/ char.toNat = 92 then 2 else 1)
  else if char.toNat ∈ [8, 9, 10, 12, 13] then 2
  else if char.toNat < 65536 then 6
  else 12

def textSize (text : String) : ℕ := (text.toList.map charSize).sum + 2

def numberSize (number : ℕ) : ℕ := (Nat.toDigits 10 number).length

def idSize : ℕ := 34

def stampSize : ℕ := 22

/-- A value that may be `null`. -/
def optionalSize {Value : Type} (size : Value -> ℕ) : Option Value -> ℕ
  | none => 4
  | some value => size value

def objectSize (members : List (ℕ × ℕ)) : ℕ :=
  (members.map fun isIn => isIn.1 + isIn.2 + 1).sum + (members.length - 1) + 2

def fieldsSize (fields : List (String × ℕ)) : ℕ := objectSize (fields.map fun field => (textSize field.1, field.2))

def Source.jsonSize (source : Source) : ℕ :=
  fieldsSize [("type", textSize "huggingface"), ("repo_id", textSize source.repoId), ("filename", textSize source.filename),
    ("revision", textSize source.revision)]

def Failure.jsonSize (failure : Failure) : ℕ :=
  fieldsSize [("code", textSize failure.code), ("message", textSize failure.message)]

def Job.jsonSize (job : Job) : ℕ :=
  fieldsSize [("source", job.request.source.jsonSize), ("target_name", textSize job.request.targetName),
    ("expected_sha256", textSize job.request.expectedSha256), ("expected_size", optionalSize numberSize job.request.expectedSize),
    ("idempotency_key", textSize job.request.idempotencyKey), ("id", idSize), ("status", textSize job.status.text),
    ("bytes_received", numberSize job.bytesReceived), ("digest", optionalSize textSize job.digest),
    ("size", optionalSize numberSize job.size), ("created_at", stampSize), ("updated_at", stampSize),
    ("error", optionalSize Failure.jsonSize job.error), ("request_fingerprint", textSize job.requestFingerprint)]

def Managed.jsonSize (item : Managed) : ℕ :=
  fieldsSize [("name", textSize item.name), ("digest", textSize item.digest), ("size", numberSize item.size),
    ("installed_at", stampSize), ("job_id", idSize)]

/-- `len(self._state_payload())`. -/
def Records.payloadSize (records : Records) : ℕ :=
  fieldsSize [("version", 1), ("jobs", objectSize (records.jobs.map fun job => (idSize, job.jsonSize))),
    ("managed", objectSize (records.managed.map fun item => (textSize item.name, item.jsonSize)))]

def maxFinishedJobs : ℕ := 500

def finishedJobRetentionDays : ℕ := 30

def maxStateBytes : ℕ := 8 * 1024 * 1024

/-- `_now`, of a clock that counts microseconds. -/
def stamp (clock : ℕ) : ℕ := clock / 1000000

def Job.outdated (clock : ℕ) (job : Job) : Bool :=
  (job.updatedAt + finishedJobRetentionDays * 86400) * 1000000 < clock

def Job.recency (job : Job) : ℕ ×ₗ ℕ := toLex (job.updatedAt, job.id)

def Records.finished (records : Records) : List Job :=
  descending Job.recency (records.jobs.filter (·.status.finished))

/-- What `_prune_locked` removes. -/
def Records.removes (keep clock : ℕ) (records : Records) : List ℕ :=
  (records.finished.zipIdx.filter fun entry => (keep <= entry.2) || entry.1.outdated clock).map (·.1.id)

/-- `_prune_locked`. -/
def prune (keep clock : ℕ) (records : Records) : Records :=
  { records with
    jobs := Rows.deleteWhere (·.id ∈ records.removes keep clock) records.jobs,
    cancel := records.cancel.filter (· ∉ records.removes keep clock) }

/-- The loop of `_persist_locked`: half as many jobs are kept each time. -/
def shrink (clock : ℕ) : ℕ -> ℕ -> Records -> Records
  | 0, _, records => records
  | fuel + 1, keep, records =>
    if maxStateBytes / 2 < records.payloadSize /\ 0 < keep then
      shrink clock fuel (keep / 2) (prune (keep / 2) clock records)
    else records

/-- Why a save fails: it is refused with `state_too_large`, or the operating system fails. -/
inductive SaveError
  | tooLarge
  | storage
deriving DecidableEq

/-- `_persist_locked`; `works` tells whether the operating system writes the file. -/
def persist (clock : ℕ) (works : Bool) (records : Records) : Records × Option SaveError :=
  let kept := shrink clock maxFinishedJobs maxFinishedJobs (prune maxFinishedJobs clock records)
  if maxStateBytes < kept.payloadSize then (kept, some .tooLarge)
  else if works then (kept, none)
  else (kept, some .storage)

structure Prunes (records after : Records) : Prop where
  jobs : ∃ keeps : Job -> Bool, after.jobs = records.jobs.filter keeps /\
    ∀ job ∈ records.jobs, job.status.finished = false -> keeps job
  managed : after.managed = records.managed
  cancel : ∀ jobId ∈ after.cancel, jobId ∈ records.cancel

namespace Prunes

variable {records middle after : Records}

theorem refl (records : Records) : Prunes records records :=
  ⟨⟨fun _ => true, (filter_eq_self.mpr fun _ _ => rfl).symm, fun _ _ _ => rfl⟩, rfl, fun _ isIn => isIn⟩

section

variable (prunes : Prunes records after)
include prunes

theorem sublist : after.jobs.Sublist records.jobs := by
  rcases prunes.jobs with ⟨_, same, _⟩
  rw [same]
  exact filter_sublist

theorem mem {job : Job} (isIn : job ∈ after.jobs) : job ∈ records.jobs := prunes.sublist.subset isIn

theorem stays {job : Job} (isIn : job ∈ records.jobs)
  (unfinished : job.status.finished = false) : job ∈ after.jobs := by
  rcases prunes.jobs with ⟨_, same, kept⟩
  rw [same]
  exact mem_filter.mpr ⟨isIn, kept job isIn unfinished⟩

theorem nodup (distinct : (records.jobs.map Job.id).Nodup) : (after.jobs.map Job.id).Nodup :=
  distinct.sublist (prunes.sublist.map Job.id)

end

theorem trans (first : Prunes records middle) (second : Prunes middle after) : Prunes records after := by
  rcases first.jobs with ⟨keeps, same, kept⟩
  rcases second.jobs with ⟨keepsLater, sameLater, keptLater⟩
  refine ⟨⟨fun job => keeps job && keepsLater job, ?_, ?_⟩, second.managed.trans first.managed,
    fun jobId isIn => first.cancel jobId (second.cancel jobId isIn)⟩
  · rw [sameLater, same, filter_filter]
    exact filter_congr (fun job _ => Bool.and_comm _ _)
  · intro job isIn unfinished
    dsimp only
    rw [kept job isIn unfinished, keptLater job (first.stays isIn unfinished) unfinished]
    rfl

end Prunes

variable {records : Records}

theorem mem_finished {job : Job} : job ∈ records.finished ↔ job ∈ records.jobs /\ job.status.finished := by
  unfold Records.finished
  rw [mem_descending, mem_filter]

variable {keep clock : ℕ}

theorem of_mem_removes {jobId : ℕ} (removed : jobId ∈ records.removes keep clock) :
  ∃ job index, (job, index) ∈ records.finished.zipIdx /\
    (keep <= index \/ job.outdated clock) /\ job ∈ records.jobs /\ job.status.finished /\ job.id = jobId := by
  rcases mem_map.mp removed with ⟨⟨job, index⟩, isIn, same⟩
  rcases mem_filter.mp isIn with ⟨listed, dropped⟩
  rw [Bool.or_eq_true, decide_eq_true_eq] at dropped
  rcases mem_finished.mp (fst_mem_of_mem_zipIdx listed) with ⟨isJob, isFinished⟩
  exact ⟨job, index, listed, dropped, isJob, isFinished, same⟩

theorem prune_prunes (keep clock : ℕ) (distinct : (records.jobs.map Job.id).Nodup) :
  Prunes records (prune keep clock records) := by
  refine ⟨⟨fun job => !decide (job.id ∈ records.removes keep clock), rfl, ?_⟩, rfl, fun _ isIn => mem_of_mem_filter isIn⟩
  intro _ isIn unfinished
  rw [Bool.not_eq_true', decide_eq_false_iff_not]
  intro removed
  rcases of_mem_removes removed with ⟨_, _, _, _, otherIn, isFinished, same⟩
  rw [Rows.eq_of_key distinct otherIn isIn same, unfinished] at isFinished
  cases isFinished

theorem shrink_prunes (clock fuel keep : ℕ) (distinct : (records.jobs.map Job.id).Nodup) :
  Prunes records (shrink clock fuel keep records) := by
  induction fuel generalizing keep records with
  | zero => exact .refl records
  | succ fuel ih =>
    unfold shrink
    split
    · have once := prune_prunes (keep / 2) clock distinct
      exact once.trans (ih (keep / 2) (once.nodup distinct))
    · exact .refl records

theorem persist_fst (clock : ℕ) (works : Bool) (records : Records) :
  (persist clock works records).1 = shrink clock maxFinishedJobs maxFinishedJobs (prune maxFinishedJobs clock records) := by
  unfold persist
  dsimp only
  split
  · rfl
  · split
    · rfl
    · rfl

theorem persist_prunes (clock : ℕ) (works : Bool) {records : Records} (distinct : (records.jobs.map Job.id).Nodup) :
  Prunes records (persist clock works records).1 := by
  have once := prune_prunes maxFinishedJobs clock distinct
  rw [persist_fst]
  exact once.trans (shrink_prunes clock maxFinishedJobs maxFinishedJobs (once.nodup distinct))

structure Tidy (clock : ℕ) (records : Records) : Prop where
  few : records.finished.length <= maxFinishedJobs
  young : ∀ job ∈ records.jobs, job.status.finished -> job.outdated clock = false
  small : records.payloadSize <= maxStateBytes / 2 \/ records.finished = []

instance (clock : ℕ) (records : Records) : Decidable (Tidy clock records) :=
  decidable_of_iff (records.finished.length <= maxFinishedJobs /\
      (∀ job ∈ records.jobs, job.status.finished -> job.outdated clock = false) /\
      (records.payloadSize <= maxStateBytes / 2 \/ records.finished = []))
    ⟨fun tidy => ⟨tidy.1, tidy.2.1, tidy.2.2⟩, fun tidy => ⟨tidy.few, tidy.young, tidy.small⟩⟩

theorem prune_eq_self (few : records.finished.length <= keep)
  (young : ∀ job ∈ records.jobs, job.status.finished -> job.outdated clock = false) :
  prune keep clock records = records := by
  have nothing : records.removes keep clock = [] := by
    refine eq_nil_iff_forall_not_mem.mpr ?_
    intro _ removed
    rcases of_mem_removes removed with ⟨job, _, listed, _ | old, isIn, isFinished, _⟩
    · have within := snd_lt_of_mem_zipIdx listed
      omega
    · rw [young job isIn isFinished] at old
      cases old
  unfold prune
  rw [nothing, Rows.deleteWhere_eq_self, filter_eq_self.mpr]
  · exact fun _ _ => decide_eq_true not_mem_nil
  · exact fun _ _ chosen => absurd (of_decide_eq_true chosen) not_mem_nil

theorem shrink_eq_self (small : records.payloadSize <= maxStateBytes / 2 \/ records.finished = [])
  (fuel keep : ℕ) : shrink clock fuel keep records = records := by
  induction fuel generalizing keep with
  | zero => rfl
  | succ fuel ih =>
    unfold shrink
    split
    · rename_i goesOn
      have none : records.finished = [] := small.resolve_left (Nat.not_le.mpr goesOn.1)
      rw [prune_eq_self]
      · exact ih (keep / 2)
      · rw [none]
        exact Nat.zero_le _
      · intro _ isIn isFinished
        have listed := mem_finished.mpr ⟨isIn, isFinished⟩
        rw [none] at listed
        exact absurd listed not_mem_nil
    · rfl

theorem Tidy.persist_fst (tidy : Tidy clock records) (works : Bool) :
  (persist clock works records).1 = records := by
  rw [Checkpoints.persist_fst, prune_eq_self tidy.few tidy.young, shrink_eq_self tidy.small]

def Records.unfinished (records : Records) : Records :=
  { records with jobs := records.jobs.filter (!·.status.finished) }

def Records.Fits (records : Records) : Prop := records.unfinished.payloadSize <= maxStateBytes

instance (records : Records) : Decidable records.Fits := inferInstanceAs (Decidable (_ <= _))

theorem objectSize_mono {few many : List (ℕ × ℕ)} (sublist : few.Sublist many) : objectSize few <= objectSize many := by
  have sums : (few.map fun isIn => isIn.1 + isIn.2 + 1).sum <= (many.map fun isIn => isIn.1 + isIn.2 + 1).sum :=
    (sublist.map _).sum_le_sum (fun _ _ => Nat.zero_le _)
  have lengths := sublist.length_le
  unfold objectSize
  omega

theorem payloadSize_mono {few many : Records} (jobs : few.jobs.Sublist many.jobs) (managed : few.managed = many.managed) :
  few.payloadSize <= many.payloadSize := by
  have smaller := objectSize_mono (jobs.map fun job => (idSize, job.jsonSize))
  unfold Records.payloadSize fieldsSize
  rw [managed]
  unfold objectSize at smaller ⊢
  simp only [map_cons, sum_cons, length_cons]
  omega

theorem Prunes.unfinished {after : Records} (prunes : Prunes records after) :
  after.unfinished.jobs = records.unfinished.jobs /\ after.unfinished.managed = records.unfinished.managed := by
  refine ⟨?_, prunes.managed⟩
  rcases prunes.jobs with ⟨_, same, kept⟩
  unfold Records.unfinished
  rw [same, filter_filter]
  apply filter_congr
  intro job isIn
  cases isOver : job.status.finished with
  | true => rfl
  | false =>
    rw [kept job isIn isOver]
    rfl

theorem prune_zero (clock : ℕ) (records : Records) : (prune 0 clock records).finished = [] := by
  refine eq_nil_iff_forall_not_mem.mpr ?_
  intro job listed
  rcases mem_finished.mp listed with ⟨stayed, isFinished⟩
  rcases Rows.mem_deleteWhere.mp stayed with ⟨isIn, unchosen⟩
  rcases mem_iff_getElem.mp (mem_finished.mpr ⟨isIn, isFinished⟩) with ⟨index, bound, same⟩
  refine unchosen (decide_eq_true (mem_map.mpr ⟨(job, index), mem_filter.mpr ⟨?_, ?_⟩, rfl⟩))
  · refine mk_mem_zipIdx_iff_getElem?.mpr ?_
    rw [getElem?_eq_getElem bound, same]
  · rw [decide_eq_true (Nat.zero_le _)]
    rfl

theorem shrink_ends {fuel keep : ℕ} {records : Records} (enough : keep <= fuel)
  (last : keep = 0 -> records.finished = []) :
  (shrink clock fuel keep records).payloadSize <= maxStateBytes / 2 \/ (shrink clock fuel keep records).finished = [] := by
  induction fuel generalizing keep records with
  | zero => exact .inr (last (Nat.le_zero.mp enough))
  | succ fuel ih =>
    unfold shrink
    split
    · refine ih (by omega) ?_
      intro half
      rw [half]
      exact prune_zero clock records
    · rename_i stops
      rcases Nat.eq_zero_or_pos keep with none | some
      · exact .inr (last none)
      · exact .inl (Nat.not_lt.mp fun large => stops ⟨large, some⟩)

theorem persist_tooLarge_iff {works : Bool} {records : Records} (distinct : (records.jobs.map Job.id).Nodup) :
  (persist clock works records).2 = some .tooLarge ↔ ¬ records.Fits := by
  have once := prune_prunes maxFinishedJobs clock distinct
  have prunes := persist_prunes clock works distinct
  have ends := @shrink_ends clock maxFinishedJobs maxFinishedJobs (prune maxFinishedJobs clock records) le_rfl
    (fun none => absurd none (by decide))
  rw [persist_fst] at prunes
  have refused : (persist clock works records).2 = some .tooLarge ↔
      maxStateBytes < (shrink clock maxFinishedJobs maxFinishedJobs (prune maxFinishedJobs clock records)).payloadSize := by
    unfold persist
    dsimp only
    split
    · rename_i large
      exact ⟨fun _ => large, fun _ => rfl⟩
    · rename_i small
      refine ⟨fun same => ?_, fun large => absurd large small⟩
      split at same
      · cases same
      · cases same
  rw [refused]
  generalize shrink clock maxFinishedJobs maxFinishedJobs (prune maxFinishedJobs clock records) = kept at prunes ends
  have same : kept.unfinished.payloadSize = records.unfinished.payloadSize :=
    le_antisymm (payloadSize_mono (prunes.unfinished.1 ▸ List.Sublist.refl _) prunes.unfinished.2)
      (payloadSize_mono (prunes.unfinished.1 ▸ List.Sublist.refl _) prunes.unfinished.2.symm)
  unfold Records.Fits
  rw [<- same, Nat.not_le]
  constructor
  · intro large
    rcases ends with _ | none
    · have half : maxStateBytes / 2 <= maxStateBytes := Nat.div_le_self _ _
      omega
    · have whole : kept.unfinished.jobs = kept.jobs := by
        refine filter_eq_self.mpr ?_
        intro job isIn
        cases isOver : job.status.finished with
        | false => rfl
        | true =>
          have listed := mem_finished.mpr ⟨isIn, isOver⟩
          rw [none] at listed
          exact absurd listed not_mem_nil
      exact lt_of_lt_of_le large (payloadSize_mono (whole ▸ List.Sublist.refl _) rfl)
  · intro large
    exact lt_of_lt_of_le large (payloadSize_mono filter_sublist rfl)

theorem persist_saved_iff {works : Bool} {records : Records} (distinct : (records.jobs.map Job.id).Nodup) :
  (persist clock works records).2 = none ↔ works /\ records.Fits := by
  have refused := @persist_tooLarge_iff clock works records distinct
  unfold persist at refused ⊢
  dsimp only at refused ⊢
  split
  · rename_i large
    rw [if_pos large] at refused
    exact ⟨(fun same => nomatch same), fun both => absurd both.2 (refused.mp rfl)⟩
  · rename_i small
    rw [if_neg small] at refused
    split
    · rename_i written
      rw [if_pos written] at refused
      refine ⟨fun _ => ⟨written, ?_⟩, fun _ => rfl⟩
      by_contra unfit
      exact nomatch refused.mpr unfit
    · rename_i unwritten
      exact ⟨(fun same => nomatch same), fun both => absurd both.1 unwritten⟩

end BananaChat.Checkpoints

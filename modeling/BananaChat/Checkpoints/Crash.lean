import BananaChat.Checkpoints.Agent

namespace BananaChat.Checkpoints

open List Nat

/-!
# Downloads that are killed

A run of a job is the list of what it does to the disk, one step of the file system or one save
after the other; it depends on the disk as the job found it and on the hub.
-/

abbrev Bytes := List UInt8

/-- What does not change from one process to the next: the limits, the SHA-256 of a file and
the check of its safetensors header. -/
structure Site where
  maxDownloadBytes : ℕ
  diskReserveBytes : ℕ
  sha256 : Bytes -> String
  validateSafetensors : Bytes -> Option Failure

/-- A file of the hub: how its request is answered, and what reading gives until the first
empty piece, or until an error. -/
structure Hub where
  opens : Except Failure (Option ℕ)
  chunks : List Bytes
  ends : Option Failure
  nonempty : [] ∉ chunks

def Hub.content (hub : Hub) : Bytes := hub.chunks.flatten

/-- The target and the temporary file of a job, how many of the target's directories are
there, and the job and the managed files of `state.json`. -/
structure Disk where
  directories : ℕ
  target : Option Bytes
  temporary : Option Bytes
  job : Job
  managed : List Managed

inductive Step
  | save (job : Job) (managed : List Managed)
  | makeDirectory (depth : ℕ)
  | unlink
  | create
  | write (chunk : Bytes)
  | sync
  | link

def Step.apply (disk : Disk) : Step -> Disk
  | .save job managed => { disk with job, managed }
  | .makeDirectory depth => { disk with directories := max disk.directories depth }
  | .unlink => { disk with temporary := none }
  | .create => { disk with temporary := some [] }
  | .write chunk => { disk with temporary := disk.temporary.map (· ++ chunk) }
  | .sync => disk
  | .link => { disk with target := disk.target.or disk.temporary }

def carryOut (steps : List Step) (disk : Disk) : Disk := steps.foldl Step.apply disk

def targetExists : Failure := { code := "target_exists", message := "target checkpoint already exists" }

def sourceTooLarge : Failure := { code := "source_too_large", message := "checkpoint exceeds the configured size limit" }

def sizeMismatch : Failure := { code := "size_mismatch", message := "checkpoint size does not match" }

def hashMismatch : Failure := { code := "hash_mismatch", message := "checkpoint digest does not match" }

def insufficientStorage : Failure := { code := "insufficient_storage", message := "disk reserve would be exceeded" }

def headerProblem (site : Site) (request : Request) : Option ℕ -> Option Failure
  | none => none
  | some length =>
    if site.maxDownloadBytes < length then some sourceTooLarge
    else if request.expectedSize.isSome /\ request.expectedSize ≠ some length then some sizeMismatch
    else none

def contentProblem (site : Site) (request : Request) (content : Bytes) : Option Failure :=
  if request.expectedSize.isSome /\ request.expectedSize ≠ some content.length then some sizeMismatch
  else if site.sha256 content ≠ request.expectedSha256 then some hashMismatch
  else site.validateSafetensors content

/-- The loop over the pieces; `available` is what the file system has free at each of them. -/
def receive (site : Site) (available : ℕ -> ℕ) (ends : Option Failure) : List Bytes -> ℕ -> ℕ -> List Step × Option Failure
  | [], _, _ => ([], ends)
  | chunk :: rest, index, total =>
    if site.maxDownloadBytes < total + chunk.length then ([], some sourceTooLarge)
    else if available index < site.diskReserveBytes + chunk.length then ([], some insufficientStorage)
    else
      let later := receive site available ends rest (index + 1) (total + chunk.length)
      (.write chunk :: later.1, later.2)

def makeDirectories (request : Request) : List Step :=
  (range (request.targetName.toList.count '/')).map (fun depth => .makeDirectory (depth + 1))

/-- `_download`, with what it returns or raises.  The last `unlink` of each list is that of
the `finally` clause. -/
def download (site : Site) (available : ℕ -> ℕ) (hub : Hub) (request : Request) (target : Option Bytes) :
  List Step × Except Failure Bytes :=
  if target.isSome then (makeDirectories request ++ [.unlink], .error targetExists)
  else
    match hub.opens with
    | .error failure => (makeDirectories request ++ [.unlink, .create, .unlink], .error failure)
    | .ok contentLength =>
      match headerProblem site request contentLength with
      | some failure => (makeDirectories request ++ [.unlink, .create, .unlink], .error failure)
      | none =>
        let received := receive site available hub.ends hub.chunks 0 0
        match received.2 with
        | some failure => (makeDirectories request ++ [.unlink, .create] ++ received.1 ++ [.unlink], .error failure)
        | none =>
          match contentProblem site request hub.content with
          | some failure =>
            (makeDirectories request ++ [.unlink, .create] ++ received.1 ++ [.sync, .unlink], .error failure)
          | none =>
            (makeDirectories request ++ [.unlink, .create] ++ received.1 ++ [.sync, .link, .unlink, .sync, .unlink],
              .ok hub.content)

def received (steps : List Step) : ℕ :=
  (steps.map (fun step => match step with
    | .write chunk => chunk.length
    | _ => 0)).sum

def Job.progressed (steps : List Step) (job : Job) : Job :=
  { job with bytesReceived := if received steps = 0 then job.bytesReceived else received steps }

/-- The outcome that `_run_job` saves. -/
def outcome (site : Site) (clock : ℕ) (job : Job) (managed : List Managed) : Except Failure Bytes -> Step
  | .ok content =>
    let item := { name := job.request.targetName, digest := site.sha256 content, size := content.length,
                  installedAt := stamp clock, jobId := job.id }
    .save (job.done (site.sha256 content) content.length clock)
      (managed.filter (fun other => decide (other.name ≠ item.name)) ++ [item])
  | .error failure => .save (job.ended .failed failure.code failure.message clock) managed

/-- What the worker reads while it runs a job: its clock at the start and at the end, and
what the file system has free. -/
structure Attempt where
  begins : ℕ
  ends : ℕ
  available : ℕ -> ℕ

section

variable (site : Site) (hub : Hub) (attempt : Attempt) (disk : Disk)

/-- All steps of `_run_job`. -/
def runJob : List Step :=
  let job := disk.job.begun attempt.begins
  let downloaded := download site attempt.available hub job.request disk.target
  .save job disk.managed :: downloaded.1 ++
    [outcome site attempt.ends (job.progressed downloaded.1) disk.managed downloaded.2]

def killed (steps : ℕ) : Disk := carryOut ((runJob site hub attempt disk).take steps) disk

end

/-- What `_load_state` makes of a job, and saves. -/
def loadState (clock : ℕ) (disk : Disk) : Disk :=
  if disk.job.status.finished then disk else { disk with job := disk.job.requeued clock }

def restart (site : Site) (hub : Hub) (clock : ℕ) (attempt : Attempt) (disk : Disk) : Disk :=
  let loaded := loadState clock disk
  if loaded.job.status = .queued then carryOut (runJob site hub attempt loaded) loaded else loaded

def Step.saves : Step -> Bool
  | .save _ _ => true
  | _ => false

def Step.links : Step -> Bool
  | .link => true
  | _ => false

theorem carryOut_append (first second : List Step) (disk : Disk) :
  carryOut (first ++ second) disk = carryOut second (carryOut first disk) :=
  foldl_append

theorem carryOut_cons (step : Step) (rest : List Step) (disk : Disk) :
    carryOut (step :: rest) disk = carryOut rest (step.apply disk) := rfl

theorem carryOut_unsaved {steps : List Step} (unsaved : ∀ step ∈ steps, step.saves = false) (disk : Disk) :
  (carryOut steps disk).job = disk.job /\ (carryOut steps disk).managed = disk.managed := by
  induction steps generalizing disk with
  | nil => exact ⟨rfl, rfl⟩
  | cons step rest ih =>
    have later := ih (fun other mem => unsaved other (.tail _ mem)) (step.apply disk)
    have first := unsaved step mem_cons_self
    rw [carryOut_cons, later.1, later.2]
    cases step with
    | save job managed => cases first
    | _ => exact ⟨rfl, rfl⟩

theorem carryOut_unlinked {steps : List Step} (unlinked : ∀ step ∈ steps, step.links = false) (disk : Disk) :
  (carryOut steps disk).target = disk.target := by
  induction steps generalizing disk with
  | nil => rfl
  | cons step rest ih =>
    have later := ih (fun other mem => unlinked other (.tail _ mem)) (step.apply disk)
    have first := unlinked step mem_cons_self
    rw [carryOut_cons, later]
    cases step with
    | link => cases first
    | _ => rfl

theorem carryOut_target {disk : Disk} (exists' : disk.target.isSome) (steps : List Step) :
  (carryOut steps disk).target.isSome := by
  induction steps generalizing disk with
  | nil => exact exists'
  | cons step rest ih =>
    refine ih ?_
    cases step with
    | link =>
      change (disk.target.or disk.temporary).isSome
      rw [Option.isSome_or, exists']
      rfl
    | _ => exact exists'

theorem carryOut_writes (chunks : List Bytes) {disk : Disk} {content : Bytes} (begun : disk.temporary = some content) :
  carryOut (chunks.map Step.write) disk = { disk with temporary := some (content ++ chunks.flatten) } := by
  induction chunks generalizing disk content with
  | nil =>
    rw [flatten_nil, append_nil, <- begun]
    rfl
  | cons chunk rest ih =>
    have more : (Step.apply disk (.write chunk)).temporary = some (content ++ chunk) := by
      change disk.temporary.map (· ++ chunk) = _
      rw [begun]
      rfl
    rw [map_cons, carryOut_cons, ih more, flatten_cons, append_assoc]
    rfl

section

variable (site : Site) (available : ℕ -> ℕ) (ends : Option Failure) (chunks : List Bytes)
include site available ends chunks

theorem receive_writes (index total : ℕ) :
  (∃ few : List Bytes, (receive site available ends chunks index total).1 = few.map Step.write) /\
    ((receive site available ends chunks index total).2 = none ->
      (receive site available ends chunks index total).1 = chunks.map Step.write) := by
  induction chunks generalizing index total with
  | nil => exact ⟨⟨[], rfl⟩, fun _ => rfl⟩
  | cons chunk rest ih =>
    unfold receive
    split
    · exact ⟨⟨[], rfl⟩, fun none => nomatch none⟩
    · split
      · exact ⟨⟨[], rfl⟩, fun none => nomatch none⟩
      · rcases ih (index + 1) (total + chunk.length) with ⟨⟨few, written⟩, whole⟩
        refine ⟨⟨chunk :: few, congrArg (Step.write chunk :: ·) written⟩, ?_⟩
        exact fun none => congrArg (Step.write chunk :: ·) (whole none)

theorem receive_none_iff (index total : ℕ) (within : total <= site.maxDownloadBytes) :
  (receive site available ends chunks index total).2 = none ↔
    ends = none /\ total + chunks.flatten.length <= site.maxDownloadBytes /\
      ∀ place (bound : place < chunks.length), site.diskReserveBytes + chunks[place].length <= available (index + place) := by
  induction chunks generalizing index total with
  | nil =>
    constructor
    · exact fun none => ⟨none, within, fun place bound => absurd bound (not_lt_zero place)⟩
    · exact fun served => served.1
  | cons chunk rest ih =>
    unfold receive
    rw [flatten_cons, length_append]
    by_cases large : site.maxDownloadBytes < total + chunk.length
    · rw [if_pos large]
      constructor
      · exact fun none => nomatch none
      · rintro ⟨_, _, _⟩
        omega
    · rw [if_neg large]
      by_cases full : available index < site.diskReserveBytes + chunk.length
      · rw [if_pos full]
        constructor
        · exact fun none => nomatch none
        · rintro ⟨_, _, room⟩
          have first : site.diskReserveBytes + chunk.length <= available (index + 0) := room 0 (succ_pos _)
          exact absurd full (not_lt.mpr first)
      · rw [if_neg full]
        refine (ih (index + 1) (total + chunk.length) (not_lt.mp large)).trans ?_
        refine and_congr Iff.rfl (and_congr (by rw [add_assoc]) ?_)
        constructor
        · intro room place bound
          cases place with
          | zero => exact not_lt.mp full
          | succ place =>
            have later := room place (lt_of_succ_lt_succ bound)
            rw [add_assoc, add_comm 1] at later
            exact later
        · intro room place bound
          have later := room (place + 1) (succ_lt_succ bound)
          rw [<- add_assoc, add_right_comm] at later
          exact later

end

structure Serves (site : Site) (hub : Hub) (available : ℕ -> ℕ) (request : Request) : Prop where
  opens : ∃ contentLength, hub.opens = .ok contentLength /\ headerProblem site request contentLength = none
  ends : hub.ends = none
  within : hub.content.length <= site.maxDownloadBytes
  room : ∀ place (bound : place < hub.chunks.length), site.diskReserveBytes + hub.chunks[place].length <= available place
  expected : contentProblem site request hub.content = none

theorem receive_of_hub (site : Site) (hub : Hub) (available : ℕ -> ℕ) :
  (receive site available hub.ends hub.chunks 0 0).2 = none ↔ hub.ends = none /\ hub.content.length <= site.maxDownloadBytes /\
    ∀ place (bound : place < hub.chunks.length), site.diskReserveBytes + hub.chunks[place].length <= available place := by
  have spec := receive_none_iff site available hub.ends hub.chunks 0 0 (zero_le _)
  simp only [zero_add] at spec
  exact spec

def beforeLink (hub : Hub) (request : Request) : List Step :=
  makeDirectories request ++ [.unlink, .create] ++ hub.chunks.map .write ++ [.sync]

def fromLink : List Step := [.link, .unlink, .sync, .unlink]

def Quiet (steps : List Step) : Prop := ∀ step ∈ steps, step.links = false /\ step.saves = false

namespace Quiet

theorem nil : Quiet [] := forall_mem_nil _

theorem cons {step : Step} {rest : List Step} (first : step.links = false /\ step.saves = false) (quiet : Quiet rest) :
  Quiet (step :: rest) := by
  intro other mem
  rcases mem_cons.mp mem with rfl | later
  · exact first
  · exact quiet other later

theorem append {first second : List Step} (quiet : Quiet first) (later : Quiet second) : Quiet (first ++ second) :=
  fun step mem => (mem_append.mp mem).elim (quiet step) (later step)

theorem directories (request : Request) : Quiet (makeDirectories request) := by
  intro _ mem
  rcases mem_map.mp mem with ⟨_, _, rfl⟩
  exact ⟨rfl, rfl⟩

theorem writes (chunks : List Bytes) : Quiet (chunks.map Step.write) := by
  intro _ mem
  rcases mem_map.mp mem with ⟨_, _, rfl⟩
  exact ⟨rfl, rfl⟩

theorem unlink : Quiet [.unlink] := cons ⟨rfl, rfl⟩ nil

theorem prepared (request : Request) : Quiet (makeDirectories request ++ [.unlink, .create]) :=
  (directories request).append (cons ⟨rfl, rfl⟩ (cons ⟨rfl, rfl⟩ nil))

theorem beforeLink (hub : Hub) (request : Request) : Quiet (beforeLink hub request) :=
  ((prepared request).append (writes hub.chunks)).append (cons ⟨rfl, rfl⟩ nil)

end Quiet

theorem download_cases (site : Site) (available : ℕ -> ℕ) (hub : Hub) (request : Request) (target : Option Bytes) :
  (target = none /\ Serves site hub available request /\
    download site available hub request target = (beforeLink hub request ++ fromLink, .ok hub.content)) \/
  (¬ (target = none /\ Serves site hub available request) /\
    (∃ failure, (download site available hub request target).2 = .error failure) /\
    Quiet (download site available hub request target).1) := by
  have received := receive_writes site available hub.ends hub.chunks 0 0
  have refused : Quiet (makeDirectories request ++ [.unlink, .create, .unlink]) :=
    (Quiet.directories request).append (.cons ⟨rfl, rfl⟩ (.cons ⟨rfl, rfl⟩ .unlink))
  unfold download
  cases target with
  | some content =>
    refine .inr ⟨(fun both => nomatch both.1), ⟨targetExists, rfl⟩, ?_⟩
    exact (Quiet.directories request).append .unlink
  | none =>
    cases opened : hub.opens with
    | error failure =>
      refine .inr ⟨?_, ⟨failure, rfl⟩, refused⟩
      rintro ⟨_, serves⟩
      rcases serves.opens with ⟨contentLength, same, _⟩
      rw [opened] at same
      cases same
    | ok contentLength =>
      dsimp only
      cases header : headerProblem site request contentLength with
      | some failure =>
        refine .inr ⟨?_, ⟨failure, rfl⟩, refused⟩
        rintro ⟨_, serves⟩
        rcases serves.opens with ⟨_, same, fine⟩
        rw [opened] at same
        cases same
        rw [header] at fine
        cases fine
      | none =>
        cases loop : (receive site available hub.ends hub.chunks 0 0).2 with
        | some failure =>
          rcases received.1 with ⟨few, written⟩
          refine .inr ⟨?_, ⟨failure, rfl⟩, ?_⟩
          · rintro ⟨_, serves⟩
            have none := (receive_of_hub site hub available).mpr ⟨serves.ends, serves.within, serves.room⟩
            rw [loop] at none
            cases none
          · rw [written]
            exact ((Quiet.prepared request).append (.writes few)).append .unlink
        | none =>
          rw [received.2 loop]
          cases content : contentProblem site request hub.content with
          | some failure =>
            refine .inr ⟨?_, ⟨failure, rfl⟩, ?_⟩
            · rintro ⟨_, serves⟩
              have fine := serves.expected
              rw [content] at fine
              cases fine
            · exact ((Quiet.prepared request).append (.writes hub.chunks)).append (.cons ⟨rfl, rfl⟩ .unlink)
          | none =>
            rcases (receive_of_hub site hub available).mp loop with ⟨ends, within, room⟩
            refine .inl ⟨rfl, ⟨⟨contentLength, opened, header⟩, ends, within, room, content⟩, ?_⟩
            unfold beforeLink fromLink
            rw [append_assoc _ [Step.sync]]
            rfl

theorem beforeLink_disk (hub : Hub) (request : Request) (disk : Disk) :
  (carryOut (beforeLink hub request) disk).temporary = some hub.content := by
  unfold beforeLink
  rw [carryOut_append, carryOut_append, carryOut_append]
  have created : (carryOut [.unlink, .create] (carryOut (makeDirectories request) disk)).temporary = some [] := rfl
  have written := carryOut_writes hub.chunks created
  rw [written]
  rfl

theorem served_disk {hub : Hub} {request : Request} {disk : Disk} (absent : disk.target = none) :
  (carryOut (beforeLink hub request ++ fromLink) disk).target = some hub.content /\
    (carryOut (beforeLink hub request ++ fromLink) disk).temporary = none := by
  have temporary := beforeLink_disk hub request disk
  have target := carryOut_unlinked (fun step mem => (Quiet.beforeLink hub request step mem).1) disk
  rw [carryOut_append]
  refine ⟨?_, rfl⟩
  change (carryOut (beforeLink hub request) disk).target.or (carryOut (beforeLink hub request) disk).temporary = _
  rw [target, absent, temporary]
  rfl

/-- The job is completed, its target is the expected file and managed, and no temporary
file is left. -/
structure Recovered (site : Site) (request : Request) (disk : Disk) : Prop where
  completed : disk.job.status = .completed
  installed : ∃ content, disk.target = some content /\ site.sha256 content = request.expectedSha256
  managed : ∃ item ∈ disk.managed, item.name = request.targetName /\ item.digest = request.expectedSha256 /\
    item.jobId = disk.job.id
  clean : disk.temporary = none

variable {request : Request}

theorem digest_of_expected {site : Site} {content : Bytes}
  (expected : contentProblem site request content = none) : site.sha256 content = request.expectedSha256 := by
  unfold contentProblem at expected
  split at expected
  · cases expected
  · split at expected
    · cases expected
    · rename_i same
      exact not_not.mp same

variable {clock : ℕ} {job : Job} {managed : List Managed}

theorem recorded {site : Site} {content : Bytes} {disk : Disk}
  (same : job.request = request) (target : disk.target = some content) (clean : disk.temporary = none)
  (digest : site.sha256 content = request.expectedSha256) :
  Recovered site request (carryOut [outcome site clock job managed (.ok content)] disk) where
  completed := rfl
  installed := ⟨content, target, digest⟩
  managed := by
    refine ⟨_, mem_concat_self, congrArg Request.targetName same, digest, rfl⟩
  clean := clean

theorem not_recorded {site : Site} {failure : Failure}
  {disk : Disk} : ¬ Recovered site request (carryOut [outcome site clock job managed (.error failure)] disk) :=
  fun recovered => nomatch recovered.completed

theorem runJob_recovers_iff (site : Site) (hub : Hub) (attempt : Attempt) (disk : Disk) :
  Recovered site disk.job.request (carryOut (runJob site hub attempt disk) disk) ↔
    disk.target = none /\ Serves site hub attempt.available disk.job.request := by
  unfold runJob
  rw [cons_append, carryOut_cons, carryOut_append]
  have request : (disk.job.begun attempt.begins).request = disk.job.request := rfl
  rw [request]
  rcases download_cases site attempt.available hub disk.job.request disk.target with
    ⟨absent, serves, same⟩ | ⟨fails, ⟨failure, same⟩, _⟩
  · rw [same]
    refine ⟨fun _ => ⟨absent, serves⟩, fun _ => ?_⟩
    have ends := @served_disk hub disk.job.request (Step.apply disk (.save (disk.job.begun attempt.begins) disk.managed)) absent
    exact recorded rfl ends.1 ends.2 (digest_of_expected serves.expected)
  · rw [same]
    exact ⟨fun recovered => absurd recovered not_recorded, fun serves => absurd serves fails⟩

section Killed

variable {site : Site} {hub : Hub} {attempt : Attempt} {disk : Disk} {steps : ℕ}

def beforeOutcome (site : Site) (hub : Hub) (attempt : Attempt) (disk : Disk) : List Step :=
  .save (disk.job.begun attempt.begins) disk.managed ::
    (download site attempt.available hub disk.job.request disk.target).1

theorem take_runJob (early : steps < (runJob site hub attempt disk).length) :
  (runJob site hub attempt disk).take steps = (beforeOutcome site hub attempt disk).take steps := by
  have whole : ∃ last, runJob site hub attempt disk = beforeOutcome site hub attempt disk ++ [last] := ⟨_, rfl⟩
  rcases whole with ⟨_, whole⟩
  rw [whole] at early ⊢
  rw [length_append, length_singleton] at early
  exact take_append_of_le_length (le_of_lt_succ early)

theorem download_unsaved (site : Site) (available : ℕ -> ℕ) (hub : Hub) (request : Request) (target : Option Bytes) {step : Step}
  (mem : step ∈ (download site available hub request target).1) : step.saves = false := by
  rcases download_cases site available hub request target with ⟨_, _, same⟩ | ⟨_, _, quiet⟩
  · rw [same] at mem
    rcases mem_append.mp mem with before | after
    · exact (Quiet.beforeLink hub request step before).2
    · unfold fromLink at after
      simp only [mem_cons, not_mem_nil, or_false] at after
      rcases after with rfl | rfl | rfl | rfl <;> rfl
  · exact (quiet step mem).2

theorem killed_job (early : steps < (runJob site hub attempt disk).length) :
  (killed site hub attempt disk steps).job = disk.job \/ (killed site hub attempt disk steps).job = disk.job.begun attempt.begins := by
  unfold killed
  rw [take_runJob early]
  cases steps with
  | zero => exact .inl rfl
  | succ more =>
    unfold beforeOutcome
    have unsaved : ∀ step ∈ (download site attempt.available hub disk.job.request disk.target).1.take more,
        step.saves = false :=
      fun step mem => download_unsaved site attempt.available hub disk.job.request disk.target (mem_of_mem_take mem)
    exact .inr (carryOut_unsaved unsaved _).1

theorem killed_target_iff (early : steps < (runJob site hub attempt disk).length) :
  (killed site hub attempt disk steps).target = none ↔
    disk.target = none /\ Step.link ∉ (runJob site hub attempt disk).take steps := by
  unfold killed
  constructor
  · intro none
    refine ⟨?_, ?_⟩
    · by_contra there
      have stays := carryOut_target (Option.isSome_iff_ne_none.mpr there) ((runJob site hub attempt disk).take steps)
      rw [none] at stays
      cases stays
    · intro linked
      rw [take_runJob early] at linked none
      rcases download_cases site attempt.available hub disk.job.request disk.target with ⟨_, _, same⟩ | ⟨_, _, quiet⟩
      · let first := Step.save (disk.job.begun attempt.begins) disk.managed :: beforeLink hub disk.job.request
        have split : beforeOutcome site hub attempt disk = first ++ fromLink := by
          unfold beforeOutcome
          rw [same]
          rfl
        have unlinked : Step.link ∉ first := by
          intro mem
          rcases mem_cons.mp mem with isSave | before
          · cases isSave
          · cases (Quiet.beforeLink hub disk.job.request _ before).1
        rw [split, take_append] at linked none
        rcases mem_append.mp linked with before | after
        · exact unlinked (mem_of_mem_take before)
        · cases further : steps - first.length with
          | zero =>
            rw [further] at after
            cases after
          | succ more =>
            have whole : first.take steps = first := take_of_length_le (by omega)
            rw [further, whole, carryOut_append] at none
            unfold fromLink at none
            rw [take_succ_cons, carryOut_cons] at none
            have there : (Step.apply (carryOut first disk) .link).target.isSome := by
              have temporary := beforeLink_disk hub disk.job.request
                (Step.apply disk (.save (disk.job.begun attempt.begins) disk.managed))
              change ((carryOut first disk).target.or (carryOut first disk).temporary).isSome
              rw [Option.isSome_or]
              change (_ || (carryOut (beforeLink hub disk.job.request) _).temporary.isSome)
              rw [temporary]
              exact Bool.or_true _
            have stays := carryOut_target there (take more [.unlink, .sync, .unlink])
            rw [none] at stays
            cases stays
      · rcases mem_cons.mp (mem_of_mem_take linked) with isSave | inDownload
        · cases isSave
        · cases (quiet _ inDownload).1
  · rintro ⟨absent, unlinked⟩
    rw [carryOut_unlinked, absent]
    intro step mem
    cases step with
    | link => exact absurd mem unlinked
    | _ => rfl

end Killed

namespace OneFile

def content : Bytes := [2, 0, 0, 0, 0, 0, 0, 0, 123, 125]

def digest : String := "411a485216e432ece6b9af94fa32154cf79a2a56d4f81266baa50063f45092bd"

def site : Site where
  maxDownloadBytes := 100 * 1024 ^ 3
  diskReserveBytes := 5 * 1024 ^ 3
  sha256 := fun bytes => if bytes = content then digest else ""
  validateSafetensors := fun bytes =>
    if bytes = content then none
    else some { code := "invalid_safetensors", message := "checkpoint has an invalid safetensors header" }

def hub : Hub where
  opens := .ok (some 10)
  chunks := [content]
  ends := none
  nonempty := by decide

def attempt : Attempt where
  begins := 8000000
  ends := 9000000
  available := fun _ => 6 * 1024 ^ 3

def disk : Disk where
  directories := 0
  target := none
  temporary := none
  job :=
    { id := 1,
      request :=
        { source := { repoId := "a/b", filename := "a.safetensors", revision := "main" },
          targetName := "a.safetensors", expectedSha256 := digest, expectedSize := none, idempotencyKey := "a" },
      requestFingerprint := "3d13659d3c932e07e45425b32bad263009c0de6de172066e15428dab3a571b63",
      status := .queued, bytesReceived := 0, digest := none, size := none, createdAt := 5, updatedAt := 5, error := none }
  managed := []

theorem serves : Serves site hub attempt.available disk.job.request where
  opens := ⟨some 10, rfl, rfl⟩
  ends := rfl
  within := by decide
  room := by
    intro place bound
    have enough : site.diskReserveBytes + content.length <= attempt.available 0 := by decide
    obtain rfl : place = 0 := lt_one_iff.mp bound
    exact enough
  expected := by decide

end OneFile

end BananaChat.Checkpoints

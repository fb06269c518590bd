import BananaChat.Agents.AnsweredOnce
import BananaChat.Agents.SandboxRows
import BananaChat.Foundation.Numbered

namespace BananaChat.Agents

open Foundation List Prod Rows Numbered TaskStore

/-!
# A workspace in use is not deleted

A cleaner deletes a sandbox that it chose in an earlier step, without looking at the task again.
-/

def Job.token : Job -> Option ℕ
  | .run _ token _ => some token
  | _ => none

def Job.holds : Job -> Option ℕ
  | .run _ _ (.created sandboxId) | .run _ _ (.dropping sandboxId) => some sandboxId
  | .reclaiming _ sandboxId | .checking _ sandboxId | .givingBack _ sandboxId => some sandboxId
  | _ => none

def Job.waits (taskId : ℕ) : Job -> Bool
  | .run task _ (.removing _) => task = taskId
  | .reaping rows => rows.any (·.1 = taskId)
  | .reaped _ _ rows => rows.any (·.1 = taskId)
  | .leftovers tasks => taskId ∈ tasks
  | .stopping task _ tasks => task = taskId \/ taskId ∈ tasks
  | .expiring _ _ tasks => taskId ∈ tasks
  | _ => false

def Job.sweeps (sandboxId : ℕ) : Job -> Bool
  | .sweeping sandboxes => sandboxId ∈ sandboxes
  | .swept _ rest => sandboxId ∈ rest
  | _ => false

namespace YardState

variable (state : YardState)

def Sweepable (sandboxId : ℕ) : Prop := ∀ box ∈ state.yard.boxes, box.id = sandboxId -> state.yard.sweepable box

def NobodySweeps (sandboxId : ℕ) : Prop := ∀ job ∈ state.jobs, job.sweeps sandboxId = false

def OrderlyRun (taskId token : ℕ) : RunPlace -> RunStep -> Prop
  | .created sandboxId, .keep => state.NobodySweeps sandboxId
  | .dropping sandboxId, .drop answer => answer = .failed \/ answer = .notFound -> state.Sweepable sandboxId
  | .working _, .exec removed => removed = true -> state.yard.store.owns taskId token
  | .working _, .interrupt answer => answer ≠ .ok -> state.yard.store.owns taskId token
  | _, _ => True

def OrderlyReturn : Job -> Prop
  | .givingBack taskId sandboxId => state.NobodySweeps sandboxId /\
      ((∃ row ∈ state.yard.store.tasks, row.id = taskId /\ row.sandboxId = none /\ row.ownerToken = none) \/
        state.Sweepable sandboxId)
  | _ => True

/-- Nobody takes over a task whose sandbox was chosen, names a sandbox that is swept, has the runner remove the sandbox of a
lost lease, or leaves a young sandbox behind. -/
def Orderly : YardAction -> Prop
  | .resume taskId _ _ _ _ _ => ∀ job ∈ state.jobs, job.waits taskId = false
  | .run index step => ∀ taskId token place, state.jobs[index]? = some (.run taskId token place) ->
      state.OrderlyRun taskId token place step
  | .clean index _ => ∀ job, state.jobs[index]? = some job -> state.OrderlyReturn job
  | _ => True

end YardState

def yardMachine : Machine YardState YardAction where
  initial := fun state => state = .start
  enabled := YardState.Enabled
  next := YardState.next

def orderlyYard : Machine YardState YardAction where
  initial := fun state => state = .start
  enabled := fun state action => state.Enabled action /\ state.Orderly action
  next := YardState.next

structure YardKept (yard : Yard) : Prop where
  ids : (yard.store.tasks.map TaskRow.id).Nodup
  used : ∀ row ∈ yard.store.tasks, row.id ∈ yard.used
  leases : ∀ lease ∈ yard.issued, lease.1 ∈ yard.used
  boxes : ∀ box ∈ yard.boxes, box.id ∈ yard.made.map fst
  sessions : ∀ pair ∈ yard.made, pair.2 ∈ yard.used
  keys : (yard.made.map fst).Nodup
  /-- Only the task for which a sandbox was made names it. -/
  names : ∀ row ∈ yard.store.tasks, ∀ own, row.sandboxId = some own -> (own, row.id) ∈ yard.made
  worked : ∀ row ∈ yard.store.tasks, ∀ own, row.sandboxId = some own -> yard.WorkedAfter row.id own
  created : ∀ box ∈ yard.boxes, box.created <= yard.clock

def PlaceKept (yard : Yard) (taskId token : ℕ) : RunPlace -> Prop
  | .naming own | .starting own | .working own =>
    (∀ sandboxId, own = some sandboxId -> (sandboxId, taskId) ∈ yard.made) /\ yard.Agrees taskId token own
  | .created sandboxId => (sandboxId, taskId) ∈ yard.made /\ yard.Unnamed sandboxId /\ yard.Agrees taskId token none
  | .dropping sandboxId => yard.Unnamed sandboxId
  | .losing sandboxId => yard.Gone sandboxId /\ yard.Agrees taskId token (some sandboxId)
  | .ending own _ => ∀ sandboxId, own = some sandboxId -> (sandboxId, taskId) ∈ yard.made
  | .removing sandboxId => (sandboxId, taskId) ∈ yard.made /\ yard.Idle taskId
  | .clearing sandboxId => yard.Gone sandboxId
  | .discarding sandboxId => (sandboxId, taskId) ∈ yard.made /\ yard.Missing taskId
  | .launched | .closed => True

def Chosen (yard : Yard) (rows : List (ℕ × ℕ)) : Prop := ∀ row ∈ rows, (row.2, row.1) ∈ yard.made /\ yard.Idle row.1

def Listed (yard : Yard) (rows : List (ℕ × Option ℕ)) : Prop :=
  ∀ row ∈ rows, ∀ own, row.2 = some own -> (own, row.1) ∈ yard.made

def JobKept (yard : Yard) : Job -> Prop
  | .run taskId token place => (taskId, token) ∈ yard.issued /\ PlaceKept yard taskId token place
  | .reaping rows => Chosen yard rows
  | .reaped _ sandboxId rows => yard.Gone sandboxId /\ Chosen yard rows
  | .listed boxes => ∀ box ∈ boxes, box.id ∈ yard.made.map fst
  | .sweeping sandboxes => ∀ own ∈ sandboxes, yard.Unnamed own
  | .swept sandboxId rest => yard.Gone sandboxId /\ ∀ own ∈ rest, yard.Unnamed own
  | .reclaiming taskId sandboxId | .checking taskId sandboxId | .givingBack taskId sandboxId =>
    (sandboxId, taskId) ∈ yard.made /\ yard.Unnamed sandboxId /\ yard.WorkedAfter taskId sandboxId
  | .purging cutoff rows => cutoff <= dbNow yard.clock - 86400 /\ Listed yard rows
  | .purged cutoff taskId sandboxId rows =>
    cutoff <= dbNow yard.clock - 86400 /\ (sandboxId, taskId) ∈ yard.made /\ yard.Missing taskId /\ Listed yard rows
  | .leftovers tasks => ∀ task ∈ tasks, yard.Idle task
  | .stopping taskId sandboxId tasks => (sandboxId, taskId) ∈ yard.made /\ yard.Idle taskId /\ ∀ task ∈ tasks, yard.Idle task
  | .expiring _ _ tasks => ∀ task ∈ tasks, yard.Idle task
  | .closed => True

variable {own taskId maxSite : ℕ} {yard next : Yard} {change : Change} {maxUser : Option ℕ} {store : TaskStore}
  {moved : Job} {answer : Answer} {row : TaskRow}

section Beside

variable {yard next : Yard} {change : Change}

theorem mem_keys (isMade : (own, taskId) ∈ yard.made) : own ∈ yard.made.map fst :=
  mem_map.mpr ⟨(own, taskId), isMade, rfl⟩

section

variable (goes : Goes yard next change)
include goes

theorem Goes.chosen {rows : List (ℕ × ℕ)} (chosen : Chosen yard rows)
  (others : ∀ taskId, change.leased = some taskId -> rows.any (·.1 = taskId) = false) : Chosen next rows := by
  intro row mem
  refine ⟨goes.made (chosen row mem).1, goes.idle (chosen row mem).2 ?_⟩
  intro leased
  exact any_eq_false.mp (others row.1 leased) row mem (decide_eq_true rfl)

theorem Goes.listed {rows : List (ℕ × Option ℕ)} (listed : Listed yard rows) : Listed next rows :=
  fun row mem own isOwn => goes.made (listed row mem own isOwn)

theorem Goes.idles {tasks : List ℕ} (idle : ∀ task ∈ tasks, yard.Idle task)
  (others : ∀ taskId, change.leased = some taskId -> taskId ∉ tasks) : ∀ task ∈ tasks, next.Idle task :=
  fun task mem => goes.idle (idle task mem) (others task · mem)

theorem Goes.unnameds {sandboxes : List ℕ} (unnamed : ∀ own ∈ sandboxes, yard.Unnamed own)
  (others : ∀ own, change.named = some own -> next.Gone own \/ own ∉ sandboxes) : ∀ own ∈ sandboxes, next.Unnamed own :=
  fun own mem => goes.unnamed (unnamed own mem) (fun named => (others own named).resolve_right (· mem))

theorem Goes.cutoff {cutoff : ℤ} (early : cutoff <= dbNow yard.clock - 86400) : cutoff <= dbNow next.clock - 86400 :=
  early.trans (Int.sub_le_sub_right (Int.floor_le_floor goes.clock) _)

theorem Goes.place (kept : YardKept yard) {token : ℕ} {place : RunPlace}
  (issued : (taskId, token) ∈ yard.issued) (placeKept : PlaceKept yard taskId token place) (writer : change.writer ≠ some token)
  (waits : ∀ task, change.leased = some task -> (Job.run taskId token place).waits task = false)
  (names : ∀ own, change.named = some own -> next.Gone own \/ (Job.run taskId token place).holds ≠ some own) :
  PlaceKept next taskId token place := by
  have isUsed : taskId ∈ yard.used := kept.leases _ issued
  have mine {own : Option ℕ} (had : (∀ sandboxId, own = some sandboxId -> (sandboxId, taskId) ∈ yard.made) /\
      yard.Agrees taskId token own) : (∀ sandboxId, own = some sandboxId -> (sandboxId, taskId) ∈ next.made) /\
      next.Agrees taskId token own :=
    ⟨fun sandboxId isOwn => goes.made (had.1 sandboxId isOwn), goes.agrees had.2 issued isUsed writer⟩
  cases place with
  | launched | closed => trivial
  | naming own | starting own | working own => exact mine placeKept
  | created sandboxId =>
    rcases placeKept with ⟨isMade, unnamed, agrees⟩
    exact ⟨goes.made isMade, goes.unnamed unnamed (fun named => (names sandboxId named).resolve_right (· rfl)), goes.agrees agrees issued isUsed writer⟩
  | dropping sandboxId => exact goes.unnamed placeKept (fun named => (names sandboxId named).resolve_right (· rfl))
  | losing sandboxId => exact ⟨goes.gone placeKept.1, goes.agrees placeKept.2 issued isUsed writer⟩
  | ending own removes => exact fun sandboxId isOwn => goes.made (placeKept sandboxId isOwn)
  | removing sandboxId =>
    refine ⟨goes.made placeKept.1, goes.idle placeKept.2 ?_⟩
    intro leased
    exact absurd rfl (of_decide_eq_false (waits taskId leased))
  | clearing sandboxId => exact goes.gone placeKept
  | discarding sandboxId => exact ⟨goes.made placeKept.1, goes.missing placeKept.2⟩

theorem Goes.job (kept : YardKept yard) {job : Job} (jobKept : JobKept yard job)
  (writer : ∀ token, job.token = some token -> change.writer ≠ some token)
  (waits : ∀ taskId, change.leased = some taskId -> job.waits taskId = false)
  (names : ∀ own, change.named = some own -> next.Gone own \/ (job.holds ≠ some own /\ job.sweeps own = false)) :
  JobKept next job := by
  have held {taskId sandboxId : ℕ} (had : (sandboxId, taskId) ∈ yard.made /\ yard.Unnamed sandboxId /\ yard.WorkedAfter taskId sandboxId)
      (other : change.named = some sandboxId -> next.Gone sandboxId \/ (some sandboxId ≠ some sandboxId /\ job.sweeps sandboxId = false)) :
      (sandboxId, taskId) ∈ next.made /\ next.Unnamed sandboxId /\ next.WorkedAfter taskId sandboxId :=
    ⟨goes.made had.1, goes.unnamed had.2.1 (fun named => (other named).resolve_right (·.1 rfl)), goes.workedAfter had.2.2 (mem_keys had.1) kept.created⟩
  cases job with
  | run taskId token place =>
    exact ⟨goes.issued jobKept.1, goes.place kept jobKept.1 jobKept.2 (writer token rfl) waits
      (fun own named => (names own named).imp_right And.left)⟩
  | reaping rows => exact goes.chosen jobKept waits
  | reaped taskId sandboxId rows => exact ⟨goes.gone jobKept.1, goes.chosen jobKept.2 waits⟩
  | listed boxes => exact fun box mem => map_subset _ goes.made (jobKept box mem)
  | sweeping sandboxes => exact goes.unnameds jobKept (fun own named => (names own named).imp_right (of_decide_eq_false ·.2))
  | swept sandboxId rest =>
    exact ⟨goes.gone jobKept.1, goes.unnameds jobKept.2
      (fun own named => (names own named).imp_right (of_decide_eq_false ·.2))⟩
  | reclaiming taskId sandboxId | checking taskId sandboxId | givingBack taskId sandboxId =>
    exact held jobKept (names sandboxId)
  | purging cutoff rows => exact ⟨goes.cutoff jobKept.1, goes.listed jobKept.2⟩
  | purged cutoff taskId sandboxId rows =>
    exact ⟨goes.cutoff jobKept.1, goes.made jobKept.2.1, goes.missing jobKept.2.2.1, goes.listed jobKept.2.2.2⟩
  | leftovers tasks | expiring taskId sandboxId tasks =>
    exact goes.idles jobKept (fun taskId leased => of_decide_eq_false (waits taskId leased))
  | stopping taskId sandboxId tasks =>
    have apart (task : ℕ) (leased : change.leased = some task) : ¬ (taskId = task \/ task ∈ tasks) :=
      of_decide_eq_false (waits task leased)
    exact ⟨goes.made jobKept.1, goes.idle jobKept.2.1 (fun leased => apart taskId leased (.inl rfl)),
      goes.idles jobKept.2.2 fun task leased mem => apart task leased (.inr mem)⟩
  | closed => trivial

end

end Beside

section Yards

variable {yard next : Yard} {change : Change}

section

variable (kept : YardKept yard) (goes : Goes yard next change)
include kept goes

theorem names_goes : ∀ row ∈ next.store.tasks, ∀ own, row.sandboxId = some own -> (own, row.id) ∈ next.made := by
  intro row mem own isOwn
  rcases goes.rows row mem with ⟨old, isOld, row_⟩ | ⟨_, empty, _⟩
  · rcases row_.sandbox with same | ⟨_, cleared | ⟨_, isNamed, _, isMade⟩⟩ | ⟨cleared, _⟩
    · rw [row_.id]
      exact goes.made (kept.names old isOld own (same.symm.trans isOwn))
    · rw [cleared] at isOwn
      cases isOwn
    · rw [<- Option.some.inj (isNamed.symm.trans isOwn)]
      exact isMade
    · rw [cleared] at isOwn
      cases isOwn
  · rw [empty] at isOwn
    cases isOwn

theorem worked_goes (named : ∀ own, change.named = some own -> ∀ row ∈ next.store.tasks, row.sandboxId = some own ->
    next.WorkedAfter row.id own) :
  ∀ row ∈ next.store.tasks, ∀ own, row.sandboxId = some own -> next.WorkedAfter row.id own := by
  intro row mem own isOwn
  rcases goes.rows row mem with ⟨old, isOld, row_⟩ | ⟨_, empty, _⟩
  · rcases row_.sandbox with same | ⟨_, cleared | ⟨_, isOther, isNamed, _⟩⟩ | ⟨cleared, _⟩
    · have isOld_ := same.symm.trans isOwn
      rw [row_.id]
      exact goes.workedAfter (kept.worked old isOld own isOld_) (mem_keys (kept.names old isOld own isOld_)) kept.created
    · rw [cleared] at isOwn
      cases isOwn
    · rw [Option.some.inj (isOther.symm.trans isOwn)] at isNamed
      exact named own isNamed row mem isOwn
    · rw [cleared] at isOwn
      cases isOwn
  · rw [empty] at isOwn
    cases isOwn

theorem used_goes : ∀ row ∈ next.store.tasks, row.id ∈ next.used := by
  intro row mem
  rcases goes.rows row mem with ⟨old, isOld, row_⟩ | ⟨_, _, _, isUsed⟩
  · rw [row_.id]
    exact goes.used (kept.used old isOld)
  · exact isUsed

end

theorem YardKept.write (kept : YardKept yard) (goes : Goes yard (yard.write store) change)
  (ids : (store.tasks.map TaskRow.id).Nodup)
  (named : ∀ own, change.named = some own -> ∀ row ∈ store.tasks, row.sandboxId = some own ->
    (yard.write store).WorkedAfter row.id own) : YardKept (yard.write store) :=
  ⟨ids, used_goes kept goes, kept.leases, kept.boxes, kept.sessions, kept.keys, names_goes kept goes, worked_goes kept goes named,
    goes.created kept.created⟩

theorem YardKept.updateTasks (kept : YardKept yard) {selected : TaskRow -> Bool} {update : TaskRow -> TaskRow}
  (goes : Goes yard (yard.write (yard.store.updateTasks selected update)) change) (ids : ∀ row, (update row).id = row.id)
  (named : ∀ own, change.named = some own -> ∀ row ∈ (yard.store.updateTasks selected update).tasks,
    row.sandboxId = some own -> (yard.write (yard.store.updateTasks selected update)).WorkedAfter row.id own) :
  YardKept (yard.write (yard.store.updateTasks selected update)) := by
  refine kept.write goes ?_ named
  rw [ids_update ids]
  exact kept.ids

theorem named_nothing (nothing : change.named = none) :
  ∀ own, change.named = some own -> ∀ row ∈ store.tasks, row.sandboxId = some own ->
    (yard.write store).WorkedAfter row.id own := by
  intro _ named
  rw [nothing] at named
  cases named

theorem YardKept.without (kept : YardKept yard) (own : ℕ) : YardKept (yard.without own) := by
  have goes : Goes yard (yard.without own) Change.none := goes_without own
  refine ⟨kept.ids, kept.used, kept.leases, ?_, kept.sessions, kept.keys, kept.names, ?_, goes.created kept.created⟩
  · intro box mem
    exact kept.boxes box (mem_filter.mp mem).1
  · exact worked_goes kept goes nofun

theorem YardKept.delete (kept : YardKept yard) (own : ℕ) (answer : Answer) : YardKept (yard.delete own answer) := by
  cases answer with
  | ok | late | removed => exact kept.without own
  | failed | notFound => exact kept

theorem YardKept.add (kept : YardKept yard) {session : ℕ} (isUsed : session ∈ yard.used) (new : own ∉ yard.made.map fst) :
  YardKept (yard.add session own) := by
  have goes : Goes yard (yard.add session own) Change.none := goes_add new
  refine ⟨kept.ids, kept.used, kept.leases, ?_, ?_, ?_, names_goes kept goes, ?_, goes.created kept.created⟩
  · intro box mem
    change box.id ∈ (yard.made ++ [(own, session)]).map fst
    rw [map_append]
    rcases mem_snoc.mp mem with old | isNew
    · exact mem_append_left _ (kept.boxes box old)
    · rw [isNew]
      exact mem_concat_self
  · exact forall_mem_snoc kept.sessions isUsed
  · change ((yard.made ++ [(own, session)]).map fst).Nodup
    rw [map_append]
    exact List.Nodup.append kept.keys (nodup_singleton _) (disjoint_singleton.mpr new)
  · exact worked_goes kept goes nofun

theorem YardKept.wait (kept : YardKept yard) {clock : ℚ} (later : yard.clock <= clock) : YardKept { yard with clock := clock } :=
  ⟨kept.ids, kept.used, kept.leases, kept.boxes, kept.sessions, kept.keys, kept.names,
    worked_goes kept (goes_wait later) nofun, (goes_wait later).created kept.created⟩

theorem YardKept.resume (kept : YardKept yard) {token : ℕ} {modelId : Option ℕ} {modelName : Option Text}
  (fresh : token ∉ yard.issued.map snd)
  (resumed : yard.store.resume taskId token maxUser maxSite modelId modelName yard.clock = .ok (some store))
  (isUsed : taskId ∈ yard.used) :
  YardKept { yard with store := store, issued := yard.issued ++ [(taskId, token)] } := by
  have goes := goes_resume fresh resumed
  refine ⟨?_, used_goes kept goes, ?_, kept.boxes, kept.sessions, kept.keys, names_goes kept goes,
    worked_goes kept goes nofun, goes.created kept.created⟩
  · have ids : store.tasks.map TaskRow.id = yard.store.tasks.map TaskRow.id := by
      rw [resume_ok resumed]
      apply ids_update
      intro _
      rfl
    rw [ids]
    exact kept.ids
  · exact forall_mem_snoc kept.leases isUsed

theorem YardKept.create (kept : YardKept yard) {task : NewTask} {token : ℕ} (new : task.id ∉ yard.used)
  (created : yard.store.create task token maxUser maxSite yard.clock = .ok store) :
  YardKept { yard with store := store, used := yard.used ++ [task.id], issued := yard.issued ++ [(task.id, token)] } := by
  have goes := goes_create new created
  rcases create_ok created with ⟨notThere, tasks, _⟩
  refine ⟨?_, used_goes kept goes, ?_, kept.boxes, ?_, kept.keys, names_goes kept goes,
    worked_goes kept goes nofun, goes.created kept.created⟩
  · rw [tasks, map_append]
    exact List.Nodup.append kept.ids (nodup_singleton _) (disjoint_singleton.mpr notThere)
  · intro lease mem
    rcases mem_snoc.mp mem with old | isNew
    · exact mem_append_left _ (kept.leases lease old)
    · rw [isNew]
      exact mem_concat_self
  · intro pair mem
    exact mem_append_left _ (kept.sessions pair mem)

theorem gone_without (isMade : own ∈ yard.made.map fst) : (yard.without own).Gone own := by
  refine ⟨isMade, ?_⟩
  intro _ mem same
  exact of_decide_eq_true (mem_filter.mp mem).2 same

theorem gone_of_has (isMade : own ∈ yard.made.map fst) (hasNot : yard.has own = false) : yard.Gone own := by
  refine ⟨isMade, ?_⟩
  intro box mem same
  exact any_eq_false.mp hasNot box mem (decide_eq_true same)

theorem row_eq (kept : YardKept yard) {first second : TaskRow} (isFirst : first ∈ yard.store.tasks) (isSecond : second ∈ yard.store.tasks)
    (same : first.id = second.id) : first = second := eq_of_key kept.ids isFirst isSecond same

theorem session_eq (kept : YardKept yard) {first second : ℕ} (isFirst : (own, first) ∈ yard.made)
  (isSecond : (own, second) ∈ yard.made) : first = second :=
  congrArg snd (eq_of_key kept.keys isFirst isSecond rfl)

end Yards

def Yard.Named (yard : Yard) (sandboxId : ℕ) : Prop := ∃ row ∈ yard.store.tasks, row.sandboxId = some sandboxId

def YardState.Accounted (state : YardState) (sandboxId : ℕ) : Prop :=
  state.yard.Named sandboxId \/ (∃ job ∈ state.jobs, job.holds = some sandboxId) \/ state.Sweepable sandboxId

def Yard.heldBy (yard : Yard) (job : Job) : Option ℕ := job.holds.filter (yard.has ·)

structure StateKept (state : YardState) : Prop where
  yard : YardKept state.yard
  jobs : ∀ job ∈ state.jobs, JobKept state.yard job
  tokens : Numbered.Apart Job.token state.jobs
  holders : Numbered.Apart state.yard.heldBy state.jobs
  accounted : ∀ box ∈ state.yard.boxes, state.Accounted box.id

def Explained (next : Yard) (moved : Job) (sandboxId : ℕ) : Prop :=
  next.Named sandboxId \/ moved.holds = some sandboxId \/ ∀ box ∈ next.boxes, box.id = sandboxId -> next.sweepable box

theorem unnamed_of_holds {job : Job} (kept : JobKept yard job) (holds : job.holds = some own) : yard.Unnamed own := by
  cases job with
  | run taskId token place =>
    cases place with
    | created sandboxId =>
      cases holds
      exact kept.2.2.1
    | dropping sandboxId =>
      cases holds
      exact kept.2
    | _ => cases holds
  | reclaiming taskId sandboxId | checking taskId sandboxId | givingBack taskId sandboxId =>
    cases holds
    exact kept.2.1
  | _ => cases holds

theorem has_iff : yard.has own ↔ ∃ box ∈ yard.boxes, box.id = own := by
  unfold Yard.has
  rw [any_eq_true]
  constructor
  · rintro ⟨box, mem, same⟩
    exact ⟨box, mem, of_decide_eq_true same⟩
  · rintro ⟨box, mem, same⟩
    exact ⟨box, mem, decide_eq_true same⟩

theorem not_gone_of_has (has : yard.has own) : ¬ yard.Gone own := by
  intro gone
  rcases has_iff.mp has with ⟨box, mem, same⟩
  exact gone.2 box mem same

theorem has_of_not_gone (isMade : own ∈ yard.made.map fst) (there : ¬ yard.Gone own) : yard.has own := by
  rw [<- Bool.not_eq_false]
  intro hasNot
  exact there ⟨isMade, fun box mem same => any_eq_false.mp hasNot box mem (decide_eq_true same)⟩

theorem heldBy_iff {job : Job} : yard.heldBy job = some own ↔ job.holds = some own /\ yard.has own := by
  unfold Yard.heldBy
  rw [Option.filter_eq_some_iff]

theorem heldBy_goes {state : YardState} (jobs : ∀ job ∈ state.jobs, JobKept state.yard job)
  (goes : Goes state.yard next change) (holders : Numbered.Apart state.yard.heldBy state.jobs) :
  Numbered.Apart next.heldBy state.jobs := by
  apply holders.mono
  intro job mem _ isHeld
  rcases heldBy_iff.mp isHeld with ⟨holds, has⟩
  refine heldBy_iff.mpr ⟨holds, ?_⟩
  rcases has_iff.mp has with ⟨box, isBox, same⟩
  rcases goes.boxes box isBox with old | ⟨new, _⟩
  · exact has_iff.mpr ⟨box, old, same⟩
  · rw [same] at new
    exact absurd (unnamed_of_holds (jobs job mem) holds).1 new

theorem sweepable_goes (goes : Goes yard next change) {box : Box} (old : yard.sweepable box) : next.sweepable box := by
  have isOld : box.created <= yard.clock - unknownSandboxGrace := of_decide_eq_true old
  exact decide_eq_true (isOld.trans (sub_le_sub_right goes.clock _))

theorem stateKept_move {state : YardState} (kept : StateKept state) {index : ℕ} {job : Job}
  (found : state.jobs[index]? = some job) (goes : Goes state.yard next change) (yardKept : YardKept next)
  (movedKept : JobKept next moved) (writer : change.writer = none \/ change.writer = job.token)
  (leased : change.leased = none) (names : ∀ own, change.named = some own -> next.Gone own \/
    ((∀ place other, place ≠ index -> state.jobs[place]? = some other -> other.holds ≠ some own) /\ state.NobodySweeps own))
  (token : moved.token = job.token)
  (holds : ∀ own, moved.holds = some own -> job.holds = some own \/ ∀ other ∈ state.jobs, other.holds ≠ some own)
  (named : ∀ own, state.yard.Named own -> Explained next moved own)
  (held : ∀ own, job.holds = some own -> Explained next moved own)
  (boxes : ∀ box ∈ next.boxes, box ∈ state.yard.boxes \/ Explained next moved box.id) :
  StateKept ⟨next, state.jobs.set index moved⟩ := by
  have isThere : index < state.jobs.length := (List.getElem?_eq_some_iff.mp found).1
  have movedMember : moved ∈ state.jobs.set index moved := mem_set isThere moved
  refine ⟨yardKept, ?_, ?_, ?_, ?_⟩
  · intro other mem
    rcases mem_set found mem with isMoved | ⟨place, apart, isPlace⟩
    · rw [isMoved]
      exact movedKept
    · have isJob := mem_of_getElem? isPlace
      refine goes.job kept.yard (kept.jobs other isJob) ?_ ?_ ?_
      · intro own isOwn isWriter
        rcases writer with nobody | mine
        · rw [nobody] at isWriter
          cases isWriter
        · rw [mine] at isWriter
          exact apart (kept.tokens place index other job own isPlace found isOwn isWriter)
      · intro _ isLeased
        rw [leased] at isLeased
        cases isLeased
      · intro own isNamed
        exact (names own isNamed).imp_right (fun nobody => ⟨nobody.1 place other apart isPlace, nobody.2 other isJob⟩)
  · apply kept.tokens.set found
    intro own isOwn
    rw [token] at isOwn
    exact .inl isOwn
  · apply (heldBy_goes kept.jobs goes kept.holders).set found
    intro own isHeld
    rcases heldBy_iff.mp isHeld with ⟨isOwn, has⟩
    rcases holds own isOwn with mine | nobody
    · exact .inl (heldBy_iff.mpr ⟨mine, has⟩)
    · exact .inr (fun other mem same => nobody other mem (heldBy_iff.mp same).1)
  · intro box mem
    have explained (why : Explained next moved box.id) : YardState.Accounted ⟨next, state.jobs.set index moved⟩ box.id := by
      rcases why with isNamed | isHeld | isOld
      · exact .inl isNamed
      · exact .inr (.inl ⟨moved, movedMember, isHeld⟩)
      · exact .inr (.inr isOld)
    rcases boxes box mem with old | why
    · rcases kept.accounted box old with isNamed | ⟨other, isOther, isHeld⟩ | isOld
      · exact explained (named box.id isNamed)
      · rcases mem_iff_getElem?.mp isOther with ⟨place, isPlace⟩
        by_cases same : place = index
        · rw [same, found] at isPlace
          cases isPlace
          exact explained (held box.id isHeld)
        · refine .inr (.inl ⟨other, ?_, isHeld⟩)
          have stays : (state.jobs.set index moved)[place]? = some other := by
            rw [getElem?_set_ne (same ·.symm)]
            exact isPlace
          exact mem_of_getElem? stays
      · refine .inr (.inr ?_)
        intro again isBox same
        rcases goes.boxes again isBox with isOldBox | ⟨new, _⟩
        · exact sweepable_goes goes (isOld again isOldBox same)
        · rw [same] at new
          exact absurd (kept.yard.boxes box old) new
    · exact explained why

theorem stateKept_join {state : YardState} (kept : StateKept state) (goes : Goes state.yard next change)
  (yardKept : YardKept next) {joined : Job} (joinedKept : JobKept next joined) (writer : change.writer = none)
  (waits : ∀ taskId, change.leased = some taskId -> ∀ job ∈ state.jobs, job.waits taskId = false)
  (named_ : change.named = none) (tokens : ∀ own, joined.token = some own -> ∀ job ∈ state.jobs, job.token ≠ some own)
  (holds : ∀ own, joined.holds = some own -> next.has own -> ∀ job ∈ state.jobs, job.holds ≠ some own)
  (named : ∀ own, state.yard.Named own -> Explained next joined own) (boxes : next.boxes = state.yard.boxes) :
  StateKept ⟨next, state.jobs ++ [joined]⟩ := by
  have holders : Numbered.Apart next.heldBy (state.jobs ++ [joined]) := by
    apply (heldBy_goes kept.jobs goes kept.holders).append
    intro own isHeld job mem same
    rcases heldBy_iff.mp isHeld with ⟨isOwn, has⟩
    exact holds own isOwn has job mem (heldBy_iff.mp same).1
  refine ⟨yardKept, ?_, kept.tokens.append tokens, holders, ?_⟩
  · intro job mem
    rcases mem_snoc.mp mem with old | new
    · refine goes.job kept.yard (kept.jobs job old) ?_ ?_ ?_
      · intro own _ isWriter
        rw [writer] at isWriter
        cases isWriter
      · intro taskId leased
        exact waits taskId leased job old
      · intro _ isNamed
        rw [named_] at isNamed
        cases isNamed
    · rw [new]
      exact joinedKept
  · intro box mem
    rw [boxes] at mem
    rcases kept.accounted box mem with isNamed | ⟨other, isOther, isHeld⟩ | isOld
    · rcases named box.id isNamed with stays | isHeld | isOld
      · exact .inl stays
      · exact .inr (.inl ⟨joined, mem_concat_self, isHeld⟩)
      · exact .inr (.inr isOld)
    · exact .inr (.inl ⟨other, mem_append_left _ isOther, isHeld⟩)
    · refine .inr (.inr ?_)
      intro again isBox same
      rw [boxes] at isBox
      exact sweepable_goes goes (isOld again isBox same)

theorem stateKept_stay {state : YardState} (kept : StateKept state) (goes : Goes state.yard next Change.none)
  (yardKept : YardKept next) (named : ∀ own, state.yard.Named own -> next.Named own)
  (boxes : next.boxes = state.yard.boxes) : StateKept { state with yard := next } := by
  have holders := heldBy_goes kept.jobs goes kept.holders
  refine ⟨yardKept, ?_, kept.tokens, holders, ?_⟩
  · intro job mem
    exact goes.job kept.yard (kept.jobs job mem) nofun
      nofun nofun
  · intro box mem
    rw [boxes] at mem
    rcases kept.accounted box mem with isNamed | isHeld | isOld
    · exact .inl (named box.id isNamed)
    · exact .inr (.inl isHeld)
    · refine .inr (.inr ?_)
      intro again isBox same
      rw [boxes] at isBox
      exact sweepable_goes goes (isOld again isBox same)

section Moves

variable {state : YardState} (kept : StateKept state) {index : ℕ} {job moved : Job} (found : state.jobs[index]? = some job)

include kept found

theorem stateKept_quiet (movedKept : JobKept state.yard moved) (token : moved.token = job.token) (holds : moved.holds = job.holds) :
  StateKept ⟨state.yard, state.jobs.set index moved⟩ := by
  refine stateKept_move kept found (goes_self state.yard Change.none) kept.yard movedKept (.inl rfl) rfl
    nofun token ?_ (fun own named => .inl named) ?_ (fun box mem => .inl mem)
  · intro own isOwn
    rw [holds] at isOwn
    exact .inl isOwn
  · intro _ isOwn
    rw [<- holds] at isOwn
    exact .inr (.inl isOwn)

theorem stateKept_delete (movedKept : JobKept (state.yard.delete own answer) moved) (token : moved.token = job.token)
  (holds : ∀ other, moved.holds = some other -> job.holds = some other)
  (held : ∀ other, job.holds = some other -> Explained (state.yard.delete own answer) moved other) :
  StateKept ⟨state.yard.delete own answer, state.jobs.set index moved⟩ := by
  have goes : Goes state.yard (state.yard.delete own answer) Change.none := goes_delete own answer
  have sameStore : (state.yard.delete own answer).store = state.yard.store := by cases answer <;> rfl
  have fewer : ∀ box ∈ (state.yard.delete own answer).boxes, box ∈ state.yard.boxes := by
    intro box mem
    rcases goes.boxes box mem with old | ⟨_, _⟩
    · exact old
    · cases answer with
      | ok | late | removed => exact (mem_filter.mp mem).1
      | failed | notFound => exact mem
  refine stateKept_move kept found goes (kept.yard.delete own answer) movedKept (.inl rfl) rfl
    nofun token (fun other isOther => .inl (holds other isOther)) ?_ held
    (fun box mem => .inl (fewer box mem))
  rintro _ ⟨row, mem, isOther⟩
  refine .inl ⟨row, ?_, isOther⟩
  rw [sameStore]
  exact mem

theorem stateKept_write (goes : Goes state.yard (state.yard.write store) change)
  (yardKept : YardKept (state.yard.write store)) (movedKept : JobKept (state.yard.write store) moved)
  (writer : change.writer = none \/ change.writer = job.token) (leased : change.leased = none)
  (names : ∀ own, change.named = some own -> (state.yard.write store).Gone own \/
    ((∀ place other, place ≠ index -> state.jobs[place]? = some other -> other.holds ≠ some own) /\ state.NobodySweeps own))
  (token : moved.token = job.token) (holds : moved.holds = none)
  (named : ∀ own, state.yard.Named own -> Explained (state.yard.write store) moved own)
  (held : ∀ own, job.holds = some own -> Explained (state.yard.write store) moved own) :
  StateKept ⟨state.yard.write store, state.jobs.set index moved⟩ := by
  refine stateKept_move kept found goes yardKept movedKept writer leased names token ?_ named held (fun box mem => .inl mem)
  intro _ isOwn
  rw [holds] at isOwn
  cases isOwn

end Moves

theorem explained_update {selected : TaskRow -> Bool} {update : TaskRow -> TaskRow}
  (kept : ∀ old ∈ yard.store.tasks, selected old -> ∀ own, old.sandboxId = some own ->
    (update old).sandboxId = some own \/ Explained (yard.write (yard.store.updateTasks selected update)) moved own)
  (own : ℕ) (named : yard.Named own) : Explained (yard.write (yard.store.updateTasks selected update)) moved own := by
  rcases named with ⟨old, isOld, isOwn⟩
  by_cases isSelected : selected old
  · rcases kept old isOld isSelected own isOwn with same | why
    · exact .inl ⟨update old, mem_updateWhere.mpr (.inr ⟨old, isOld, isSelected, rfl⟩), same⟩
    · exact why
  · exact .inl ⟨old, mem_updateWhere.mpr (.inl ⟨isOld, isSelected⟩), isOwn⟩

theorem explained_gone (gone : yard.Gone own) : Explained yard moved own :=
  .inr (.inr fun box mem same => absurd same (gone.2 box mem))

theorem unnamed_of_sweeps {job : Job} (kept : JobKept yard job) (sweeps : job.sweeps own) : yard.Unnamed own := by
  cases job with
  | sweeping sandboxes => exact kept own (of_decide_eq_true sweeps)
  | swept sandboxId rest => exact kept.2 own (of_decide_eq_true sweeps)
  | _ => cases sweeps

theorem nobody_of_named {state : YardState} (kept : StateKept state) (mem : row ∈ state.yard.store.tasks)
  (names : row.sandboxId = some own) (there : ¬ state.yard.Gone own) :
  (∀ other ∈ state.jobs, other.holds ≠ some own) /\ state.NobodySweeps own := by
  constructor
  · intro other isOther holds
    exact there ((unnamed_of_holds (kept.jobs other isOther) holds).2 row mem names)
  · intro other isOther
    rw [Bool.eq_false_iff]
    intro sweeps
    exact there ((unnamed_of_sweeps (kept.jobs other isOther) sweeps).2 row mem names)

theorem onlyHolder {state : YardState} (kept : StateKept state) {index : ℕ} {job : Job}
  (found : state.jobs[index]? = some job) (holds : job.holds = some own) (isMade : own ∈ state.yard.made.map fst) :
  state.yard.Gone own \/
    ∀ place other, place ≠ index -> state.jobs[place]? = some other -> other.holds ≠ some own := by
  by_cases gone : state.yard.Gone own
  · exact .inl gone
  · have has := has_of_not_gone isMade gone
    refine .inr ?_
    intro place other apart isPlace isHolder
    exact apart (kept.holders place index other job own isPlace found (heldBy_iff.mpr ⟨isHolder, has⟩) (heldBy_iff.mpr ⟨holds, has⟩))

theorem mem_setSandbox (kept : YardKept yard) {token : ℕ} (owns : yard.store.owns taskId token) {own : Option ℕ}
  (mem : row ∈ (yard.store.setSandbox taskId (some token) own none).tasks) (isTask : row.id = taskId) :
  row.ownerToken = some token /\ row.sandboxId = own := by
  rcases mem_updateWhere.mp mem with ⟨isOld, unselected⟩ | ⟨_, _, isSelected, same⟩
  · exact absurd (decide_eq_true ⟨isTask, owner_of_owns kept.ids owns isOld isTask⟩) unselected
  · rw [<- same]
    exact ⟨(of_decide_eq_true isSelected).2, rfl⟩

theorem agrees_setSandbox (kept : YardKept yard) {token : ℕ} (owns : yard.store.owns taskId token) (own : Option ℕ) :
  (yard.write (yard.store.setSandbox taskId (some token) own none)).Agrees taskId token own :=
  fun _ mem isTask _ => .inl (mem_setSandbox kept owns mem isTask).2

theorem agrees_lost {token : ℕ} (lost : yard.store.owns taskId token = false) (own : Option ℕ) :
  yard.Agrees taskId token own := by
  intro row mem isTask isOwner
  have owns := owns_eq_true_iff.mpr ⟨row, mem, isTask, isOwner⟩
  rw [lost] at owns
  cases owns

theorem yardKept_setSandbox (kept : YardKept yard) {token : ℕ} (owns : yard.store.owns taskId token)
  (isMade : (own, taskId) ∈ yard.made) :
  YardKept (yard.write (yard.store.setSandbox taskId (some token) (some own) none)) := by
  have goes : Goes yard (yard.write (yard.store.setSandbox taskId (some token) (some own) none)) ⟨some token, none, some own⟩ :=
    goes_setSandbox isMade
  have ids : (yard.store.setSandbox taskId (some token) (some own) none).tasks.map TaskRow.id = yard.store.tasks.map TaskRow.id := by
    apply ids_update
    intro row
    rfl
  refine kept.write goes ?_ ?_
  · rw [ids]
    exact kept.ids
  · intro _ isNamed row mem isOwn _ isOther sameTask unowned
    -- The run has the task, so the task is not without a run.
    rw [<- Option.some.inj isNamed] at isOwn
    have isTask : row.id = taskId := session_eq kept (names_goes kept goes row mem own isOwn) isMade
    have owned := (mem_setSandbox kept owns isOther (sameTask.trans isTask)).1
    rw [owned] at unowned
    cases unowned

theorem row_of_owns {token : ℕ} (owns : yard.store.owns taskId token) :
    ∃ row ∈ yard.store.tasks, row.id = taskId /\ row.ownerToken = some token := owns_eq_true_iff.mp owns

section Runs

variable {state : YardState} (kept : StateKept state) {index taskId token : ℕ}

include kept

theorem stateKept_name (found : state.jobs[index]? = some (.run taskId token (.naming (some own)))) :
  StateKept ⟨state.yard.write (state.yard.store.setSandbox taskId (some token) (some own) none),
    state.jobs.set index (.run taskId token (.starting (some own)))⟩ := by
  have mine := kept.jobs _ (mem_of_getElem? found)
  have isMade := mine.2.1 own rfl
  by_cases owns : state.yard.store.owns taskId token
  · refine stateKept_write kept found (goes_setSandbox isMade) (yardKept_setSandbox kept.yard owns isMade)
      ⟨mine.1, mine.2.1, agrees_setSandbox kept.yard owns (some own)⟩ (.inr rfl) rfl ?_ rfl rfl ?_ nofun
    · intro _ isNamed
      rw [<- Option.some.inj isNamed]
      by_cases gone : state.yard.Gone own
      · exact .inl gone
      · rcases row_of_owns owns with ⟨row, mem, isTask, isOwner⟩
        rcases mine.2.2 row mem isTask isOwner with names | ⟨_, isGone⟩
        · have nobody := nobody_of_named kept mem names gone
          exact .inr ⟨fun place other _ isPlace => nobody.1 other (mem_of_getElem? isPlace), nobody.2⟩
        · exact absurd (isGone own rfl) gone
    · apply explained_update
      intro old isOld isOwned _ isOther
      rcases of_decide_eq_true isOwned with ⟨isTask, isOwner⟩
      rcases mine.2.2 old isOld isTask isOwner with names | ⟨nothing, _⟩
      · exact .inl (names.symm.trans isOther)
      · rw [nothing] at isOther
        cases isOther
  · rw [Bool.not_eq_true] at owns
    have same : state.yard.store.setSandbox taskId (some token) (some own) none = state.yard.store := updateTasks_lost owns _
    rw [same]
    exact stateKept_quiet kept found ⟨mine.1, mine.2⟩ rfl rfl

theorem stateKept_keep (found : state.jobs[index]? = some (.run taskId token (.created own)))
  (owns : state.yard.store.owns taskId token) (nobody : state.NobodySweeps own) :
  StateKept ⟨state.yard.write (state.yard.store.setSandbox taskId (some token) (some own) none),
    state.jobs.set index (.run taskId token (.working (some own)))⟩ := by
  rcases kept.jobs _ (mem_of_getElem? found) with ⟨issued, isMade, _, agrees⟩
  have onlyMine : ∀ sandboxId, some own = some sandboxId -> (sandboxId, taskId) ∈ state.yard.made := by
    intro sandboxId same
    rw [<- Option.some.inj same]
    exact isMade
  refine stateKept_write kept found (goes_setSandbox isMade) (yardKept_setSandbox kept.yard owns isMade)
    ⟨issued, onlyMine, agrees_setSandbox kept.yard owns (some own)⟩ (.inr rfl) rfl ?_ rfl rfl ?_ ?_
  · intro _ isNamed
    rw [<- Option.some.inj isNamed]
    exact (onlyHolder kept found rfl (mem_keys isMade)).imp_right (fun alone => ⟨alone, nobody⟩)
  · apply explained_update
    intro old isOld isOwned _ isOther
    rcases of_decide_eq_true isOwned with ⟨isTask, isOwner⟩
    rcases agrees old isOld isTask isOwner with nothing | ⟨nothing, _⟩
    · rw [nothing] at isOther
      cases isOther
    · rw [nothing] at isOther
      cases isOther
  · intro _ isHeld
    cases isHeld
    rcases row_of_owns owns with ⟨row, mem, isTask, isOwner⟩
    refine .inl ⟨{ row with sandboxId := some own, sandboxExpiresAt := none }, ?_, rfl⟩
    exact mem_updateWhere.mpr (.inr ⟨row, mem, decide_eq_true ⟨isTask, isOwner⟩, rfl⟩)

theorem stateKept_lose (found : state.jobs[index]? = some (.run taskId token (.losing own))) :
  StateKept ⟨state.yard.write (state.yard.store.setSandbox taskId (some token) none none),
    state.jobs.set index (.run taskId token (.working none))⟩ := by
  rcases kept.jobs _ (mem_of_getElem? found) with ⟨issued, gone, agrees⟩
  have nothing : ∀ sandboxId, (none : Option ℕ) = some sandboxId -> (sandboxId, taskId) ∈ state.yard.made := by
    intro _ clash
    cases clash
  by_cases owns : state.yard.store.owns taskId token
  · have goes : Goes state.yard (state.yard.write (state.yard.store.setSandbox taskId (some token) none none)) ⟨some token, none, none⟩ :=
      goes_unsetSandbox
    refine stateKept_write kept found goes ?_ ⟨issued, nothing, agrees_setSandbox kept.yard owns none⟩
      (.inr rfl) rfl nofun rfl rfl ?_ nofun
    · apply kept.yard.updateTasks goes
      · intro _
        rfl
      · exact named_nothing rfl
    · apply explained_update
      intro old isOld isOwned _ isOther
      rcases of_decide_eq_true isOwned with ⟨isTask, isOwner⟩
      rcases agrees old isOld isTask isOwner with names | ⟨nothing, _⟩
      · rw [names] at isOther
        rw [<- Option.some.inj isOther]
        exact .inr (explained_gone (goes.gone gone))
      · rw [nothing] at isOther
        cases isOther
  · rw [Bool.not_eq_true] at owns
    have same : state.yard.store.setSandbox taskId (some token) none none = state.yard.store := updateTasks_lost owns _
    rw [same]
    exact stateKept_quiet kept found ⟨issued, nothing, agrees_lost owns none⟩ rfl rfl

variable {after : RunPlace}

variable {place : RunPlace}

theorem stateKept_runWrite (found : state.jobs[index]? = some (.run taskId token place))
  (goes : Goes state.yard (state.yard.write store) Change.none) {selected : TaskRow -> Bool}
  {update : TaskRow -> TaskRow} (isStore : store = state.yard.store.updateTasks selected update)
  (same : ∀ row, (update row).id = row.id /\ (update row).sandboxId = row.sandboxId)
  (afterKept : JobKept (state.yard.write store) (.run taskId token after))
  (holds : Job.holds (.run taskId token after) = none) (held : Job.holds (.run taskId token place) = none) :
  StateKept ⟨state.yard.write store, state.jobs.set index (.run taskId token after)⟩ := by
  subst isStore
  refine stateKept_write kept found goes ?_ afterKept (.inl rfl) rfl nofun rfl holds ?_ ?_
  · exact kept.yard.updateTasks goes (fun row => (same row).1) (named_nothing rfl)
  · apply explained_update
    intro old _ _ own isOwn
    exact .inl ((same old).2.trans isOwn)
  · intro _ isOwn
    rw [held] at isOwn
    cases isOwn

theorem stateKept_begin {own : Option ℕ} (found : state.jobs[index]? = some (.run taskId token (.starting own)))
  (set : state.yard.store.setStatus taskId token .running (some []) true state.yard.clock = .ok store) :
  StateKept ⟨state.yard.write store, state.jobs.set index (.run taskId token (.working own))⟩ := by
  rcases kept.jobs _ (mem_of_getElem? found) with ⟨issued, made, agrees⟩
  have goes : Goes state.yard (state.yard.write store) Change.none := goes_setStatus set
  refine stateKept_runWrite kept found goes (Except.ok.inj set).symm (fun row => ⟨rfl, rfl⟩) ⟨issued, made, ?_⟩ rfl rfl
  exact goes.agrees agrees issued (kept.yard.leases _ issued) nofun

theorem stateKept_create (found : state.jobs[index]? = some (.run taskId token (.working none)))
  (fresh : own ∉ state.yard.made.map fst) :
  StateKept ⟨state.yard.add taskId own, state.jobs.set index (.run taskId token (.created own))⟩ := by
  rcases kept.jobs _ (mem_of_getElem? found) with ⟨issued, _, agrees⟩
  have isUsed : taskId ∈ state.yard.used := kept.yard.leases _ issued
  have goes : Goes state.yard (state.yard.add taskId own) Change.none := goes_add fresh
  have isMade : (own, taskId) ∈ (state.yard.add taskId own).made := mem_concat_self
  refine stateKept_move kept found goes (kept.yard.add isUsed fresh) ⟨issued, isMade, ⟨mem_keys isMade, ?_⟩, ?_⟩ (.inl rfl) rfl
    nofun rfl ?_ (fun other named => .inl named) nofun ?_
  · intro row mem names
    exact absurd (mem_keys (kept.yard.names row mem own names)) fresh
  · exact goes.agrees agrees issued isUsed nofun
  · intro _ isOther
    cases isOther
    refine .inr ?_
    intro job isJob holds
    exact fresh (unnamed_of_holds (kept.jobs job isJob) holds).1
  · exact forall_mem_snoc (fun box old => .inl old) (.inr (.inr (.inl rfl)))

omit kept in
theorem explained_delete (moved : Job)
  (left : answer = .failed \/ answer = .notFound -> state.Sweepable own) : Explained (state.yard.delete own answer) moved own := by
  refine .inr (.inr ?_)
  intro box mem same
  cases answer with
  | failed => exact left (.inl rfl) box mem same
  | notFound => exact left (.inr rfl) box mem same
  | ok | late | removed => exact absurd same (of_decide_eq_true (mem_filter.mp mem).2)

theorem stateKept_runDelete (found : state.jobs[index]? = some (.run taskId token place))
  (afterKept : PlaceKept (state.yard.delete own answer) taskId token after)
  (holds : Job.holds (.run taskId token after) = none)
  (held : ∀ other, Job.holds (.run taskId token place) = some other ->
    Explained (state.yard.delete own answer) (.run taskId token after) other) :
  StateKept ⟨state.yard.delete own answer, state.jobs.set index (.run taskId token after)⟩ := by
  have issued := (kept.jobs _ (mem_of_getElem? found)).1
  refine stateKept_delete kept found ⟨(goes_delete own answer).issued issued, afterKept⟩ rfl ?_ held
  intro _ isOther
  rw [holds] at isOther
  cases isOther

theorem stateKept_finish {own : Option ℕ} {removes : Bool} {status : TaskStatus} {summary error : Text}
  {expiresAt : Option ℤ} (found : state.jobs[index]? = some (.run taskId token (.ending own removes)))
  (owns : state.yard.store.owns taskId token)
  (finished : state.yard.store.finish taskId token status summary error expiresAt state.yard.clock = .ok store) :
  StateKept ⟨state.yard.write store,
    state.jobs.set index (.run taskId token (if removes then own.elim .closed .removing else .closed))⟩ := by
  rcases kept.jobs _ (mem_of_getElem? found) with ⟨issued, made⟩
  have goes : Goes state.yard (state.yard.write store) Change.none := goes_finish finished
  have isUsed : taskId ∈ state.yard.used := kept.yard.leases _ issued
  by_cases terminal : status.isTerminal
  · unfold finish at finished
    rw [if_pos terminal] at finished
    have isStore := (Except.ok.inj finished).symm
    have idle : (state.yard.write store).Idle taskId := by
      refine ⟨isUsed, ?_⟩
      intro row mem isTask
      rw [isStore] at mem
      rcases mem_updateWhere.mp mem with ⟨isOld, unselected⟩ | ⟨_, _, _, same⟩
      · exact absurd (decide_eq_true ⟨isTask, owner_of_owns kept.yard.ids owns isOld isTask⟩) unselected
      · rw [<- same]
        rfl
    refine stateKept_runWrite kept found goes isStore (fun row => ⟨rfl, rfl⟩) ?_ ?_ rfl
    · cases removes with
      | false => exact ⟨issued, trivial⟩
      | true =>
        cases own with
        | none => exact ⟨issued, trivial⟩
        | some sandboxId => exact ⟨issued, made sandboxId rfl, idle⟩
    · cases removes with
      | false => rfl
      | true =>
        cases own with
        | none | some sandboxId => rfl
  · unfold finish at finished
    rw [if_neg terminal] at finished
    cases finished

theorem stateKept_lost {own : Option ℕ} (found : state.jobs[index]? = some (.run taskId token place))
  (made : ∀ sandboxId, own = some sandboxId -> (sandboxId, taskId) ∈ state.yard.made)
  (held : Job.holds (.run taskId token place) = none) : StateKept ⟨state.yard, state.jobs.set index
    (.run taskId token (if (state.yard.store.get taskId).isNone then own.elim .closed .discarding else .closed))⟩ := by
  have issued := (kept.jobs _ (mem_of_getElem? found)).1
  by_cases missing : (state.yard.store.get taskId).isNone
  · rw [if_pos missing]
    cases own with
    | none => exact stateKept_quiet kept found ⟨issued, trivial⟩ rfl held.symm
    | some sandboxId =>
      refine stateKept_quiet kept found ⟨issued, made sandboxId rfl, kept.yard.leases _ issued, ?_⟩ rfl held.symm
      intro row mem isTask
      rw [Option.isNone_iff_eq_none] at missing
      exact find?_eq_none.mp missing row mem (decide_eq_true isTask)
  · rw [if_neg missing]
    exact stateKept_quiet kept found ⟨issued, trivial⟩ rfl held.symm

theorem stateKept_read (found : state.jobs[index]? = some (.run taskId token .launched))
  (stepped : state.yard.runStep taskId token .launched .read = some (next, after)) :
  StateKept ⟨next, state.jobs.set index (.run taskId token after)⟩ := by
  have issued := (kept.jobs _ (mem_of_getElem? found)).1
  simp only [Yard.runStep] at stepped
  cases looked : state.yard.store.get taskId with
  | none =>
    rw [looked] at stepped
    cases stepped
    exact stateKept_quiet kept found ⟨issued, trivial⟩ rfl rfl
  | some row =>
    rw [looked] at stepped
    dsimp only at stepped
    have matches_ := find?_some looked
    have isTask : row.id = taskId := of_decide_eq_true matches_
    have mem : row ∈ state.yard.store.tasks := mem_of_find?_eq_some looked
    by_cases isOwner : row.ownerToken = some token
    · rw [if_pos isOwner] at stepped
      cases stepped
      refine stateKept_quiet kept found ⟨issued, ?_, ?_⟩ rfl rfl
      · intro own isOwn
        rw [<- isTask]
        exact kept.yard.names row mem own isOwn
      · intro _ isOther sameTask _
        rw [row_eq kept.yard isOther mem (sameTask.trans isTask.symm)]
        exact .inl rfl
    · rw [if_neg isOwner] at stepped
      cases stepped
      exact stateKept_quiet kept found ⟨issued, trivial⟩ rfl rfl

theorem stateKept_run {step : RunStep} (found : state.jobs[index]? = some (.run taskId token place))
  (honest : state.Honest index step) (orderly : state.OrderlyRun taskId token place step)
  (stepped : state.yard.runStep taskId token place step = some (next, after)) :
  StateKept ⟨next, state.jobs.set index (.run taskId token after)⟩ := by
  have mine := kept.jobs _ (mem_of_getElem? found)
  have isUsed : taskId ∈ state.yard.used := kept.yard.leases _ mine.1
  have closed_ : JobKept state.yard (.run taskId token .closed) := ⟨mine.1, trivial⟩
  unfold Yard.runStep at stepped
  split at stepped
  case h_1 => exact stateKept_read kept found stepped
  case h_2 =>
    cases stepped
    exact stateKept_quiet kept found ⟨mine.1, nofun⟩ rfl rfl
  case h_3 =>
    cases stepped
    exact stateKept_quiet kept found ⟨mine.1, mine.2⟩ rfl rfl
  case h_4 =>
    cases stepped
    exact stateKept_name kept found
  case h_5 own =>
    by_cases owns : state.yard.store.owns taskId token
    · rw [if_pos owns] at stepped
      cases set : state.yard.store.setStatus taskId token .running (some []) true state.yard.clock with
      | error error =>
        rw [set] at stepped
        cases stepped
      | ok store =>
        rw [set] at stepped
        cases stepped
        exact stateKept_begin kept found set
    · rw [if_neg owns] at stepped
      cases stepped
      exact stateKept_quiet kept found closed_ rfl rfl
  case h_6 =>
    cases stepped
    exact stateKept_quiet kept found ⟨mine.1, mine.2⟩ rfl rfl
  case h_7 own =>
    cases stepped
    exact stateKept_create kept found honest
  case h_8 own =>
    by_cases owns : state.yard.store.owns taskId token
    · rw [if_pos owns] at stepped
      cases stepped
      exact stateKept_keep kept found owns orderly
    · rw [if_neg owns] at stepped
      cases stepped
      exact stateKept_quiet kept found ⟨mine.1, mine.2.2.1⟩ rfl rfl
  case h_9 own answer =>
    cases stepped
    refine stateKept_runDelete kept found trivial rfl ?_
    intro _ isOther
    cases isOther
    exact explained_delete _ orderly
  case h_10 own removed =>
    cases removed with
    | false =>
      cases stepped
      exact stateKept_quiet kept found ⟨mine.1, mine.2⟩ rfl rfl
    | true =>
      cases stepped
      have isGone : (state.yard.delete own .ok).Gone own := gone_without (mem_keys (mine.2.1 own rfl))
      have agrees := (goes_delete own .ok).agrees mine.2.2 mine.1 isUsed nofun
      have placeKept : PlaceKept (state.yard.delete own .ok) taskId token (.losing own) := ⟨isGone, agrees⟩
      exact stateKept_runDelete kept found placeKept rfl nofun
  case h_11 own =>
    cases stepped
    have isGone : state.yard.Gone own := gone_of_has (mem_keys (mine.2.1 own rfl)) (honest taskId token own found)
    exact stateKept_quiet kept found ⟨mine.1, isGone, mine.2.2⟩ rfl rfl
  case h_12 =>
    cases stepped
    exact stateKept_lose kept found
  case h_13 own answer =>
    by_cases ok : answer = .ok
    · rw [if_pos ok] at stepped
      cases stepped
      exact stateKept_quiet kept found ⟨mine.1, mine.2.1⟩ rfl rfl
    · rw [if_neg ok] at stepped
      cases stepped
      refine stateKept_runDelete kept found ?_ rfl nofun
      intro sandboxId same
      exact (goes_delete own answer).made (mine.2.1 sandboxId same)
  case h_14 =>
    cases stepped
    exact stateKept_quiet kept found ⟨mine.1, mine.2.1⟩ rfl rfl
  case h_15 own removes status summary error expiresAt =>
    by_cases owns : state.yard.store.owns taskId token
    · rw [if_pos owns] at stepped
      cases finished : state.yard.store.finish taskId token status summary error expiresAt state.yard.clock with
      | error error =>
        rw [finished] at stepped
        cases stepped
      | ok store =>
        rw [finished] at stepped
        cases stepped
        exact stateKept_finish kept found owns finished
    · rw [if_neg owns] at stepped
      cases stepped
      exact stateKept_quiet kept found closed_ rfl rfl
  case h_16 own answer =>
    cases stepped
    by_cases ok : answer = .ok
    · subst ok
      have isGone : (state.yard.delete own .ok).Gone own := gone_without (mem_keys mine.2.1)
      exact stateKept_runDelete kept found isGone rfl nofun
    · rw [if_neg ok]
      exact stateKept_runDelete kept found trivial rfl nofun
  case h_17 own =>
    cases stepped
    refine stateKept_write kept found (goes_clearSandbox mine.2) ?_ ⟨mine.1, trivial⟩ (.inl rfl) rfl
      nofun rfl rfl ?_ nofun
    · exact kept.yard.updateTasks (goes_clearSandbox mine.2) (fun _ => rfl) (named_nothing rfl)
    · apply explained_update
      intro _ _ isSelected _ isNamed
      rw [Option.some.inj (isNamed.symm.trans (of_decide_eq_true isSelected).2)]
      exact .inr (explained_gone mine.2)
  case h_18 own =>
    by_cases owns : state.yard.store.owns taskId token
    · rw [if_pos owns] at stepped
      cases stepped
    · rw [if_neg owns] at stepped
      cases stepped
      exact stateKept_lost kept found mine.2.1 rfl
  case h_19 own removes =>
    by_cases owns : state.yard.store.owns taskId token
    · rw [if_pos owns] at stepped
      cases stepped
    · rw [if_neg owns] at stepped
      cases stepped
      exact stateKept_lost kept found mine.2 rfl
  case h_20 own answer =>
    cases stepped
    exact stateKept_runDelete kept found trivial rfl nofun
  case h_21 => cases stepped

end Runs

section Cleaners

variable {state : YardState} (kept : StateKept state) {index : ℕ}

include kept

theorem stateKept_cleanDelete {job : Job} (found : state.jobs[index]? = some job)
  (movedKept : JobKept (state.yard.delete own answer) moved) (token : moved.token = job.token)
  (holds : moved.holds = none) (held : job.holds = none) :
  StateKept ⟨state.yard.delete own answer, state.jobs.set index moved⟩ := by
  refine stateKept_delete kept found movedKept token ?_ ?_
  · intro other isOther
    rw [holds] at isOther
    cases isOther
  · intro _ isOther
    rw [held] at isOther
    cases isOther

theorem stateKept_release {job : Job} (found : state.jobs[index]? = some job) (movedKept : JobKept state.yard moved)
  (token : moved.token = job.token) (holds : moved.holds = none) (held : job.holds = some own)
  (hasNot : state.yard.has own = false) : StateKept ⟨state.yard, state.jobs.set index moved⟩ := by
  refine stateKept_move kept found (goes_self state.yard Change.none) kept.yard movedKept (.inl rfl) rfl
    nofun token ?_ (fun other named => .inl named) ?_ (fun box mem => .inl mem)
  · intro other isOther
    rw [holds] at isOther
    cases isOther
  · intro _ isOther
    rw [<- Option.some.inj (held.symm.trans isOther)]
    refine .inr (.inr ?_)
    intro box mem same
    exact absurd (decide_eq_true same) (any_eq_false.mp hasNot box mem)

theorem stateKept_reaping {rows : List (ℕ × ℕ)} (found : state.jobs[index]? = some (.reaping ((taskId, own) :: rows))) :
  StateKept ⟨state.yard.delete own answer,
    state.jobs.set index (if answer = .ok then .reaped taskId own rows else .reaping rows)⟩ := by
  have chosen : Chosen state.yard ((taskId, own) :: rows) := kept.jobs _ (mem_of_getElem? found)
  have later : Chosen (state.yard.delete own answer) rows :=
    (goes_delete own answer).chosen (fun row mem => chosen row (.tail _ mem)) nofun
  by_cases ok : answer = .ok
  · subst ok
    have isGone : (state.yard.delete own .ok).Gone own := gone_without (mem_keys (chosen (taskId, own) mem_cons_self).1)
    have movedKept : JobKept (state.yard.delete own .ok) (.reaped taskId own rows) := ⟨isGone, later⟩
    exact stateKept_cleanDelete kept found movedKept rfl rfl rfl
  · rw [if_neg ok]
    exact stateKept_cleanDelete kept found later rfl rfl rfl

theorem stateKept_reaped {rows : List (ℕ × ℕ)} (found : state.jobs[index]? = some (.reaped taskId own rows)) :
  StateKept ⟨state.yard.write (state.yard.store.clearSandbox taskId own), state.jobs.set index (.reaping rows)⟩ := by
  rcases kept.jobs _ (mem_of_getElem? found) with ⟨gone, chosen⟩
  have goes : Goes state.yard (state.yard.write (state.yard.store.clearSandbox taskId own)) Change.none := goes_clearSandbox gone
  refine stateKept_write kept found goes ?_ (goes.chosen chosen nofun) (.inl rfl) rfl
    nofun rfl rfl ?_ nofun
  · exact kept.yard.updateTasks goes (fun _ => rfl) (named_nothing rfl)
  · apply explained_update
    intro _ _ isSelected _ isNamed
    rw [Option.some.inj (isNamed.symm.trans (of_decide_eq_true isSelected).2)]
    exact .inr (explained_gone (goes.gone gone))

theorem stateKept_listed {boxes : List Box} (found : state.jobs[index]? = some (.listed boxes)) :
  StateKept ⟨state.yard, state.jobs.set index (.sweeping (state.yard.unknown boxes))⟩ := by
  have listed := kept.jobs _ (mem_of_getElem? found)
  refine stateKept_quiet kept found ?_ rfl rfl
  intro _ mem
  rcases mem_map.mp mem with ⟨box, isBox, same⟩
  rcases mem_filter.mp isBox with ⟨isListed, isUnknown⟩
  rw [<- same]
  refine ⟨listed box isListed, ?_⟩
  intro row isRow names
  have known : state.yard.store.knownSandboxes.contains box.id := by
    rw [contains_iff_mem]
    exact mem_filterMap.mpr ⟨row, isRow, names⟩
  rw [known] at isUnknown
  cases isUnknown

theorem stateKept_sweeping {rest : List ℕ} (found : state.jobs[index]? = some (.sweeping (own :: rest))) :
  StateKept ⟨state.yard.delete own answer, state.jobs.set index (if answer = .ok then .swept own rest else .sweeping rest)⟩ := by
  have unnamed : ∀ other ∈ own :: rest, state.yard.Unnamed other := kept.jobs _ (mem_of_getElem? found)
  have later := (goes_delete own answer).unnameds (fun other mem => unnamed other (.tail _ mem))
    nofun
  by_cases ok : answer = .ok
  · subst ok
    have isGone : (state.yard.delete own .ok).Gone own := gone_without (unnamed own mem_cons_self).1
    have movedKept : JobKept (state.yard.delete own .ok) (.swept own rest) := ⟨isGone, later⟩
    exact stateKept_cleanDelete kept found movedKept rfl rfl rfl
  · rw [if_neg ok]
    exact stateKept_cleanDelete kept found later rfl rfl rfl

theorem stateKept_swept {rest : List ℕ} (found : state.jobs[index]? = some (.swept own rest)) :
  StateKept ⟨state.yard.write (state.yard.store.forgetSandbox own), state.jobs.set index (.sweeping rest)⟩ := by
  rcases kept.jobs _ (mem_of_getElem? found) with ⟨gone, unnamed⟩
  have goes : Goes state.yard (state.yard.write (state.yard.store.forgetSandbox own)) Change.none := goes_forgetSandbox own
  refine stateKept_write kept found goes ?_ (goes.unnameds unnamed nofun) (.inl rfl) rfl
    nofun rfl rfl ?_ nofun
  · exact kept.yard.updateTasks goes (fun _ => rfl) (named_nothing rfl)
  · apply explained_update
    intro _ _ isSelected _ isNamed
    rw [Option.some.inj (isNamed.symm.trans (of_decide_eq_true isSelected).1)]
    exact .inr (explained_gone (goes.gone gone))

theorem stateKept_reclaiming (found : state.jobs[index]? = some (.reclaiming taskId own))
  (honest : answer = .notFound -> state.yard.has own = false) : StateKept ⟨state.yard.delete own answer,
    state.jobs.set index (if answer = .ok \/ answer = .notFound then .closed else .checking taskId own)⟩ := by
  have mine := kept.jobs _ (mem_of_getElem? found)
  by_cases freed : answer = .ok \/ answer = .notFound
  · rcases freed with ok | notFound
    · subst ok
      refine stateKept_delete kept found trivial rfl nofun ?_
      intro other isOther
      cases isOther
      exact explained_delete _ (fun failed => nomatch failed)
    · subst notFound
      exact stateKept_release kept found trivial rfl rfl rfl (honest rfl)
  · rw [if_neg freed]
    have later : JobKept (state.yard.delete own answer) (.reclaiming taskId own) :=
      (goes_delete own answer).job kept.yard mine nofun nofun
        nofun
    exact stateKept_delete kept found later rfl (fun other isOther => isOther) (fun other isOther => .inr (.inl isOther))

theorem stateKept_givingBack (found : state.jobs[index]? = some (.givingBack taskId own))
  (orderly : state.OrderlyReturn (.givingBack taskId own)) :
  StateKept ⟨state.yard.write (state.yard.store.giveBackKeptSandbox taskId own state.yard.clock), state.jobs.set index .closed⟩ := by
  rcases kept.jobs _ (mem_of_getElem? found) with ⟨isMade, _, worked⟩
  have goes : Goes state.yard (state.yard.write (state.yard.store.giveBackKeptSandbox taskId own state.yard.clock))
      ⟨none, none, some own⟩ := goes_giveBack isMade
  refine stateKept_write kept found goes ?_ trivial (.inl rfl) rfl ?_ rfl rfl ?_ ?_
  · apply kept.yard.updateTasks goes
    · intro row
      rfl
    · intro named isNamed row mem names
      rw [<- Option.some.inj isNamed] at names ⊢
      rw [session_eq kept.yard (names_goes kept.yard goes row mem own names) isMade]
      exact goes.workedAfter worked (mem_keys isMade) kept.yard.created
  · intro _ isNamed
    rw [<- Option.some.inj isNamed]
    exact (onlyHolder kept found rfl (mem_keys isMade)).imp_right (fun alone => ⟨alone, orderly.1⟩)
  · apply explained_update
    intro old _ isSelected other isOther
    rw [(of_decide_eq_true isSelected).2.1] at isOther
    cases isOther
  · intro _ isOther
    cases isOther
    rcases orderly.2 with ⟨row, mem, isTask, nothing, unowned⟩ | old
    · refine .inl ⟨{ row with sandboxId := some own, sandboxExpiresAt := some (dbNow state.yard.clock) }, ?_, rfl⟩
      exact mem_updateWhere.mpr (.inr ⟨row, mem, decide_eq_true ⟨isTask, nothing, unowned⟩, rfl⟩)
    · exact .inr (.inr old)

theorem sweepable_old {cutoff : ℤ} (early : cutoff <= dbNow state.yard.clock - 86400)
  (mem : row ∈ state.yard.store.tasks) (isOld : isOld cutoff row) (names : row.sandboxId = some own) :
  state.Sweepable own := by
  intro box isBox same
  rcases Bool.and_eq_true_iff.mp isOld with ⟨unowned, late⟩
  have created := kept.yard.worked row mem own names row mem rfl (Option.isNone_iff_eq_none.mp unowned) box isBox same
  have before : row.lastAt + 1 <= cutoff := Int.add_one_le_of_lt (of_decide_eq_true late)
  have now : (dbNow state.yard.clock : ℚ) <= state.yard.clock := Int.floor_le _
  have bound : ((row.lastAt + 1 : ℤ) : ℚ) <= ((dbNow state.yard.clock - 86400 : ℤ) : ℚ) := Int.cast_le.mpr (before.trans early)
  push_cast at bound
  apply decide_eq_true
  unfold unknownSandboxGrace
  linarith

theorem stateKept_purging {cutoff : ℤ} {own : Option ℕ} {rows : List (ℕ × Option ℕ)}
  (found : state.jobs[index]? = some (.purging cutoff ((taskId, own) :: rows))) :
  StateKept ⟨state.yard.write (state.yard.store.deleteIfOld taskId cutoff).1,
    state.jobs.set index (if (state.yard.store.deleteIfOld taskId cutoff).2 then
      own.elim (.purging cutoff rows) (.purged cutoff taskId · rows) else .purging cutoff rows)⟩ := by
  rcases kept.jobs _ (mem_of_getElem? found) with ⟨early, listed⟩
  have later : Listed state.yard rows := fun row mem => listed row (.tail _ mem)
  by_cases isOld : (state.yard.store.tasks.any fun row => decide (row.id = taskId) && TaskStore.isOld cutoff row)
  · have goes : Goes state.yard (state.yard.write (state.yard.store.deleteIfOld taskId cutoff).1) Change.none :=
      goes_deleteIfOld taskId cutoff
    unfold TaskStore.deleteIfOld at goes ⊢
    rw [if_pos isOld] at goes ⊢
    dsimp only at goes ⊢
    rcases any_eq_true.mp isOld with ⟨oldRow, isRow, isChosen⟩
    rcases Bool.and_eq_true_iff.mp isChosen with ⟨isTask, _⟩
    refine stateKept_write kept found goes ?_ ?_ (.inl rfl) rfl nofun ?_ ?_ ?_
      nofun
    · refine kept.yard.write goes ?_ (named_nothing rfl)
      exact kept.yard.ids.sublist (filter_sublist.map _)
    · cases own with
      | none => exact ⟨early, later⟩
      | some sandboxId =>
        refine ⟨early, listed (taskId, some sandboxId) (.head _) sandboxId rfl, ⟨?_, ?_⟩, later⟩
        · rw [<- of_decide_eq_true isTask]
          exact kept.yard.used oldRow isRow
        · intro row mem sameTask
          rcases mem_deleteWhere.mp mem with ⟨isThere, unchosen⟩
          rw [row_eq kept.yard isThere isRow (sameTask.trans (of_decide_eq_true isTask).symm)] at unchosen
          exact unchosen isChosen
    · cases own with
      | none | some sandboxId => rfl
    · cases own with
      | none | some sandboxId => rfl
    · rintro _ ⟨row, isThere, names⟩
      by_cases chosen : (decide (row.id = taskId) && TaskStore.isOld cutoff row)
      · exact .inr (.inr (sweepable_old kept early isThere (Bool.and_eq_true_iff.mp chosen).2 names))
      · exact .inl ⟨row, mem_deleteWhere.mpr ⟨isThere, chosen⟩, names⟩
  · unfold TaskStore.deleteIfOld
    rw [if_neg isOld]
    exact stateKept_quiet kept found ⟨early, later⟩ rfl rfl

theorem stateKept_leftovers {tasks : List ℕ} (found : state.jobs[index]? = some (.leftovers (taskId :: tasks))) :
  StateKept ⟨state.yard, state.jobs.set index (((state.yard.store.get taskId).bind TaskRow.sandboxId).elim (.leftovers tasks)
    (.stopping taskId · tasks))⟩ := by
  have idle : ∀ task ∈ taskId :: tasks, state.yard.Idle task := kept.jobs _ (mem_of_getElem? found)
  have later : ∀ task ∈ tasks, state.yard.Idle task := fun task mem => idle task (.tail _ mem)
  cases looked : (state.yard.store.get taskId).bind TaskRow.sandboxId with
  | none => exact stateKept_quiet kept found later rfl rfl
  | some own =>
    rcases Option.bind_eq_some_iff.mp looked with ⟨row, isGet, names⟩
    have matches_ := find?_some isGet
    have isTask : row.id = taskId := of_decide_eq_true matches_
    refine stateKept_quiet kept found ⟨?_, idle taskId mem_cons_self, later⟩ rfl rfl
    rw [<- isTask]
    exact kept.yard.names row (mem_of_find?_eq_some isGet) own names

theorem stateKept_clean {job : Job} (found : state.jobs[index]? = some job)
  (honest : ∀ taskId own, job = .reclaiming taskId own \/ job = .checking taskId own -> answer = .notFound ->
    state.yard.has own = false) (orderly : state.OrderlyReturn job)
  (stepped : state.yard.cleanStep answer job = some (next, moved)) :
  StateKept ⟨next, state.jobs.set index moved⟩ := by
  have mine := kept.jobs _ (mem_of_getElem? found)
  cases job with
  | run taskId token place | closed => cases stepped
  | reaping rows =>
    cases rows with
    | nil =>
      cases stepped
      by_cases ok : answer = .ok
      · rw [if_pos ok]
        exact stateKept_quiet kept found kept.yard.boxes rfl rfl
      · rw [if_neg ok]
        exact stateKept_quiet kept found trivial rfl rfl
    | cons row rows =>
      cases stepped
      exact stateKept_reaping kept found
  | reaped taskId own rows =>
    cases stepped
    exact stateKept_reaped kept found
  | listed boxes =>
    cases stepped
    exact stateKept_listed kept found
  | sweeping sandboxes =>
    cases sandboxes with
    | nil =>
      cases stepped
      exact stateKept_quiet kept found trivial rfl rfl
    | cons own rest =>
      cases stepped
      exact stateKept_sweeping kept found
  | swept own rest =>
    cases stepped
    exact stateKept_swept kept found
  | reclaiming taskId own =>
    cases stepped
    exact stateKept_reclaiming kept found (honest taskId own (.inl rfl))
  | checking taskId own =>
    cases stepped
    by_cases notFound : answer = .notFound
    · rw [if_pos notFound]
      exact stateKept_release kept found trivial rfl rfl rfl (honest taskId own (.inr rfl) notFound)
    · rw [if_neg notFound]
      exact stateKept_quiet kept found mine rfl rfl
  | givingBack taskId own =>
    cases stepped
    exact stateKept_givingBack kept found orderly
  | purging cutoff rows =>
    cases rows with
    | nil =>
      cases stepped
      exact stateKept_quiet kept found trivial rfl rfl
    | cons row rows =>
      cases stepped
      exact stateKept_purging kept found
  | purged cutoff taskId own rows =>
    cases stepped
    have goes : Goes state.yard (state.yard.delete own answer) Change.none := goes_delete own answer
    have later : JobKept (state.yard.delete own answer) (.purging cutoff rows) := ⟨goes.cutoff mine.1, goes.listed mine.2.2.2⟩
    exact stateKept_cleanDelete kept found later rfl rfl rfl
  | leftovers tasks =>
    cases tasks with
    | nil =>
      cases stepped
      exact stateKept_quiet kept found trivial rfl rfl
    | cons taskId tasks =>
      cases stepped
      exact stateKept_leftovers kept found
  | stopping taskId own tasks =>
    by_cases ok : answer = .ok
    · simp only [Yard.cleanStep, if_pos ok] at stepped
      cases stepped
      exact stateKept_quiet kept found mine.2.2 rfl rfl
    · simp only [Yard.cleanStep, if_neg ok] at stepped
      cases stepped
      have later : JobKept (state.yard.delete own answer) (.expiring taskId own tasks) :=
        (goes_delete own answer).idles mine.2.2 nofun
      exact stateKept_cleanDelete kept found later rfl rfl rfl
  | expiring taskId own tasks =>
    cases stepped
    have goes : Goes state.yard (state.yard.write (state.yard.store.expireSandboxNow taskId own state.yard.clock)) Change.none :=
      goes_expireSandboxNow taskId own
    refine stateKept_write kept found goes ?_ (goes.idles mine nofun) (.inl rfl) rfl
      nofun rfl rfl ?_ nofun
    · exact kept.yard.updateTasks goes (fun _ => rfl) (named_nothing rfl)
    · apply explained_update
      intro _ _ _ _ isNamed
      exact .inl isNamed

end Cleaners

section Starts

variable {state : YardState} (kept : StateKept state)

include kept

theorem fresh_token {token : ℕ} (fresh : token ∉ state.yard.issued.map snd) {job : Job} (mem : job ∈ state.jobs) :
  job.token ≠ some token := by
  intro isToken
  cases job with
  | run taskId own place =>
    cases isToken
    exact fresh (mem_map.mpr ⟨_, (kept.jobs _ mem).1, rfl⟩)
  | _ => cases isToken

theorem stateKept_createTask {task : NewTask} {token : ℕ} (enabled : state.Enabled (.create task token maxUser maxSite)) :
  StateKept (state.next (.create task token maxUser maxSite)) := by
  simp only [YardState.next]
  cases created : state.yard.store.create task token maxUser maxSite state.yard.clock with
  | error error => exact kept
  | ok store =>
    refine stateKept_join kept (goes_create enabled.1 created) (kept.yard.create enabled.1 created) ⟨?_, trivial⟩ rfl
      nofun rfl ?_ nofun ?_ rfl
    · exact mem_concat_self
    · intro own isOwn _ mem
      cases isOwn
      exact fresh_token kept enabled.2 mem
    · rintro _ ⟨row, mem, names⟩
      refine .inl ⟨row, ?_, names⟩
      rw [(create_ok created).2.1]
      exact mem_append_left _ mem

theorem stateKept_resume {token : ℕ} {modelId : Option ℕ} {modelName : Option Text}
  (enabled : state.Enabled (.resume taskId token maxUser maxSite modelId modelName))
  (orderly : state.Orderly (.resume taskId token maxUser maxSite modelId modelName)) :
  StateKept (state.next (.resume taskId token maxUser maxSite modelId modelName)) := by
  simp only [YardState.next]
  cases resumed : state.yard.store.resume taskId token maxUser maxSite modelId modelName state.yard.clock with
  | error error => exact kept
  | ok result =>
    cases result with
    | none => exact kept
    | some store =>
      have isUsed : taskId ∈ state.yard.used := by
        cases looked : state.yard.store.get taskId with
        | none =>
          unfold resume at resumed
          rw [looked] at resumed
          cases resumed
        | some row =>
          have matches_ := find?_some looked
          rw [<- of_decide_eq_true matches_]
          exact kept.yard.used row (mem_of_find?_eq_some looked)
      refine stateKept_join kept (goes_resume enabled resumed) (kept.yard.resume enabled resumed isUsed) ⟨?_, trivial⟩ rfl ?_ rfl ?_
        nofun ?_ rfl
      · exact mem_concat_self
      · intro _ leased
        cases leased
        exact orderly
      · intro own isOwn _ mem
        cases isOwn
        exact fresh_token kept enabled mem
      · rintro _ ⟨row, mem, names⟩
        refine .inl ?_
        rw [resume_ok resumed]
        by_cases isTask : row.id = taskId
        · exact ⟨_, mem_updateWhere.mpr (.inr ⟨row, mem, decide_eq_true isTask, rfl⟩), names⟩
        · exact ⟨row, mem_updateWhere.mpr (.inl ⟨mem, fun same => isTask (of_decide_eq_true same)⟩), names⟩

omit kept in
theorem named_recoverStale (listed : List ℕ) (error : Text) (status : TaskStatus) (keepUntil : ℤ) (now : ℚ)
  (named : ∃ row ∈ store.tasks, row.sandboxId = some own) :
  ∃ row ∈ (store.recoverStale listed error status keepUntil now).tasks, row.sandboxId = some own := by
  unfold recoverStale
  induction listed generalizing store with
  | nil => exact named
  | cons taskId rest ih =>
    apply ih
    rcases named with ⟨row, mem, names⟩
    by_cases isTask : row.id = taskId
    · exact ⟨_, mem_updateWhere.mpr (.inr ⟨row, mem, decide_eq_true isTask, rfl⟩), names⟩
    · exact ⟨row, mem_updateWhere.mpr (.inl ⟨mem, fun same => isTask (of_decide_eq_true same)⟩), names⟩

theorem stateKept_recover {listed : List ℕ} {error : Text} {status : TaskStatus} {keepUntil : ℤ}
  (enabled : state.Enabled (.recover listed error status keepUntil)) :
  StateKept (state.next (.recover listed error status keepUntil)) := by
  have goes : Goes state.yard (state.yard.write (state.yard.store.recoverStale listed error status keepUntil state.yard.clock))
      Change.none := goes_recoverStale listed error status keepUntil
  refine stateKept_join kept goes ?_ ?_ rfl nofun rfl nofun
    nofun ?_ rfl
  · refine kept.yard.write goes ?_ (named_nothing rfl)
    rw [(ends_recoverStale listed error status keepUntil state.yard.clock).ids]
    exact kept.yard.ids
  · intro taskId isListed
    constructor
    · rcases enabled.1.2.2 taskId isListed with ⟨row, mem, isTask, _⟩
      rw [<- isTask]
      exact kept.yard.used row mem
    · intro row mem isTask
      cases owner : row.ownerToken with
      | none => rfl
      | some token =>
        have owns : (state.yard.store.recoverStale listed error status keepUntil state.yard.clock).owns taskId token :=
          owns_eq_true_iff.mpr ⟨row, mem, isTask, owner⟩
        rw [owns_recoverStale isListed token] at owns
        cases owns
  · intro _ named
    exact .inl (named_recoverStale listed error status keepUntil state.yard.clock named)

theorem stateKept_reap {listed : List (ℕ × ℕ)} (enabled : state.Enabled (.reap listed)) : StateKept (state.next (.reap listed)) := by
  refine stateKept_join kept (goes_self state.yard Change.none) kept.yard ?_ rfl nofun rfl
    nofun nofun (fun own named => .inl named) rfl
  intro item mem
  rcases enabled.2 item mem with ⟨row, isRow, isTask, names, unowned, _⟩
  rw [<- isTask]
  refine ⟨kept.yard.names row isRow item.2 names, kept.yard.used row isRow, ?_⟩
  intro _ isOther sameTask
  rw [row_eq kept.yard isOther isRow sameTask]
  exact unowned

theorem stateKept_reclaim : StateKept (state.next .reclaim) := by
  have goes : Goes state.yard (state.yard.write state.yard.store.takeKeptSandbox.1) Change.none := goes_takeKept
  simp only [YardState.next]
  unfold takeKeptSandbox at goes ⊢
  cases first : state.yard.store.firstKept with
  | none => exact stateKept_stay kept (goes_self state.yard Change.none) kept.yard (fun own named => named) rfl
  | some row =>
    rw [first] at goes
    have mem := argmin_mem first
    rcases mem_filter.mp mem with ⟨isRow, isKept⟩
    have isSome : row.sandboxId.isSome := (Bool.and_eq_true_iff.mp (Bool.and_eq_true_iff.mp isKept).1).1
    rcases Option.isSome_iff_exists.mp isSome with ⟨own, names⟩
    dsimp only at goes ⊢
    have isTaken : row.sandboxId.map (fun sandboxId => (row.id, sandboxId)) = some (row.id, own) := by
      rw [names]
      rfl
    rw [isTaken]
    have isMade := kept.yard.names row isRow own names
    refine stateKept_join kept goes ?_ ⟨isMade, ⟨mem_keys isMade, ?_⟩, ?_⟩ rfl nofun rfl
      nofun ?_ ?_ rfl
    · exact kept.yard.updateTasks goes (fun _ => rfl) (named_nothing rfl)
    · -- The only row that can name it was selected.
      intro other isOther otherNames
      have same : other.id = row.id := session_eq kept.yard (names_goes kept.yard goes other isOther own otherNames) isMade
      rcases mem_updateWhere.mp isOther with ⟨isOld, unselected⟩ | ⟨old, _, _, isCleared⟩
      · rw [row_eq kept.yard isOld isRow same] at unselected
        have unowned : row.ownerToken = none :=
          Option.isNone_iff_eq_none.mp (Bool.and_eq_true_iff.mp (Bool.and_eq_true_iff.mp isKept).1).2
        exact absurd (decide_eq_true ⟨rfl, rfl, unowned⟩) unselected
      · rw [<- isCleared] at otherNames
        cases otherNames
    · exact goes.workedAfter (kept.yard.worked row isRow own names) (mem_keys isMade) kept.yard.created
    · intro other isOther has job isJob holds
      cases isOther
      exact not_gone_of_has has ((unnamed_of_holds (kept.jobs job isJob) holds).2 row isRow names)
    · apply explained_update
      intro _ _ isSelected _ isOther
      rw [(of_decide_eq_true isSelected).2.1, names] at isOther
      exact .inr (.inr (.inl isOther))

theorem stateKept_purge {listed : List (ℕ × Option ℕ)} {cutoff : ℤ} (enabled : state.Enabled (.purge listed cutoff)) :
  StateKept (state.next (.purge listed cutoff)) := by
  refine stateKept_join kept (goes_self state.yard Change.none) kept.yard ⟨enabled.2, ?_⟩ rfl nofun rfl
    nofun nofun (fun own named => .inl named) rfl
  intro item mem own isOwn
  rcases enabled.1.2 item mem with ⟨row, isRow, isTask, names, _⟩
  rw [<- isTask]
  exact kept.yard.names row isRow own (names.trans isOwn)

end Starts

theorem stateKept_next {state : YardState} (kept : StateKept state) {action : YardAction} (enabled : state.Enabled action)
  (orderly : state.Orderly action) : StateKept (state.next action) := by
  cases action with
  | create task token maxUser maxSite => exact stateKept_createTask kept enabled
  | resume taskId token maxUser maxSite modelId modelName => exact stateKept_resume kept enabled orderly
  | recover listed error status keepUntil => exact stateKept_recover kept enabled
  | reap listed => exact stateKept_reap kept enabled
  | reclaim => exact stateKept_reclaim kept
  | purge listed cutoff => exact stateKept_purge kept enabled
  | renew taskId token =>
    have goes : Goes state.yard (state.yard.write (state.yard.store.renewLease taskId token state.yard.clock)) Change.none :=
      goes_renew taskId token
    refine stateKept_stay kept goes (kept.yard.updateTasks goes (fun _ => rfl) (named_nothing rfl)) ?_ rfl
    rintro own ⟨row, mem, names⟩
    by_cases isOwned : owned taskId token row
    · exact ⟨_, mem_updateWhere.mpr (.inr ⟨row, mem, isOwned, rfl⟩), names⟩
    · exact ⟨row, mem_updateWhere.mpr (.inl ⟨mem, isOwned⟩), names⟩
  | run index step =>
    simp only [YardState.next]
    cases found : state.jobs[index]? with
    | none => exact kept
    | some job =>
      cases job with
      | run taskId token place =>
        dsimp only
        cases stepped : state.yard.runStep taskId token place step with
        | none => exact kept
        | some result => exact stateKept_run kept found enabled (orderly taskId token place found) stepped
      | _ => exact kept
  | clean index answer =>
    simp only [YardState.next]
    cases found : state.jobs[index]? with
    | none => exact kept
    | some job =>
      dsimp only
      cases stepped : state.yard.cleanStep answer job with
      | none => exact kept
      | some result =>
        refine stateKept_clean kept found ?_ (orderly job found) stepped
        intro taskId own isJob notFound
        refine enabled taskId own ?_ notFound
        rw [found]
        exact isJob.imp (congrArg some) (congrArg some)
  | wait clock => exact stateKept_stay kept (goes_wait enabled) (kept.yard.wait enabled) (fun own named => named) rfl

theorem stateKept_reachable {state : YardState} (reachable : orderlyYard.Reachable state) : StateKept state := by
  induction reachable with
  | start isStart =>
    rw [show _ = YardState.start from isStart]
    refine ⟨⟨nodup_nil, ?_, ?_, ?_, ?_, nodup_nil, ?_, ?_, ?_⟩, ?_, apart_nil _, apart_nil _, ?_⟩
    all_goals
      intro _ mem
      cases mem
  | next _ enabled kept => exact stateKept_next kept enabled.1 enabled.2

end BananaChat.Agents

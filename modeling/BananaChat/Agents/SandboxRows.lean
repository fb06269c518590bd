import BananaChat.Agents.Fenced
import BananaChat.Agents.Sandboxes

namespace BananaChat.Agents

open Foundation List Rows Prod TaskStore

/-!
# How the rows of tasks go on

What one call of the database can do to the sandboxes and the leases of tasks, said once
for all of them.
-/

namespace Yard

section

variable (yard : Yard)

def Gone (sandboxId : ℕ) : Prop := sandboxId ∈ yard.made.map fst /\ ∀ box ∈ yard.boxes, box.id ≠ sandboxId

def Unnamed (sandboxId : ℕ) : Prop :=
  sandboxId ∈ yard.made.map fst /\ ∀ row ∈ yard.store.tasks, row.sandboxId = some sandboxId -> yard.Gone sandboxId

def Idle (taskId : ℕ) : Prop :=
  taskId ∈ yard.used /\ ∀ row ∈ yard.store.tasks, row.id = taskId -> row.ownerToken = none

def Missing (taskId : ℕ) : Prop := taskId ∈ yard.used /\ ∀ row ∈ yard.store.tasks, row.id ≠ taskId

def Agrees (taskId token : ℕ) (sandboxId : Option ℕ) : Prop :=
  ∀ row ∈ yard.store.tasks, row.id = taskId -> row.ownerToken = some token ->
    row.sandboxId = sandboxId \/ (row.sandboxId = none /\ ∀ own, sandboxId = some own -> yard.Gone own)

end

end Yard

/-- When a task was worked on last: `COALESCE(finished_at, updated_at)`. -/
def TaskRow.lastAt (row : TaskRow) : ℤ := row.finishedAt.getD row.updatedAt

def Yard.WorkedAfter (yard : Yard) (taskId sandboxId : ℕ) : Prop :=
  ∀ row ∈ yard.store.tasks, row.id = taskId -> row.ownerToken = none ->
    ∀ box ∈ yard.boxes, box.id = sandboxId -> box.created < row.lastAt + 1

/-- What a step may do besides what every step may do. -/
structure Change where
  writer : Option ℕ
  leased : Option ℕ
  /-- The sandbox that a task names from now on. -/
  named : Option ℕ

def Change.none : Change := ⟨Option.none, Option.none, Option.none⟩

structure RowGoes (yard next : Yard) (change : Change) (old row : TaskRow) : Prop where
  id : row.id = old.id
  owner : row.ownerToken = old.ownerToken \/ row.ownerToken = none \/
    (change.leased = some row.id /\ ∃ token, row.ownerToken = some token /\ token ∉ yard.issued.map snd)
  sandbox : row.sandboxId = old.sandboxId \/
    ((old.ownerToken = none \/ old.ownerToken = change.writer) /\
      (row.sandboxId = none \/ ∃ own, row.sandboxId = some own /\ change.named = some own /\ (own, row.id) ∈ next.made)) \/
    (row.sandboxId = none /\ ∃ own, old.sandboxId = some own /\ next.Gone own)
  last : row.ownerToken = none -> (old.ownerToken = none /\ row.lastAt = old.lastAt) \/ row.lastAt = dbNow yard.clock

structure Goes (yard next : Yard) (change : Change) : Prop where
  rows : ∀ row ∈ next.store.tasks, (∃ old ∈ yard.store.tasks, RowGoes yard next change old row) \/
    (row.id ∉ yard.used /\ row.sandboxId = none /\ row.ownerToken ≠ none /\ row.id ∈ next.used)
  boxes : ∀ box ∈ next.boxes, box ∈ yard.boxes \/ (box.id ∉ yard.made.map fst /\ box.created = next.clock)
  made : yard.made ⊆ next.made
  used : yard.used ⊆ next.used
  issued : yard.issued ⊆ next.issued
  clock : yard.clock <= next.clock

variable {taskId own token : ℕ} {store : TaskStore} {status : TaskStatus}

section Frames

variable {yard next : Yard} {change : Change} (goes : Goes yard next change)

include goes

variable {sandboxId : ℕ}

theorem Goes.gone (gone : yard.Gone sandboxId) : next.Gone sandboxId := by
  refine ⟨map_subset _ goes.made gone.1, ?_⟩
  intro box mem same
  rcases goes.boxes box mem with old | ⟨new, _⟩
  · exact gone.2 box old same
  · rw [same] at new
    exact new gone.1

theorem Goes.unnamed (unnamed : yard.Unnamed sandboxId)
  (other : change.named = some sandboxId -> next.Gone sandboxId) : next.Unnamed sandboxId := by
  refine ⟨map_subset _ goes.made unnamed.1, ?_⟩
  intro row mem names
  rcases goes.rows row mem with ⟨old, isOld, row_⟩ | ⟨_, empty, _⟩
  · rcases row_.sandbox with same | ⟨_, cleared | ⟨_, isOwn, isNamed, _⟩⟩ | ⟨cleared, _⟩
    · exact goes.gone (unnamed.2 old isOld (same.symm.trans names))
    · rw [cleared] at names
      cases names
    · rw [Option.some.inj (isOwn.symm.trans names)] at isNamed
      exact other isNamed
    · rw [cleared] at names
      cases names
  · rw [empty] at names
    cases names

theorem Goes.idle (idle : yard.Idle taskId) (other : change.leased ≠ some taskId) : next.Idle taskId := by
  refine ⟨goes.used idle.1, ?_⟩
  intro row mem isTask
  rcases goes.rows row mem with ⟨old, isOld, row_⟩ | ⟨new, _⟩
  · rcases row_.owner with same | cleared | ⟨leased, _⟩
    · rw [same]
      exact idle.2 old isOld (row_.id.symm.trans isTask)
    · exact cleared
    · rw [isTask] at leased
      exact absurd leased other
  · rw [isTask] at new
    exact absurd idle.1 new

theorem Goes.missing (missing : yard.Missing taskId) : next.Missing taskId := by
  refine ⟨goes.used missing.1, ?_⟩
  intro row mem isTask
  rcases goes.rows row mem with ⟨old, isOld, row_⟩ | ⟨new, _⟩
  · exact missing.2 old isOld (row_.id.symm.trans isTask)
  · rw [isTask] at new
    exact new missing.1

theorem Goes.agrees {sandboxId : Option ℕ} (agrees : yard.Agrees taskId token sandboxId)
  (issued : (taskId, token) ∈ yard.issued) (isUsed : taskId ∈ yard.used) (other : change.writer ≠ some token) :
  next.Agrees taskId token sandboxId := by
  intro row mem isTask isOwner
  rcases goes.rows row mem with ⟨old, isOld, row_⟩ | ⟨new, _⟩
  · have owned : old.ownerToken = some token := by
      rcases row_.owner with same | cleared | ⟨_, _, isFresh, new⟩
      · exact same.symm.trans isOwner
      · rw [cleared] at isOwner
        cases isOwner
      · rw [isFresh] at isOwner
        rw [Option.some.inj isOwner] at new
        exact absurd (mem_map.mpr ⟨_, issued, rfl⟩) new
    have was := agrees old isOld (row_.id.symm.trans isTask) owned
    rcases row_.sandbox with same | ⟨none_ | writes, _⟩ | ⟨cleared, own, isOwn, gone⟩
    · rw [same]
      exact was.imp_right (fun lost => ⟨lost.1, fun own isOwn => goes.gone (lost.2 own isOwn)⟩)
    · rw [none_] at owned
      cases owned
    · exact absurd (writes.symm.trans owned) other
    · refine .inr ⟨cleared, ?_⟩
      intro _ isMine
      rcases was with same | ⟨nothing, _⟩
      · rw [isOwn, isMine] at same
        rw [<- Option.some.inj same]
        exact gone
      · rw [nothing] at isOwn
        cases isOwn
  · rw [isTask] at new
    exact absurd isUsed new

theorem Goes.workedAfter (was : yard.WorkedAfter taskId sandboxId)
  (isMade : sandboxId ∈ yard.made.map fst) (created : ∀ box ∈ yard.boxes, box.created <= yard.clock) :
  next.WorkedAfter taskId sandboxId := by
  intro row mem isTask unowned box isBox isSandbox
  have isOldBox : box ∈ yard.boxes := by
    rcases goes.boxes box isBox with old | ⟨new, _⟩
    · exact old
    · rw [isSandbox] at new
      exact absurd isMade new
  rcases goes.rows row mem with ⟨old, isOld, row_⟩ | ⟨_, _, owned, _⟩
  · rcases row_.last unowned with ⟨oldUnowned, same⟩ | now
    · rw [same]
      exact was old isOld (row_.id.symm.trans isTask) oldUnowned box isOldBox isSandbox
    · rw [now]
      exact lt_of_le_of_lt (created box isOldBox) (Int.lt_floor_add_one _)
  · exact absurd unowned owned

theorem Goes.created (created : ∀ box ∈ yard.boxes, box.created <= yard.clock) :
  ∀ box ∈ next.boxes, box.created <= next.clock := by
  intro box mem
  rcases goes.boxes box mem with old | ⟨_, now⟩
  · exact (created box old).trans goes.clock
  · rw [now]

end Frames

theorem rowGoes_self (yard next : Yard) (change : Change) (row : TaskRow) : RowGoes yard next change row row :=
  ⟨rfl, .inl rfl, .inl rfl, fun unowned => .inl ⟨unowned, rfl⟩⟩

theorem rowGoes_same (yard next : Yard) (change : Change) {old row : TaskRow} (id : row.id = old.id)
  (owner : row.ownerToken = old.ownerToken) (sandbox : row.sandboxId = old.sandboxId)
  (last : row.ownerToken = none -> row.lastAt = old.lastAt) : RowGoes yard next change old row :=
  ⟨id, .inl owner, .inl sandbox, fun unowned => .inl ⟨owner.symm.trans unowned, last unowned⟩⟩

variable {yard : Yard}

theorem goes_store {change : Change}
  (rows : ∀ row ∈ store.tasks, ∃ old ∈ yard.store.tasks, RowGoes yard (yard.write store) change old row) :
  Goes yard (yard.write store) change :=
  ⟨fun row mem => .inl (rows row mem), fun _ mem => .inl mem, List.Subset.refl _, List.Subset.refl _,
    List.Subset.refl _, le_refl _⟩

theorem goes_self (yard : Yard) (change : Change) : Goes yard yard change :=
  ⟨fun row mem => .inl ⟨row, mem, rowGoes_self yard yard change row⟩, fun _ mem => .inl mem, List.Subset.refl _,
    List.Subset.refl _, List.Subset.refl _, le_refl _⟩

theorem goes_updateTasks {change : Change} {selected : TaskRow -> Bool} {update : TaskRow -> TaskRow}
  (step : ∀ old ∈ yard.store.tasks, selected old ->
    RowGoes yard (yard.write (yard.store.updateTasks selected update)) change old (update old)) :
  Goes yard (yard.write (yard.store.updateTasks selected update)) change := by
  apply goes_store
  intro row mem
  rcases mem_updateWhere.mp mem with ⟨isOld, _⟩ | ⟨old, isOld, isSelected, same⟩
  · exact ⟨row, isOld, rowGoes_self _ _ _ row⟩
  · rw [<- same]
    exact ⟨old, isOld, step old isOld isSelected⟩

theorem goes_setSandbox (isMade : (own, taskId) ∈ yard.made) :
  Goes yard (yard.write (yard.store.setSandbox taskId (some token) (some own) none)) ⟨some token, none, some own⟩ := by
  apply goes_updateTasks
  intro _ _ isOwned
  rcases of_decide_eq_true isOwned with ⟨isTask, isOwner⟩
  refine ⟨rfl, .inl rfl, .inr (.inl ⟨.inr isOwner, .inr ⟨own, rfl, rfl, ?_⟩⟩), ?_⟩
  · rw [isTask]
    exact isMade
  · intro unowned
    exact .inl ⟨unowned, rfl⟩

theorem goes_unsetSandbox :
  Goes yard (yard.write (yard.store.setSandbox taskId (some token) none none)) ⟨some token, none, none⟩ := by
  apply goes_updateTasks
  intro _ _ isOwned
  refine ⟨rfl, .inl rfl, .inr (.inl ⟨.inr (of_decide_eq_true isOwned).2, .inl rfl⟩), ?_⟩
  intro unowned
  exact .inl ⟨unowned, rfl⟩

theorem goes_setStatus {notice : Option Text} {started : Bool}
  (set : yard.store.setStatus taskId token status notice started yard.clock = .ok store) :
  Goes yard (yard.write store) Change.none := by
  unfold setStatus at set
  by_cases active : status.isActive
  · rw [if_pos active] at set
    cases set
    apply goes_updateTasks
    intro old _ isOwned
    refine rowGoes_same _ _ _ rfl rfl rfl ?_
    intro unowned
    have isOwner := (of_decide_eq_true isOwned).2
    rw [show old.ownerToken = none from unowned] at isOwner
    cases isOwner
  · rw [if_neg active] at set
    cases set

theorem goes_renew (taskId token : ℕ) : Goes yard (yard.write (yard.store.renewLease taskId token yard.clock)) Change.none := by
  apply goes_updateTasks
  intro _ _ _
  exact rowGoes_same _ _ _ rfl rfl rfl (fun _ => rfl)

theorem goes_finish {summary error : Text} {expiresAt : Option ℤ}
  (finished : yard.store.finish taskId token status summary error expiresAt yard.clock = .ok store) :
  Goes yard (yard.write store) Change.none := by
  unfold finish at finished
  by_cases terminal : status.isTerminal
  · rw [if_pos terminal] at finished
    cases finished
    apply goes_updateTasks
    intro _ _ _
    exact ⟨rfl, .inr (.inl rfl), .inl rfl, fun _ => .inr rfl⟩
  · rw [if_neg terminal] at finished
    cases finished

theorem mem_recoverStale {listed : List ℕ} {error : Text} {keepUntil : ℤ} {now : ℚ} {row : TaskRow}
  (mem : row ∈ (store.recoverStale listed error status keepUntil now).tasks) :
  ∃ old ∈ store.tasks, row.id = old.id /\ row.sandboxId = old.sandboxId /\
    (row = old \/ (row.ownerToken = none /\ row.lastAt = dbNow now)) := by
  unfold recoverStale at mem
  induction listed generalizing store with
  | nil => exact ⟨row, mem, rfl, rfl, .inl rfl⟩
  | cons taskId rest ih =>
    rcases ih mem with ⟨middle, isMiddle, id, sandbox, how⟩
    rcases mem_updateWhere.mp isMiddle with ⟨isOld, _⟩ | ⟨old, isOld, _, same⟩
    · exact ⟨middle, isOld, id, sandbox, how⟩
    · rw [<- same] at id sandbox how
      refine ⟨old, isOld, id, sandbox, .inr ?_⟩
      rcases how with isRow | ended
      · rw [isRow]
        exact ⟨rfl, rfl⟩
      · exact ended

theorem goes_recoverStale (listed : List ℕ) (error : Text) (status : TaskStatus) (keepUntil : ℤ) :
  Goes yard (yard.write (yard.store.recoverStale listed error status keepUntil yard.clock)) Change.none := by
  apply goes_store
  intro _ mem
  rcases mem_recoverStale mem with ⟨old, isOld, id, sandbox, same | ⟨unowned, now⟩⟩
  · rw [same]
    exact ⟨old, isOld, rowGoes_self _ _ _ old⟩
  · exact ⟨old, isOld, id, .inr (.inl unowned), .inl sandbox, fun _ => .inr now⟩

theorem goes_clearSandbox (gone : yard.Gone own) :
  Goes yard (yard.write (yard.store.clearSandbox taskId own)) Change.none := by
  apply goes_updateTasks
  intro _ _ isSelected
  refine ⟨rfl, .inl rfl, .inr (.inr ⟨rfl, own, (of_decide_eq_true isSelected).2, gone⟩), ?_⟩
  intro unowned
  exact .inl ⟨unowned, rfl⟩

theorem goes_takeKept : Goes yard (yard.write yard.store.takeKeptSandbox.1) Change.none := by
  unfold takeKeptSandbox
  cases yard.store.firstKept with
  | none => exact goes_self yard Change.none
  | some row =>
    apply goes_updateTasks
    intro _ _ isSelected
    refine ⟨rfl, .inl rfl, .inr (.inl ⟨.inl (of_decide_eq_true isSelected).2.2, .inl rfl⟩), ?_⟩
    intro unowned
    exact .inl ⟨unowned, rfl⟩

theorem goes_expireSandboxNow (taskId own : ℕ) :
  Goes yard (yard.write (yard.store.expireSandboxNow taskId own yard.clock)) Change.none := by
  apply goes_updateTasks
  intro _ _ _
  exact rowGoes_same _ _ _ rfl rfl rfl (fun _ => rfl)

theorem goes_forgetSandbox (own : ℕ) : Goes yard (yard.write (yard.store.forgetSandbox own)) Change.none := by
  apply goes_updateTasks
  intro _ _ isSelected
  refine ⟨rfl, .inl rfl, .inr (.inl ⟨.inl (of_decide_eq_true isSelected).2, .inl rfl⟩), ?_⟩
  intro unowned
  exact .inl ⟨unowned, rfl⟩

theorem goes_giveBack (isMade : (own, taskId) ∈ yard.made) :
  Goes yard (yard.write (yard.store.giveBackKeptSandbox taskId own yard.clock)) ⟨none, none, some own⟩ := by
  apply goes_updateTasks
  intro _ _ isSelected
  rcases of_decide_eq_true isSelected with ⟨isTask, _, isUnowned⟩
  refine ⟨rfl, .inl rfl, .inr (.inl ⟨.inl isUnowned, .inr ⟨own, rfl, rfl, ?_⟩⟩), ?_⟩
  · rw [isTask]
    exact isMade
  · intro unowned
    exact .inl ⟨unowned, rfl⟩

theorem goes_deleteIfOld (taskId : ℕ) (cutoff : ℤ) : Goes yard (yard.write (yard.store.deleteIfOld taskId cutoff).1) Change.none := by
  unfold deleteIfOld
  split
  · apply goes_store
    intro row mem
    exact ⟨row, (mem_deleteWhere.mp mem).1, rowGoes_self _ _ _ row⟩
  · exact goes_self yard Change.none

theorem goes_without (own : ℕ) : Goes yard (yard.without own) Change.none :=
  ⟨fun row mem => .inl ⟨row, mem, rowGoes_self _ _ _ row⟩, fun _ mem => .inl (mem_filter.mp mem).1,
    List.Subset.refl _, List.Subset.refl _, List.Subset.refl _, le_refl _⟩

theorem goes_delete (own : ℕ) (answer : Answer) : Goes yard (yard.delete own answer) Change.none := by
  cases answer with
  | ok | late | removed => exact goes_without own
  | failed | notFound => exact goes_self yard Change.none

theorem goes_add {session : ℕ} (new : own ∉ yard.made.map fst) : Goes yard (yard.add session own) Change.none := by
  refine ⟨fun row mem => .inl ⟨row, mem, rowGoes_self _ _ _ row⟩, ?_, subset_append_left _ _, List.Subset.refl _,
    List.Subset.refl _, le_refl _⟩
  exact forall_mem_snoc (fun box old => .inl old) (.inr ⟨new, rfl⟩)

variable {maxUser : Option ℕ} {maxSite : ℕ}

theorem goes_resume {modelId : Option ℕ} {modelName : Option Text} (fresh : token ∉ yard.issued.map snd)
  (resumed : yard.store.resume taskId token maxUser maxSite modelId modelName yard.clock = .ok (some store)) :
  Goes yard { yard with store := store, issued := yard.issued ++ [(taskId, token)] } ⟨none, some taskId, none⟩ := by
  refine ⟨?_, fun _ mem => .inl mem, List.Subset.refl _, List.Subset.refl _, subset_append_left _ _, le_refl _⟩
  intro row mem
  rw [resume_ok resumed] at mem
  rcases mem_updateWhere.mp mem with ⟨isOld, _⟩ | ⟨old, isOld, isTask, same⟩
  · exact .inl ⟨row, isOld, rowGoes_self _ _ _ row⟩
  · rw [<- same]
    refine .inl ⟨old, isOld, rfl, .inr (.inr ⟨?_, token, rfl, fresh⟩), .inl rfl, ?_⟩
    · rw [show (TaskStore.resumed token modelId modelName yard.clock old).id = taskId from of_decide_eq_true isTask]
    · intro clash
      cases clash

theorem goes_create {task : NewTask} (new : task.id ∉ yard.used)
  (created : yard.store.create task token maxUser maxSite yard.clock = .ok store) :
  Goes yard { yard with store := store, used := yard.used ++ [task.id], issued := yard.issued ++ [(task.id, token)] }
    Change.none := by
  refine ⟨?_, fun _ mem => .inl mem, List.Subset.refl _, subset_append_left _ _, subset_append_left _ _, le_refl _⟩
  intro row mem
  rw [(create_ok created).2.1] at mem
  rcases mem_snoc.mp mem with isOld | isNew
  · exact .inl ⟨row, isOld, rowGoes_self _ _ _ row⟩
  · rw [isNew]
    exact .inr ⟨new, rfl, Option.some_ne_none _, mem_concat_self⟩

theorem goes_wait {clock : ℚ} (later : yard.clock <= clock) : Goes yard { yard with clock := clock } Change.none :=
  ⟨fun row mem => .inl ⟨row, mem, rowGoes_self _ _ _ row⟩, fun _ mem => .inl mem, List.Subset.refl _,
    List.Subset.refl _, List.Subset.refl _, later⟩

end BananaChat.Agents

import BananaChat.Agents.Leftovers
import BananaChat.Agents.SandboxRows
import BananaChat.Foundation.Numbered

namespace BananaChat.Agents

open Foundation List Option Rows Numbered

/-!
# Nothing is left running

Processes are in the sandbox of a task only while its run remembers that it ran a command,
while recovery has still to look at the task, or when the sandbox is due for removal.
-/

namespace TaskState

variable (state : TaskState)

def Clean (row : TaskRow) : Prop := ∀ own, row.sandboxId = some own -> ¬ state.Holds own

def Watched (row : TaskRow) (run : TaskRun) : Prop :=
  ∀ own, row.sandboxId = some own -> state.Holds own ->
    run.sandboxId = some own /\ run.runner /\ (run.sandboxDirty \/ run.removeSandbox)

def RunFine (row : TaskRow) (run : TaskRun) : Stage -> Prop
  | .launched => state.Clean row
  | .naming | .starting => state.Clean row /\ ∀ own, run.sandboxId = some own -> ¬ state.Holds own
  | .created own => state.Clean row /\ ¬ state.Holds own /\ run.runner
  | .working | .losing => state.Watched row run /\ run.runner
  | .ending | .stopping _ => state.Watched row run
  | .finishing keep => state.Watched row run /\
      ∀ own, row.sandboxId = some own -> state.Holds own -> run.removeNow keep
  | .dropping _ | .removing | .clearing | .ended => True

end TaskState

def Recovery.covers (taskId own : ℕ) : Recovery -> Bool
  | .reading tasks => taskId ∈ tasks
  | .stopping task sandboxId tasks | .expiring task sandboxId tasks => (task = taskId /\ sandboxId = own) \/ taskId ∈ tasks
  | .ended => false

variable {own index : ℕ} {recovery : Recovery} {after : TaskState} {change : TaskRow -> TaskRow}
  {selected : TaskRow -> Bool} {store : TaskStore} {error : Text} {status : TaskStatus}

theorem covers_concerns {taskId : ℕ} (covers : recovery.covers taskId own) :
  recovery.concerns taskId := by
  cases recovery with
  | reading tasks => exact covers
  | stopping task sandboxId tasks | expiring task sandboxId tasks =>
    exact decide_eq_true ((of_decide_eq_true covers).imp_left And.left)
  | ended => cases covers

structure TaskKept (taskId : ℕ) (state : TaskState) : Prop where
  ids : (state.store.tasks.map TaskRow.id).Nodup
  sole : ∀ row ∈ state.store.tasks, row.id = taskId
  owners : ∀ row ∈ state.store.tasks, ∀ token, row.ownerToken = some token -> token ∈ state.issued
  runs : ∀ run ∈ state.runs, run.token ∈ state.issued
  tokens : Numbered.Apart (some ·.token) state.runs
  inside : ∀ own, state.Holds own -> own ∈ state.boxes
  made : state.boxes ⊆ state.made
  owned : ∀ row ∈ state.store.tasks, ∀ run ∈ state.runs, row.ownerToken = some run.token ->
    state.RunFine row run run.stage
  covered : ∀ row ∈ state.store.tasks, row.ownerToken = none -> ∀ own, row.sandboxId = some own -> state.Holds own ->
    state.due row \/ ∃ recovery ∈ state.recoveries, recovery.covers taskId own

/-- A row whose lease is left alone goes on, or its sandbox is taken off, or becomes due. -/
structure RowStays (state next : TaskState) (old row : TaskRow) : Prop where
  id : row.id = old.id
  owner : row.ownerToken = old.ownerToken
  sandbox : row.sandboxId = old.sandboxId \/ row.sandboxId = none \/ (old.ownerToken = none /\ next.due row)
  due : old.ownerToken = none -> state.due old -> next.due row \/ row.sandboxId = none

section Stays

variable {taskId : ℕ} {state next : TaskState} {old row : TaskRow}

theorem RowStays.refl (later : state.clock <= next.clock) : RowStays state next row row := by
  refine ⟨rfl, rfl, .inl rfl, ?_⟩
  intro _ due
  unfold TaskState.due at due ⊢
  cases expires : row.sandboxExpiresAt with
  | none =>
    rw [expires] at due
    cases due
  | some moment =>
    rw [expires] at due
    exact .inl (decide_eq_true ((of_decide_eq_true due).trans (Int.floor_le_floor later)))

theorem TaskState.Clean.mono (clean : state.Clean old) (fewer : ∀ own, next.Holds own -> state.Holds own)
  (sandbox : row.sandboxId = old.sandboxId \/ row.sandboxId = none) : next.Clean row := by
  intro own isOwn holds
  rcases sandbox with same | cleared
  · exact clean own (same.symm.trans isOwn) (fewer own holds)
  · rw [cleared] at isOwn
    cases isOwn

theorem TaskState.Watched.mono {run : TaskRun} (watched : state.Watched old run) (fewer : ∀ own, next.Holds own -> state.Holds own)
  (sandbox : row.sandboxId = old.sandboxId \/ row.sandboxId = none) : next.Watched row run := by
  intro own isOwn holds
  rcases sandbox with same | cleared
  · exact watched own (same.symm.trans isOwn) (fewer own holds)
  · rw [cleared] at isOwn
    cases isOwn

theorem TaskState.Clean.watched (clean : state.Clean row) (run : TaskRun) : state.Watched row run :=
  fun own isOwn holds => absurd holds (clean own isOwn)

theorem TaskState.RunFine.mono {run : TaskRun} {stage : Stage} (fine : state.RunFine old run stage)
  (fewer : ∀ own, next.Holds own -> state.Holds own) (sandbox : row.sandboxId = old.sandboxId \/ row.sandboxId = none) :
  next.RunFine row run stage := by
  cases stage with
  | launched => exact TaskState.Clean.mono fine fewer sandbox
  | naming | starting => exact ⟨fine.1.mono fewer sandbox, fun own isOwn holds => fine.2 own isOwn (fewer own holds)⟩
  | created own => exact ⟨fine.1.mono fewer sandbox, fun holds => fine.2.1 (fewer own holds), fine.2.2⟩
  | working | losing => exact ⟨fine.1.mono fewer sandbox, fine.2⟩
  | ending | stopping keep => exact TaskState.Watched.mono fine fewer sandbox
  | finishing keep =>
    refine ⟨fine.1.mono fewer sandbox, ?_⟩
    intro own isOwn holds
    rcases sandbox with same | cleared
    · exact fine.2 own (same.symm.trans isOwn) (fewer own holds)
    · rw [cleared] at isOwn
      cases isOwn
  | dropping own | removing | clearing | ended => trivial

theorem RowStays.covered (kept : TaskKept taskId state) (isOld : old ∈ state.store.tasks) (stays : RowStays state next old row)
  (fewer : ∀ own, next.Holds own -> state.Holds own) (unowned : row.ownerToken = none) (isOwn : row.sandboxId = some own)
  (holds : next.Holds own) :
  next.due row \/ ∃ recovery ∈ state.recoveries, recovery.covers taskId own := by
  have oldUnowned : old.ownerToken = none := stays.owner.symm.trans unowned
  rcases stays.sandbox with same | cleared | ⟨_, due⟩
  · rcases kept.covered old isOld oldUnowned own (same.symm.trans isOwn) (fewer own holds) with due | covered
    · rcases stays.due oldUnowned due with still | cleared
      · exact .inl still
      · rw [cleared] at isOwn
        cases isOwn
    · exact .inr covered
  · rw [cleared] at isOwn
    cases isOwn
  · exact .inl due

theorem RowStays.sandbox_owned (stays : RowStays state next old row) {token : ℕ} (owned : row.ownerToken = some token) :
  row.sandboxId = old.sandboxId \/ row.sandboxId = none := by
  rcases stays.sandbox with same | cleared | ⟨unowned, _⟩
  · exact .inl same
  · exact .inr cleared
  · rw [<- stays.owner, owned] at unowned
    cases unowned

end Stays

section Steps

variable {taskId : ℕ} {state : TaskState} (kept : TaskKept taskId state)

include kept

def OwnRow (after : TaskState) (token : ℕ) (old row : TaskRow) : Prop :=
  old.ownerToken = some token /\ row.id = old.id /\ (row.ownerToken = some token \/
    (row.ownerToken = none /\ ∀ own, row.sandboxId = some own -> after.Holds own -> after.due row))

omit kept in
theorem task_eq (kept : TaskKept taskId state) {first second : TaskRow} (isFirst : first ∈ state.store.tasks)
  (isSecond : second ∈ state.store.tasks) : first = second :=
  eq_of_key kept.ids isFirst isSecond ((kept.sole first isFirst).trans (kept.sole second isSecond).symm)

theorem kept_move {run moved : TaskRun} (found : state.runs[index]? = some run)
  (ids : after.store.tasks.map TaskRow.id = state.store.tasks.map TaskRow.id)
  (rows : ∀ row ∈ after.store.tasks, ∃ old ∈ state.store.tasks,
    (RowStays state after old row \/ OwnRow after run.token old row))
  (beside : after.recoveries = state.recoveries /\ after.issued = state.issued) (token : moved.token = run.token)
  (fewer : (∀ own, after.Holds own -> state.Holds own) \/ ∀ row ∈ after.store.tasks, row.ownerToken = some run.token)
  (inside : ∀ own, after.Holds own -> own ∈ after.boxes) (made : after.boxes ⊆ after.made)
  (fine : ∀ row ∈ after.store.tasks, row.ownerToken = some run.token -> after.RunFine row moved moved.stage) :
  TaskKept taskId { after with runs := state.runs.set index moved } := by
  have mine := mem_of_getElem? found
  refine ⟨?_, ?_, ?_, ?_, ?_, inside, made, ?_, ?_⟩
  · rw [ids]
    exact kept.ids
  · intro row mem
    rcases rows row mem with ⟨old, isOld, stays | own⟩
    · exact stays.id.trans (kept.sole old isOld)
    · exact own.2.1.trans (kept.sole old isOld)
  · intro row mem owner isOwner
    rw [beside.2]
    rcases rows row mem with ⟨old, isOld, stays | own⟩
    · exact kept.owners old isOld owner (stays.owner.symm.trans isOwner)
    · rcases own.2.2 with owned | ⟨unowned, _⟩
      · rw [owned] at isOwner
        rw [<- some.inj isOwner]
        exact kept.runs run mine
      · rw [unowned] at isOwner
        cases isOwner
  · intro other mem
    rw [beside.2]
    rcases mem_set found mem with isMoved | ⟨place, _, isPlace⟩
    · rw [isMoved, token]
      exact kept.runs run mine
    · exact kept.runs other (mem_of_getElem? isPlace)
  · apply kept.tokens.set found
    intro own isOwn
    rw [token] at isOwn
    exact .inl isOwn
  · intro row mem other isOther owned
    rcases mem_set found isOther with isMoved | ⟨place, apart, isPlace⟩
    · rw [isMoved] at owned ⊢
      exact fine row mem (owned.trans (congrArg some token))
    · -- Another run has another token.
      have differ : row.ownerToken ≠ some run.token := by
        intro same
        exact apart (kept.tokens place index other run other.token isPlace found rfl (same.symm.trans owned))
      rcases fewer with fewer | all
      · rcases rows row mem with ⟨old, isOld, stays | own⟩
        · have wasFine := kept.owned old isOld other (mem_of_getElem? isPlace) (stays.owner.symm.trans owned)
          exact wasFine.mono fewer (stays.sandbox_owned owned)
        · rcases own.2.2 with same | ⟨unowned, _⟩
          · exact absurd same differ
          · rw [unowned] at owned
            cases owned
      · exact absurd (all row mem) differ
  · intro row mem unowned own isOwn holds
    rcases fewer with fewer | all
    · rcases rows row mem with ⟨_, isOld, stays | mine⟩
      · rcases stays.covered kept isOld fewer unowned isOwn holds with due | ⟨recovery, isRecovery, covers⟩
        · exact .inl due
        · refine .inr ⟨recovery, ?_, covers⟩
          rw [beside.1]
          exact isRecovery
      · rcases mine.2.2 with owned | ⟨_, due⟩
        · rw [unowned] at owned
          cases owned
        · exact .inl (due own isOwn holds)
    · rw [all row mem] at unowned
      cases unowned

theorem kept_beside (ids : after.store.tasks.map TaskRow.id = state.store.tasks.map TaskRow.id)
  (rows : ∀ row ∈ after.store.tasks, ∃ old ∈ state.store.tasks,
    (RowStays state after old row \/ row.ownerToken = none /\ row.id = old.id))
  (beside : after.runs = state.runs /\ after.issued = state.issued)
  (fewer : ∀ own, after.Holds own -> state.Holds own) (inside : ∀ own, after.Holds own -> own ∈ after.boxes)
  (made : after.boxes ⊆ after.made)
  (covered : ∀ row ∈ after.store.tasks, row.ownerToken = none -> ∀ own, row.sandboxId = some own -> after.Holds own ->
    after.due row \/ ∃ recovery ∈ after.recoveries, recovery.covers taskId own) :
  TaskKept taskId after := by
  refine ⟨?_, ?_, ?_, ?_, ?_, inside, made, ?_, covered⟩
  · rw [ids]
    exact kept.ids
  · intro row mem
    rcases rows row mem with ⟨old, isOld, stays | ended⟩
    · exact stays.id.trans (kept.sole old isOld)
    · exact ended.2.trans (kept.sole old isOld)
  · intro row mem owner isOwner
    rw [beside.2]
    rcases rows row mem with ⟨old, isOld, stays | ended⟩
    · exact kept.owners old isOld owner (stays.owner.symm.trans isOwner)
    · rw [ended.1] at isOwner
      cases isOwner
  · rw [beside.1, beside.2]
    exact kept.runs
  · rw [beside.1]
    exact kept.tokens
  · intro row mem run isRun owned
    rw [beside.1] at isRun
    rcases rows row mem with ⟨old, isOld, stays | ended⟩
    · exact (kept.owned old isOld run isRun (stays.owner.symm.trans owned)).mono fewer (stays.sandbox_owned owned)
    · rw [ended.1] at owned
      cases owned

end Steps

/-- A step that changes nothing but sandboxes, and starts no process. -/
structure Shrinks (state after : TaskState) : Prop where
  store : after.store = state.store
  recoveries : after.recoveries = state.recoveries
  issued : after.issued = state.issued
  runs : after.runs = state.runs
  clock : after.clock = state.clock
  fewer : ∀ own, after.Holds own -> state.Holds own
  inside : (∀ own, state.Holds own -> own ∈ state.boxes) -> ∀ own, after.Holds own -> own ∈ after.boxes
  made : state.boxes ⊆ state.made -> after.boxes ⊆ after.made

section Sandboxes

variable (state : TaskState) {own other : ℕ}

theorem Shrinks.refl : Shrinks state state :=
  ⟨rfl, rfl, rfl, rfl, rfl, fun _ holds => holds, fun inside => inside, fun made => made⟩

theorem holds_filtered {processes : List (ℕ × ℕ)}
  (holds : ∃ process, (own, process) ∈ processes.filter (·.1 ≠ other)) :
  (∃ process, (own, process) ∈ processes) /\ own ≠ other := by
  rcases holds with ⟨process, mem⟩
  rcases mem_filter.mp mem with ⟨isOld, apart⟩
  exact ⟨⟨process, isOld⟩, of_decide_eq_true apart⟩

theorem holds_kill (holds : (state.kill other).Holds own) : state.Holds own /\ own ≠ other := holds_filtered holds

theorem holds_removeBox (holds : (state.removeBox other).Holds own) : state.Holds own /\ own ≠ other := holds_filtered holds

theorem shrinks_kill (sandboxId : ℕ) : Shrinks state (state.kill sandboxId) :=
  ⟨rfl, rfl, rfl, rfl, rfl, fun _ holds => (holds_kill state holds).1, fun inside own holds => inside own (holds_kill state holds).1,
    fun made => made⟩

theorem shrinks_removeBox (sandboxId : ℕ) : Shrinks state (state.removeBox sandboxId) := by
  refine ⟨rfl, rfl, rfl, rfl, rfl, fun _ holds => (holds_removeBox state holds).1, ?_, ?_⟩
  · intro inside own holds
    rcases holds_removeBox state holds with ⟨was, apart⟩
    exact mem_filter.mpr ⟨inside own was, decide_eq_true apart⟩
  · intro made _ mem
    exact made (mem_filter.mp mem).1

theorem shrinks_delete (sandboxId : ℕ) (answer : Answer) : Shrinks state (state.delete sandboxId answer) := by
  cases answer with
  | ok | late | removed => exact shrinks_removeBox state sandboxId
  | failed | notFound => exact Shrinks.refl state

theorem shrinks_interrupt (sandboxId : ℕ) (answer : Answer) : Shrinks state (state.interrupt sandboxId answer) := by
  cases answer with
  | ok | late => exact shrinks_kill state sandboxId
  | removed => exact shrinks_removeBox state sandboxId
  | failed | notFound => exact Shrinks.refl state

theorem interrupted_removes {sandboxId : ℕ} {answer : Answer} (holds : (state.interrupt sandboxId answer).Holds sandboxId)
  (run : TaskRun) : (TaskState.interrupted run answer).removeSandbox := by
  cases answer with
  | ok | late => exact absurd rfl (holds_kill state holds).2
  | removed => exact absurd rfl (holds_removeBox state holds).2
  | failed | notFound => rfl

theorem interrupted_same (run : TaskRun) (answer : Answer) : (TaskState.interrupted run answer).sandboxId = run.sandboxId /\
  (TaskState.interrupted run answer).runner = run.runner /\ (TaskState.interrupted run answer).token = run.token := by
  cases answer <;> exact ⟨rfl, rfl, rfl⟩

end Sandboxes

theorem rows_update {goes : TaskRow -> TaskRow -> Prop} (self : ∀ row, goes row row)
  (changed : ∀ old ∈ store.tasks, selected old -> goes old (change old)) :
  ∀ row ∈ (store.updateTasks selected change).tasks, ∃ old ∈ store.tasks, goes old row := by
  intro row mem
  rcases mem_updateWhere.mp mem with ⟨isOld, _⟩ | ⟨old, isOld, isSelected, same⟩
  · exact ⟨row, isOld, self row⟩
  · rw [<- same]
    exact ⟨old, isOld, changed old isOld isSelected⟩

section Runs

variable {taskId : ℕ} {state : TaskState} (kept : TaskKept taskId state) {index : ℕ} {run moved : TaskRun}
  (found : state.runs[index]? = some run)

include kept found

theorem kept_shrink (shrinks : Shrinks state after) (token : moved.token = run.token)
  (fine : ∀ row ∈ state.store.tasks, state.RunFine row run run.stage -> after.RunFine row moved moved.stage) :
  TaskKept taskId { after with runs := state.runs.set index moved } := by
  refine kept_move kept found ?_ ?_ ⟨shrinks.recoveries, shrinks.issued⟩ token (.inl shrinks.fewer) (shrinks.inside kept.inside)
    (shrinks.made kept.made) ?_
  · rw [shrinks.store]
  · rw [shrinks.store]
    exact fun row mem => ⟨row, mem, .inl (RowStays.refl (le_of_eq shrinks.clock.symm))⟩
  · rw [shrinks.store]
    intro row mem owned
    exact fine row mem (kept.owned row mem run (mem_of_getElem? found) owned)

theorem kept_write (id : ∀ row, (change row).id = row.id) (token : moved.token = run.token)
  (rows : ∀ old ∈ state.store.tasks, selected old ->
    RowStays state (state.write (state.store.updateTasks selected change)) old (change old) \/
      OwnRow (state.write (state.store.updateTasks selected change)) run.token old (change old))
  (fine : ∀ row ∈ (state.store.updateTasks selected change).tasks, row.ownerToken = some run.token ->
    state.RunFine row moved moved.stage) :
  TaskKept taskId { state.write (state.store.updateTasks selected change) with runs := state.runs.set index moved } := by
  refine kept_move kept found (ids_update id) ?_ ⟨rfl, rfl⟩ token (.inl fun _ holds => holds) kept.inside kept.made fine
  exact rows_update (fun row => .inl (RowStays.refl (le_refl _))) rows

omit found in
theorem owned_selected {row : TaskRow} (mem : row ∈ state.store.tasks) {token : ℕ} (owned : row.ownerToken = some token) :
    TaskStore.owned taskId token row := decide_eq_true ⟨kept.sole row mem, owned⟩

theorem kept_writeOwn (id : ∀ row, (change row).id = row.id) (owner : ∀ row, (change row).ownerToken = row.ownerToken)
  (token : moved.token = run.token)
  (fine : ∀ old ∈ state.store.tasks, old.ownerToken = some run.token -> state.RunFine (change old) moved moved.stage) :
  TaskKept taskId { state.write (state.store.updateTasks (TaskStore.owned taskId run.token) change) with
    runs := state.runs.set index moved } := by
  refine kept_write kept found id token ?_ ?_
  · intro old isOld isSelected
    have owned := (of_decide_eq_true isSelected).2
    exact .inr ⟨owned, id old, .inl ((owner old).trans owned)⟩
  · intro _ mem owned
    rcases mem_updateWhere.mp mem with ⟨isOld, unselected⟩ | ⟨old, isOld, isSelected, same⟩
    · exact absurd (owned_selected kept isOld owned) unselected
    · rw [<- same]
      exact fine old isOld (of_decide_eq_true isSelected).2

theorem kept_setSandbox (clean : ∀ row ∈ state.store.tasks, row.ownerToken = some run.token -> ¬ state.Holds own)
  (token : moved.token = run.token) (fine : ∀ row : TaskRow, row.sandboxId = some own -> ¬ state.Holds own ->
    (∃ old ∈ state.store.tasks, state.RunFine old run run.stage) -> state.RunFine row moved moved.stage) :
  TaskKept taskId { state.write (state.store.setSandbox taskId (some run.token) (some own) none) with
    runs := state.runs.set index moved } := by
  refine kept_writeOwn kept found (fun _ => rfl) (fun _ => rfl) token fun old isOld owned => ?_
  exact fine _ rfl (clean old isOld owned) ⟨old, isOld, kept.owned old isOld run (mem_of_getElem? found) owned⟩

theorem kept_create (atWork : run.stage = .working) (without : run.sandboxId = none) (new : own ∉ state.made)
  (isAfter : after = { state with boxes := state.boxes ++ [own], made := state.made ++ [own] }) :
  TaskKept taskId { after with runs := state.runs.set index { run with stage := .created own, sandboxId := none } } := by
  have rows : ∀ row ∈ after.store.tasks, ∃ old ∈ state.store.tasks,
      (RowStays state after old row \/ OwnRow after run.token old row) := by
    rw [isAfter]
    exact fun row mem => ⟨row, mem, .inl (RowStays.refl (le_refl _))⟩
  refine kept_move kept found ?_ rows ?_ rfl (.inl ?_) ?_ ?_ ?_
  all_goals rw [isAfter]
  · exact ⟨rfl, rfl⟩
  · exact fun own holds => holds
  · exact fun other holds => mem_append_left _ (kept.inside other holds)
  · intro _ mem
    rcases mem_append.mp mem with old | isNew
    · exact mem_append_left _ (kept.made old)
    · exact mem_append_right _ isNew
  · intro row mem owned
    have fine := kept.owned row mem run (mem_of_getElem? found) owned
    rw [atWork] at fine
    refine ⟨?_, ?_, fine.2⟩
    · intro other isOther holds
      have same := (fine.1 other isOther holds).1
      rw [without] at same
      cases same
    · exact fun holds => new (kept.made (kept.inside own holds))

theorem kept_exec (atWork : run.stage = .working) (isOwn : run.sandboxId = some own) (isThere : own ∈ state.boxes)
  {left : List ℕ} (lease : left = [] \/ state.store.owns taskId run.token)
  (isAfter : after = { state with processes := state.processes ++ left.map (fun process => (own, process)) }) :
  TaskKept taskId { after with runs := state.runs.set index { run with sandboxId := some own, sandboxDirty := true } } := by
  have rows : ∀ row ∈ after.store.tasks, ∃ old ∈ state.store.tasks,
      (RowStays state after old row \/ OwnRow after run.token old row) := by
    rw [isAfter]
    exact fun row mem => ⟨row, mem, .inl (RowStays.refl (le_refl _))⟩
  have either {other : ℕ} (holds : after.Holds other) : state.Holds other \/ (other = own /\ left ≠ []) := by
    rw [isAfter] at holds
    rcases holds with ⟨process, mem⟩
    rcases mem_append.mp mem with old | isNew
    · exact .inl ⟨process, old⟩
    · rcases mem_map.mp isNew with ⟨_, isStarted, same⟩
      exact .inr ⟨(congrArg Prod.fst same).symm, ne_nil_of_mem isStarted⟩
  have store : after.store = state.store := by rw [isAfter]
  have boxes : after.boxes = state.boxes := by rw [isAfter]
  have made : after.made = state.made := by rw [isAfter]
  refine kept_move kept found ?_ rows ?_ rfl ?_ ?_ ?_ ?_
  · rw [store]
  · rw [isAfter]
    exact ⟨rfl, rfl⟩
  · rcases lease with nothing | owns
    · exact .inl (fun other holds => (either holds).resolve_right (·.2 nothing))
    · refine .inr ?_
      intro row mem
      rw [store] at mem
      rcases owns_eq_true_iff.mp owns with ⟨_, isOwner, _, isToken⟩
      rw [task_eq kept mem isOwner]
      exact isToken
  · intro other holds
    rw [boxes]
    rcases either holds with was | ⟨same, _⟩
    · exact kept.inside other was
    · rw [same]
      exact isThere
  · rw [boxes, made]
    exact kept.made
  · intro row mem owned
    rw [store] at mem
    have fine := kept.owned row mem run (mem_of_getElem? found) owned
    rw [atWork] at fine
    rw [atWork]
    refine ⟨?_, fine.2⟩
    intro other isOther holds
    rcases either holds with was | ⟨same, _⟩
    · exact ⟨isOwn.symm.trans (fine.1 other isOther was).1, fine.2, .inl rfl⟩
    · rw [same]
      exact ⟨rfl, fine.2, .inl rfl⟩

theorem kept_finish {keep : ℕ} (atEnd : run.stage = .finishing keep) {summary : Text} {moment : ℚ}
  (early : moment <= state.clock) (finished : state.store.finish taskId run.token status summary error
    (some (if run.removeNow keep then dbNow moment else dbNow moment + 60 * keep)) state.clock = .ok store)
  {stage : Stage} :
  TaskKept taskId { state.write store with runs := state.runs.set index { run with stage := stage } } := by
  unfold TaskStore.finish at finished
  by_cases terminal : status.isTerminal
  · rw [if_pos terminal] at finished
    cases finished
    refine kept_write kept found (fun _ => rfl) rfl ?_ ?_
    · intro old isOld isSelected
      have owned := (of_decide_eq_true isSelected).2
      refine .inr ⟨owned, rfl, .inr ⟨rfl, ?_⟩⟩
      intro own isOwn holds
      have fine := kept.owned old isOld run (mem_of_getElem? found) owned
      rw [atEnd] at fine
      have names : old.sandboxId = some own := isOwn
      have removes := fine.2 own names holds
      simp only [TaskStore.ended, names, removes, isSome_some, if_true]
      exact decide_eq_true (Int.floor_le_floor early)
    · intro _ mem owned
      rcases mem_updateWhere.mp mem with ⟨isOld, unselected⟩ | ⟨_, _, _, same⟩
      · exact absurd (owned_selected kept isOld owned) unselected
      · rw [<- same] at owned
        cases owned
  · rw [if_neg terminal] at finished
    cases finished

omit kept found in
theorem removeNow_of_not_mustStop {keep : ℕ} {row : TaskRow} (skips : run.mustStop keep = false) (watched : state.Watched row run) :
  ∀ own, row.sandboxId = some own -> state.Holds own -> run.removeNow keep := by
  intro own names holds
  rcases watched own names holds with ⟨isOwn, client, flagged⟩
  unfold TaskRun.mustStop at skips
  unfold TaskRun.removeNow
  rw [isOwn, client] at skips
  by_cases nothing : keep = 0
  · rw [decide_eq_true nothing]
    rfl
  · cases removes : run.removeSandbox with
    | true => exact Bool.or_true _
    | false =>
      have dirty : run.sandboxDirty := by
        rcases flagged with dirty | removing
        · exact dirty
        · rw [removes] at removing
          cases removing
      rw [decide_eq_true nothing, dirty, removes] at skips
      cases skips

theorem kept_run {move : RunMove} (orderly : state.Cautious taskId (.run index move))
  (stepped : state.runStep taskId run run.stage move = some (after, moved)) :
  TaskKept taskId { after with runs := state.runs.set index moved } := by
  have shrink {after : TaskState} {moved : TaskRun} (shrinks : Shrinks state after) (token : moved.token = run.token)
      (fine : ∀ row ∈ state.store.tasks, state.RunFine row run run.stage -> after.RunFine row moved moved.stage) :=
    kept_shrink kept found shrinks token fine
  have self := Shrinks.refl state
  have owner {row : TaskRow} (mem : row ∈ state.store.tasks) (owned : row.ownerToken = some run.token) :=
    kept.owned row mem run (mem_of_getElem? found) owned
  generalize atStage : run.stage = stage at stepped shrink owner
  unfold TaskState.runStep at stepped
  split at stepped
  case h_1 =>
    cases got : state.store.get taskId with
    | none =>
      rw [got] at stepped
      cases stepped
      exact shrink self rfl (fun _ _ _ => trivial)
    | some row =>
      rw [got] at stepped
      dsimp only at stepped
      by_cases owned : row.ownerToken = some run.token
      · rw [if_pos owned] at stepped
        cases stepped
        refine shrink self rfl ?_
        intro other mem clean
        rw [task_eq kept mem (mem_of_find?_eq_some got)] at clean ⊢
        exact ⟨clean, clean⟩
      · rw [if_neg owned] at stepped
        cases stepped
        exact shrink self rfl (fun _ _ _ => trivial)
  case h_2 =>
    cases isOwn : run.sandboxId with
    | none =>
      rw [isOwn] at stepped
      cases stepped
      exact shrink self rfl (fun _ _ fine => ⟨fine.1, fun _ clash => by cases clash⟩)
    | some own =>
      rw [isOwn] at stepped
      cases stepped
      refine kept_setSandbox kept found ?_ rfl ?_
      · intro row mem owned
        exact (owner mem owned).2 own isOwn
      · rintro row names clean ⟨old, isOld, fine⟩
        rw [atStage] at fine
        refine ⟨?_, fun other isOther => fine.2 other (isOwn.trans isOther)⟩
        intro other isOther
        rw [<- some.inj (names.symm.trans isOther)]
        exact clean
  case h_3 available =>
    by_cases owns : state.store.owns taskId run.token
    · rw [if_pos owns] at stepped
      cases stepped
      refine kept_writeOwn kept found (fun _ => rfl) (fun _ => rfl) rfl fun old isOld owned => ?_
      have clean := (owner isOld owned).1
      cases available with
      | true => exact ⟨clean.watched _, rfl⟩
      | false => exact clean.watched _
    · rw [if_neg owns] at stepped
      cases stepped
      exact shrink self rfl (fun _ _ _ => trivial)
  case h_4 own =>
    cases without : run.sandboxId with
    | some other =>
      rw [without] at stepped
      cases stepped
    | none =>
      rw [without] at stepped
      by_cases old : own ∈ state.made
      · rw [decide_eq_true old] at stepped
        cases stepped
      · rw [decide_eq_false old] at stepped
        cases stepped
        exact kept_create kept found atStage without old rfl
  case h_5 own =>
    by_cases owns : state.store.owns taskId run.token
    · rw [if_pos owns] at stepped
      cases stepped
      refine kept_setSandbox kept found ?_ rfl ?_
      · intro row mem owned
        exact (owner mem owned).2.1
      · rintro row names clean ⟨old, isOld, fine⟩
        rw [atStage] at fine
        refine ⟨TaskState.Clean.watched ?_ _, fine.2.2⟩
        intro other isOther
        rw [<- some.inj (names.symm.trans isOther)]
        exact clean
    · rw [if_neg owns] at stepped
      cases stepped
      exact shrink self rfl (fun _ _ _ => trivial)
  case h_6 own answer =>
    cases stepped
    exact shrink (shrinks_delete state own answer) rfl (fun _ _ _ => trivial)
  case h_7 left removed =>
    cases isOwn : run.sandboxId with
    | none =>
      rw [isOwn] at stepped
      cases stepped
    | some own =>
      rw [isOwn] at stepped
      dsimp only at stepped
      by_cases isThere : own ∈ state.boxes
      · rw [if_pos isThere] at stepped
        cases removed with
        | true =>
          rw [if_pos rfl] at stepped
          cases stepped
          have shrinks := shrinks_removeBox state own
          refine shrink shrinks rfl ?_
          intro row _ fine
          refine ⟨?_, fine.2⟩
          intro other names holds
          exact ⟨isOwn.symm.trans (fine.1 other names (shrinks.fewer other holds)).1, fine.2, .inl rfl⟩
        | false =>
          rw [if_neg Bool.false_ne_true] at stepped
          cases stepped
          have lease : left = [] \/ state.store.owns taskId run.token := by
            cases left with
            | nil => exact .inl rfl
            | cons first rest => exact .inr (orderly run found)
          exact kept_exec kept found atStage isOwn isThere lease rfl
      · rw [if_neg isThere] at stepped
        cases stepped
  case h_8 command =>
    cases isOwn : run.sandboxId with
    | none =>
      rw [isOwn] at stepped
      cases stepped
    | some own =>
      rw [isOwn] at stepped
      dsimp only at stepped
      by_cases isThere : own ∈ state.boxes
      · rw [if_pos isThere] at stepped
        cases stepped
      · rw [if_neg isThere] at stepped
        cases stepped
        refine shrink self rfl ?_
        intro row _ fine
        refine ⟨?_, fine.2⟩
        intro other names holds
        rcases fine.1 other names holds with ⟨same, client, flagged⟩
        refine ⟨isOwn.symm.trans same, client, flagged.imp_left ?_⟩
        intro dirty
        change (run.sandboxDirty || command)
        rw [dirty]
        rfl
  case h_9 =>
    cases stepped
    refine kept_writeOwn kept found (fun _ => rfl) (fun _ => rfl) rfl fun old isOld owned => ⟨?_, (owner isOld owned).2⟩
    intro own clash
    cases clash
  case h_10 answer =>
    cases isOwn : run.sandboxId with
    | none =>
      rw [isOwn] at stepped
      cases stepped
    | some own =>
      rw [isOwn] at stepped
      cases stepped
      have shrinks := shrinks_interrupt state own answer
      rcases interrupted_same run answer with ⟨sandbox, client, token⟩
      refine shrink shrinks token ?_
      intro row _ fine other names holds
      rcases fine.1 other names (shrinks.fewer other holds) with ⟨same, isClient, _⟩
      refine ⟨sandbox.trans same, client.trans isClient, .inr ?_⟩
      rw [<- some.inj (isOwn.symm.trans same)] at holds
      exact interrupted_removes state holds run
  case h_11 =>
    cases stepped
    exact shrink self rfl (fun _ _ fine => TaskState.Clean.watched fine _)
  case h_12 =>
    cases stepped
    exact shrink self rfl (fun _ _ fine => fine.1.watched _)
  case h_13 =>
    cases stepped
    exact shrink self rfl (fun _ _ fine => fine.1.watched _)
  case h_14 =>
    cases stepped
    exact shrink self rfl (fun _ _ fine => fine.1)
  case h_15 =>
    cases stepped
    exact shrink self rfl (fun _ _ fine => fine.1.watched _)
  case h_16 =>
    cases stepped
    exact shrink self rfl (fun _ _ fine => fine.1)
  case h_17 =>
    cases stepped
    exact shrink self rfl (fun _ _ fine => fine)
  case h_18 =>
    cases stepped
    exact shrink self rfl (fun _ _ fine => fine.1)
  case h_19 keep =>
    cases stepped
    refine shrink self rfl ?_
    intro row _ fine
    cases stops : run.mustStop keep with
    | true => exact fine
    | false => exact ⟨fine, removeNow_of_not_mustStop stops fine⟩
  case h_20 keep answer =>
    cases isOwn : run.sandboxId with
    | none =>
      rw [isOwn] at stepped
      cases stepped
    | some own =>
      rw [isOwn] at stepped
      cases stepped
      have shrinks := shrinks_interrupt state own answer
      rcases interrupted_same run answer with ⟨sandbox, client, token⟩
      refine shrink shrinks token ?_
      intro row _ fine
      have removes {other : ℕ} (names : row.sandboxId = some other) (holds : (state.interrupt own answer).Holds other) :
          (TaskState.interrupted run answer).removeSandbox := by
        have same := (fine other names (shrinks.fewer other holds)).1
        rw [<- some.inj (isOwn.symm.trans same)] at holds
        exact interrupted_removes state holds run
      constructor
      · intro other names holds
        rcases fine other names (shrinks.fewer other holds) with ⟨same, isClient, _⟩
        exact ⟨sandbox.trans same, client.trans isClient, .inr (removes names holds)⟩
      · intro _ names holds
        change (decide (keep = 0) || (TaskState.interrupted run answer).removeSandbox)
        rw [removes names holds]
        exact Bool.or_true _
  case h_21 keep status summary error moment =>
    by_cases late : state.clock < moment
    · rw [if_pos late] at stepped
      cases stepped
    · rw [if_neg late] at stepped
      by_cases owns : state.store.owns taskId run.token
      · rw [if_pos owns] at stepped
        cases finished : state.store.finish taskId run.token status summary error
            (some (if run.removeNow keep then dbNow moment else dbNow moment + 60 * keep)) state.clock with
        | error error =>
          rw [finished] at stepped
          cases stepped
        | ok store =>
          rw [finished] at stepped
          cases stepped
          exact kept_finish kept found atStage (le_of_not_gt late) finished
      · rw [if_neg owns] at stepped
        cases stepped
        exact shrink self rfl (fun _ _ _ => trivial)
  case h_22 answer =>
    cases isOwn : run.sandboxId with
    | none =>
      rw [isOwn] at stepped
      cases stepped
    | some own =>
      rw [isOwn] at stepped
      cases stepped
      refine shrink (shrinks_delete state own answer) rfl ?_
      intro _ _ _
      by_cases isOk : answer = .ok
      · simp only [if_pos isOk]
        trivial
      · simp only [if_neg isOk]
        trivial
  case h_23 =>
    cases isOwn : run.sandboxId with
    | none =>
      rw [isOwn] at stepped
      cases stepped
    | some own =>
      rw [isOwn] at stepped
      cases stepped
      refine kept_write kept found (fun _ => rfl) rfl ?_ (fun _ _ _ => trivial)
      intro _ _ _
      exact .inl ⟨rfl, rfl, .inr (.inl rfl), fun _ _ => .inr rfl⟩
  case h_24 => cases stepped

end Runs

section Recoveries

variable {taskId : ℕ} {state : TaskState} (kept : TaskKept taskId state)

variable {listed : List ℕ} {keepUntil : ℤ}

theorem mem_recoverStale_other {now : ℚ} {row : TaskRow}
  (mem : row ∈ (store.recoverStale listed error status keepUntil now).tasks) (other : row.id ∉ listed) :
  row ∈ store.tasks := by
  unfold TaskStore.recoverStale at mem
  induction listed generalizing store with
  | nil => exact mem
  | cons first rest ih =>
    have isMiddle := ih mem (fun later => other (.tail _ later))
    rcases mem_updateWhere.mp isMiddle with ⟨isOld, _⟩ | ⟨_, _, isFirst, same⟩
    · exact isOld
    · rw [<- same] at other
      exact absurd (of_decide_eq_true isFirst) (ne_of_not_mem_cons other)

include kept

theorem kept_recover :
  TaskKept taskId (state.next taskId (.recover listed error status keepUntil)) := by
  refine kept_beside kept (ends_recoverStale listed error status keepUntil state.clock).ids ?_ ⟨rfl, rfl⟩ (fun _ holds => holds)
    kept.inside kept.made ?_
  · intro row mem
    rcases mem_recoverStale mem with ⟨old, isOld, id, _, same | ended⟩
    · rw [same]
      exact ⟨old, isOld, .inl (RowStays.refl (le_refl _))⟩
    · exact ⟨old, isOld, .inr ⟨ended.1, id⟩⟩
  · intro row mem unowned own isOwn holds
    by_cases isListed : taskId ∈ listed
    · exact .inr ⟨.reading listed, mem_concat_self, decide_eq_true isListed⟩
    · have isTask : row.id = taskId := by
        rcases mem_recoverStale mem with ⟨old, isOld, id, _⟩
        exact id.trans (kept.sole old isOld)
      rw [<- isTask] at isListed
      have old := mem_recoverStale_other mem isListed
      rcases kept.covered row old unowned own isOwn holds with due | ⟨recovery, isRecovery, covers⟩
      · exact .inl due
      · exact .inr ⟨recovery, mem_append_left _ isRecovery, covers⟩

theorem kept_recovery {moved : Recovery} (found : state.recoveries[index]? = some recovery)
  (ids : after.store.tasks.map TaskRow.id = state.store.tasks.map TaskRow.id)
  (rows : ∀ row ∈ after.store.tasks, ∃ old ∈ state.store.tasks, RowStays state after old row)
  (beside : after.runs = state.runs /\ after.issued = state.issued)
  (fewer : ∀ own, after.Holds own -> state.Holds own) (inside : ∀ own, after.Holds own -> own ∈ after.boxes)
  (made : after.boxes ⊆ after.made)
  (covered : ∀ row ∈ after.store.tasks, row.ownerToken = none -> ∀ own, row.sandboxId = some own -> after.Holds own ->
    recovery.covers taskId own -> after.due row \/ moved.covers taskId own) :
  TaskKept taskId { after with recoveries := state.recoveries.set index moved } := by
  refine kept_beside kept ids ?_ beside fewer inside made ?_
  · intro row mem
    rcases rows row mem with ⟨old, isOld, stays⟩
    exact ⟨old, isOld, .inl ⟨stays.id, stays.owner, stays.sandbox, stays.due⟩⟩
  · intro row mem unowned own isOwn holds
    rcases rows row mem with ⟨_, isOld, stays⟩
    have isThere : index < state.recoveries.length := (List.getElem?_eq_some_iff.mp found).1
    rcases stays.covered kept isOld fewer unowned isOwn holds with due | ⟨other, isOther, covers⟩
    · exact .inl due
    · rcases mem_iff_getElem?.mp isOther with ⟨place, isPlace⟩
      by_cases same : place = index
      · rw [same, found] at isPlace
        cases isPlace
        refine (covered row mem unowned own isOwn holds covers).imp_right ?_
        exact fun still => ⟨moved, mem_set isThere moved, still⟩
      · refine .inr ⟨other, ?_, covers⟩
        have stays : (state.recoveries.set index moved)[place]? = some other := by
          rw [getElem?_set_ne (same ·.symm)]
          exact isPlace
        exact mem_of_getElem? stays

theorem kept_look {moved : Recovery} (found : state.recoveries[index]? = some recovery) (shrinks : Shrinks state after)
  (covered : ∀ row ∈ state.store.tasks, row.ownerToken = none -> ∀ own, row.sandboxId = some own -> after.Holds own ->
    recovery.covers taskId own -> moved.covers taskId own) :
  TaskKept taskId { after with recoveries := state.recoveries.set index moved } := by
  refine kept_recovery kept found ?_ ?_ ⟨shrinks.runs, shrinks.issued⟩ shrinks.fewer (shrinks.inside kept.inside)
    (shrinks.made kept.made) ?_
  · rw [shrinks.store]
  · rw [shrinks.store]
    exact fun row mem => ⟨row, mem, RowStays.refl (le_of_eq shrinks.clock.symm)⟩
  · rw [shrinks.store]
    exact fun row mem unowned own isOwn holds covers => .inr (covered row mem unowned own isOwn holds covers)

theorem get_task {row : TaskRow} (mem : row ∈ state.store.tasks) : state.store.get taskId = some row := by
  rw [<- kept.sole row mem]
  exact find_of_key kept.ids mem

theorem kept_recoveryStep (found : state.recoveries[index]? = some recovery) (answer : Answer) :
  TaskKept taskId { (state.recoveryStep answer recovery).1 with
    recoveries := state.recoveries.set index (state.recoveryStep answer recovery).2 } := by
  cases recovery with
  | ended => exact kept_look kept found (Shrinks.refl state) (fun _ _ _ _ _ _ clash => nomatch clash)
  | reading tasks =>
    cases tasks with
    | nil => exact kept_look kept found (Shrinks.refl state) (fun _ _ _ _ _ _ clash => nomatch clash)
    | cons task rest =>
      refine kept_look kept found (Shrinks.refl state) ?_
      intro row mem _ own isOwn _ covers
      have listed : taskId ∈ task :: rest := of_decide_eq_true covers
      have isGot (same : taskId = task) : (state.store.get task).bind TaskRow.sandboxId = some own := by
        rw [<- same, get_task kept mem]
        exact isOwn
      cases got : (state.store.get task).bind TaskRow.sandboxId with
      | none =>
        simp only [TaskState.recoveryStep, got, elim_none]
        rcases mem_cons.mp listed with same | later
        · rw [isGot same] at got
          cases got
        · exact decide_eq_true later
      | some sandboxId =>
        simp only [TaskState.recoveryStep, got, elim_some]
        rcases mem_cons.mp listed with same | later
        · rw [isGot same] at got
          exact decide_eq_true (.inl ⟨same.symm, (some.inj got).symm⟩)
        · exact decide_eq_true (.inr later)
  | stopping task sandboxId tasks =>
    have shrinks := shrinks_interrupt state sandboxId answer
    refine kept_look kept found shrinks ?_
    intro row mem _ own isOwn holds covers
    simp only [TaskState.recoveryStep]
    by_cases isOk : answer = .ok
    · rw [if_pos isOk]
      rw [isOk] at holds
      rcases of_decide_eq_true covers with ⟨_, same⟩ | later
      · exact absurd same.symm (holds_kill state holds).2
      · exact decide_eq_true later
    · rw [if_neg isOk]
      exact covers
  | expiring task sandboxId tasks =>
    refine kept_recovery kept found ?_ ?_ ⟨rfl, rfl⟩ (fun _ holds => holds) kept.inside kept.made ?_
    · exact ids_update (fun _ => rfl)
    · refine rows_update (fun row => RowStays.refl (le_refl _)) ?_
      intro old isOld _
      refine ⟨rfl, rfl, .inl rfl, ?_⟩
      intro _ _
      refine .inl ?_
      exact decide_eq_true (le_refl _)
    · intro row mem unowned _ isOwn _ covers
      rcases of_decide_eq_true covers with ⟨isTask, isSandbox⟩ | later
      · refine .inl ?_
        rcases mem_updateWhere.mp mem with ⟨isOld, unselected⟩ | ⟨_, _, _, same⟩
        · refine absurd (decide_eq_true ⟨(kept.sole row isOld).trans isTask.symm, ?_, unowned⟩) unselected
          rw [isSandbox]
          exact isOwn
        · rw [<- same]
          exact decide_eq_true (le_refl _)
      · exact .inr (decide_eq_true later)

theorem kept_giveUp (cautious : state.Cautious taskId (.giveUp index)) :
  TaskKept taskId (state.next taskId (.giveUp index)) := by
  cases found : state.recoveries[index]? with
  | none =>
    have same : state.recoveries.set index .ended = state.recoveries :=
      set_eq_of_length_le (getElem?_eq_none_iff.mp found)
    simp only [TaskState.next, same]
    exact kept
  | some recovery =>
    refine kept_look kept found (Shrinks.refl state) ?_
    intro row mem _ own isOwn holds covers
    exact absurd holds (cautious recovery found (covers_concerns covers) row mem (kept.sole row mem) own isOwn)

end Recoveries

section Actions

variable {taskId : ℕ} {state : TaskState} (kept : TaskKept taskId state)

include kept

theorem kept_launch {token : ℕ} (new : token ∉ state.issued) (ids : (store.tasks.map TaskRow.id).Nodup)
  (rows : ∀ row ∈ store.tasks, row.id = taskId /\ row.ownerToken = some token /\ state.Clean row) :
  TaskKept taskId { state with store := store, runs := state.runs ++ [.launch token], issued := state.issued ++ [token] } := by
  refine ⟨ids, fun row mem => (rows row mem).1, ?_, ?_, ?_, kept.inside, kept.made, ?_, ?_⟩
  · intro row mem _ isOwner
    rw [<- some.inj ((rows row mem).2.1.symm.trans isOwner)]
    exact mem_concat_self
  · intro run mem
    rcases mem_snoc.mp mem with old | isNew
    · exact mem_append_left _ (kept.runs run old)
    · rw [isNew]
      exact mem_concat_self
  · apply kept.tokens.append
    intro _ isOwn other mem same
    have isToken : other.token = token := some.inj (same.trans isOwn.symm)
    rw [<- isToken] at new
    exact new (kept.runs other mem)
  · intro row mem run isRun owned
    have isToken : run.token = token := some.inj (owned.symm.trans (rows row mem).2.1)
    rcases mem_snoc.mp isRun with old | isNew
    · rw [<- isToken] at new
      exact absurd (kept.runs run old) new
    · rw [isNew]
      exact (rows row mem).2.2
  · intro row mem unowned
    rw [(rows row mem).2.1] at unowned
    cases unowned

theorem kept_stays (ids : after.store.tasks.map TaskRow.id = state.store.tasks.map TaskRow.id)
  (rows : ∀ row ∈ after.store.tasks, ∃ old ∈ state.store.tasks, RowStays state after old row)
  (beside : after.runs = state.runs /\ after.issued = state.issued /\ after.recoveries = state.recoveries)
  (fewer : ∀ own, after.Holds own -> state.Holds own) (inside : ∀ own, after.Holds own -> own ∈ after.boxes)
  (made : after.boxes ⊆ after.made) : TaskKept taskId after := by
  refine kept_beside kept ids ?_ ⟨beside.1, beside.2.1⟩ fewer inside made ?_
  · intro row mem
    rcases rows row mem with ⟨old, isOld, stays⟩
    exact ⟨old, isOld, .inl stays⟩
  · intro row mem unowned _ isOwn holds
    rcases rows row mem with ⟨_, isOld, stays⟩
    rw [beside.2.2]
    exact stays.covered kept isOld fewer unowned isOwn holds

theorem kept_update (id : ∀ row, (change row).id = row.id)
  (rows : ∀ old ∈ state.store.tasks, selected old ->
    RowStays state (state.write (state.store.updateTasks selected change)) old (change old)) :
  TaskKept taskId (state.write (state.store.updateTasks selected change)) := by
  refine kept_stays kept (ids_update id) ?_ ⟨rfl, rfl, rfl⟩ (fun _ holds => holds) kept.inside kept.made
  exact rows_update (fun row => RowStays.refl (le_refl _)) rows

theorem kept_next {action : TaskAction} (enabled : state.Enabled taskId action) (cautious : state.Cautious taskId action) :
  TaskKept taskId (state.next taskId action) := by
  -- A sandbox that is taken off.
  have taken (next : TaskState) (old : TaskRow) :
      RowStays state next old { old with sandboxId := none, sandboxExpiresAt := none } :=
    ⟨rfl, rfl, .inr (.inl rfl), fun _ _ => .inr rfl⟩
  cases action with
  | create task token maxUser maxSite =>
    simp only [TaskState.next]
    cases created : state.store.create task token maxUser maxSite state.clock with
    | error error => exact kept
    | ok store =>
      rcases create_ok created with ⟨notThere, tasks, _⟩
      have nothing : state.store.tasks = [] := by
        apply eq_nil_iff_forall_not_mem.mpr
        intro row mem
        exact notThere (mem_map.mpr ⟨row, mem, (kept.sole row mem).trans enabled.1.symm⟩)
      rw [nothing, nil_append] at tasks
      refine kept_launch kept enabled.2 ?_ ?_
      · rw [tasks]
        exact nodup_singleton _
      · intro row mem
        rw [tasks] at mem
        rw [mem_singleton.mp mem]
        exact ⟨enabled.1, rfl, fun _ clash => nomatch clash⟩
  | resume token maxUser maxSite modelId modelName =>
    simp only [TaskState.next]
    cases resumed : state.store.resume taskId token maxUser maxSite modelId modelName state.clock with
    | error error => exact kept
    | ok result =>
      cases result with
      | none => exact kept
      | some store =>
        have isStore := resume_ok resumed
        refine kept_launch kept enabled ?_ ?_
        · rw [isStore]
          have ids := @ids_update state.store (fun row => decide (row.id = taskId))
            (TaskStore.resumed token modelId modelName state.clock) (fun _ => rfl)
          rw [ids]
          exact kept.ids
        · intro row mem
          rw [isStore] at mem
          rcases mem_updateWhere.mp mem with ⟨isOld, unselected⟩ | ⟨old, isOld, _, same⟩
          · exact absurd (decide_eq_true (kept.sole row isOld)) unselected
          · rw [<- same]
            exact ⟨kept.sole old isOld, rfl, cautious old isOld (kept.sole old isOld)⟩
  | renew token =>
    refine kept_update kept (fun _ => rfl) ?_
    intro old _ _
    have stays : RowStays state state old old := RowStays.refl (le_refl _)
    exact ⟨rfl, rfl, .inl rfl, stays.due⟩
  | run index move =>
    simp only [TaskState.next]
    cases found : state.runs[index]? with
    | none => exact kept
    | some run =>
      dsimp only
      cases stepped : state.runStep taskId run run.stage move with
      | none => exact kept
      | some result => exact kept_run kept found cautious stepped
  | recover listed error status keepUntil => exact kept_recover kept
  | recovery index answer =>
    simp only [TaskState.next]
    cases found : state.recoveries[index]? with
    | none => exact kept
    | some recovery => exact kept_recoveryStep kept found answer
  | giveUp index => exact kept_giveUp kept cautious
  | vanish sandboxId =>
    have shrinks := shrinks_removeBox state sandboxId
    exact kept_stays kept rfl (fun row mem => ⟨row, mem, RowStays.refl (le_refl _)⟩) ⟨rfl, rfl, rfl⟩ shrinks.fewer
      (shrinks.inside kept.inside) (shrinks.made kept.made)
  | clearSandbox sandboxId | forgetSandbox sandboxId => exact kept_update kept (fun _ => rfl) (fun old _ _ => taken _ old)
  | takeKeptSandbox =>
    simp only [TaskState.next]
    unfold TaskStore.takeKeptSandbox
    cases first : state.store.firstKept with
    | none => exact kept
    | some row => exact kept_update kept (fun _ => rfl) (fun old _ _ => taken _ old)
  | giveBackKeptSandbox sandboxId =>
    refine kept_update kept (fun _ => rfl) ?_
    intro _ _ isSelected
    have unowned := (of_decide_eq_true isSelected).2.2
    exact ⟨rfl, rfl, .inr (.inr ⟨unowned, decide_eq_true (le_refl _)⟩), fun _ _ => .inl (decide_eq_true (le_refl _))⟩
  | wait clock =>
    exact kept_stays kept rfl (fun row mem => ⟨row, mem, RowStays.refl enabled⟩) ⟨rfl, rfl, rfl⟩ (fun _ holds => holds)
      kept.inside kept.made

end Actions

theorem taskKept_reachable {taskId : ℕ} {state : TaskState} (reachable : (cautiousMachine taskId).Reachable state) :
  TaskKept taskId state := by
  induction reachable with
  | start isStart =>
    rw [show _ = TaskState.start from isStart]
    refine ⟨nodup_nil, ?_, ?_, ?_, apart_nil _, ?_, nil_subset _, ?_, ?_⟩
    · exact fun row mem => nomatch mem
    · exact fun row mem => nomatch mem
    · exact fun run mem => nomatch mem
    · rintro _ ⟨_, mem⟩
      cases mem
    · exact fun row mem => nomatch mem
    · exact fun row mem => nomatch mem
  | next _ enabled kept => exact kept_next kept enabled.1 enabled.2

/-- Nothing outlives a task's runs, while nobody takes the task over with processes left in its sandbox. -/
theorem nothing_outlives_runs {taskId : ℕ} {state : TaskState} (reachable : (cautiousMachine taskId).Reachable state) :
  state.NothingLeft taskId := by
  have kept := taskKept_reachable reachable
  intro row mem _ unowned recovered own names isKept holds
  rcases kept.covered row mem unowned own names holds with due | ⟨recovery, isRecovery, covers⟩
  · rw [isKept] at due
    cases due
  · have concerns := covers_concerns covers
    rw [recovered recovery isRecovery] at concerns
    cases concerns

def busyRun : List TaskAction :=
  [.create ⟨1, 1, [], [], none, [], false⟩ 7 none 10, .run 0 .read, .run 0 .name, .run 0 (.begin true), .run 0 (.create 3),
    .run 0 .keep, .run 0 (.exec [9] false)]

def endedRun : List TaskAction :=
  busyRun ++ [.run 0 .stop, .run 0 (.conclude 60), .run 0 (.stopLeftovers .ok), .run 0 (.finish .finished [] [] 0)]

def diedRun : List TaskAction :=
  busyRun ++ [.wait 100, .resume 8 none 10 none none, .run 1 .read, .run 1 .name, .run 1 (.begin true), .run 1 .stop,
    .run 1 (.conclude 60), .run 1 (.finish .finished [] [] 100)]

def afterEnd : TaskState := (taskMachine 1).run .start endedRun

def afterDeath : TaskState := (taskMachine 1).run .start diedRun

/-- The follow-up's run does not know of the process, and ends with its sandbox kept and the process in it. -/
theorem process_outlives_runs : (taskMachine 1).Reachable afterDeath /\ ¬ afterDeath.NothingLeft 1 := by
  have admitted : (taskMachine 1).Admits .start diedRun := by
    refine ⟨⟨rfl, not_mem_nil⟩, trivial, trivial, trivial, trivial, trivial, trivial, ?_, ?_, trivial, trivial, trivial, trivial,
      trivial, trivial, trivial⟩
    all_goals
      dsimp only [taskMachine, TaskState.Enabled]
      decide +kernel
  refine ⟨(Machine.Reachable.start rfl).run diedRun admitted, ?_⟩
  intro nothing
  have stays : ∃ row ∈ afterDeath.store.tasks, row.id = 1 /\ row.ownerToken = none /\ row.sandboxId = some 3 /\
      afterDeath.due row = false := by
    decide +kernel
  rcases stays with ⟨row, mem, isTask, unowned, names, isKept⟩
  have recovered : afterDeath.recoveries = [] := by decide +kernel
  refine nothing row mem isTask unowned ?_ 3 names isKept ⟨9, by decide +kernel⟩
  rw [recovered]
  exact fun recovery clash => nomatch clash

theorem nothing_outlives_runs_ended : (∃ row ∈ afterEnd.store.tasks, row.sandboxId = some 3 /\ afterEnd.due row = false) /\
  ¬ afterEnd.Holds 3 := by
  have admitted : (cautiousMachine 1).Admits .start endedRun := by
    refine ⟨⟨⟨rfl, not_mem_nil⟩, trivial⟩, ⟨trivial, trivial⟩, ⟨trivial, trivial⟩, ⟨trivial, trivial⟩, ⟨trivial, trivial⟩,
      ⟨trivial, trivial⟩, ⟨trivial, ?_⟩, ⟨trivial, trivial⟩, ⟨trivial, trivial⟩, ⟨trivial, trivial⟩, ⟨trivial, trivial⟩, trivial⟩
    intro run found
    cases found
    decide +kernel
  have reachable : (cautiousMachine 1).Reachable afterEnd := (Machine.Reachable.start rfl).run endedRun admitted
  have stays : ∃ row ∈ afterEnd.store.tasks, row.id = 1 /\ row.ownerToken = none /\ row.sandboxId = some 3 /\
      afterEnd.due row = false := by
    decide +kernel
  rcases stays with ⟨row, mem, isTask, unowned, names, isKept⟩
  refine ⟨⟨row, mem, names, isKept⟩, nothing_outlives_runs reachable row mem isTask unowned ?_ 3 names isKept⟩
  have recovered : afterEnd.recoveries = [] := by decide +kernel
  exact fun recovery clash => nomatch clash

end BananaChat.Agents

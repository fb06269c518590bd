import BananaChat.Agents.Leases

namespace BananaChat.Agents

open Foundation List Bool Rows TaskStore

/-!
# Lost processes are fenced out

Every write of a task, of its steps and of its messages names the token, so it does nothing once the
token is lost.
-/

variable {store : TaskStore}

variable {taskId token : ℕ} {next : TaskStore} {change : TaskRow -> TaskRow} {selected : TaskRow -> Bool}
  {state : LeaseState}

theorem owns_eq_true_iff :
  store.owns taskId token ↔ ∃ row ∈ store.tasks, row.id = taskId /\ row.ownerToken = some token := by
  unfold owns owned
  rw [any_eq_true]
  constructor
  · rintro ⟨row, mem, isOwned⟩
    exact ⟨row, mem, of_decide_eq_true isOwned⟩
  · rintro ⟨row, mem, isOwned⟩
    exact ⟨row, mem, decide_eq_true isOwned⟩

theorem updateTasks_lost (lost : store.owns taskId token = false) (change : TaskRow -> TaskRow) :
  store.updateTasks (owned taskId token) change = store := by
  have unselected : Rows.updateWhere (owned taskId token) change store.tasks = store.tasks := by
    apply updateWhere_eq_self
    intro row mem isOwned
    have owns : store.owns taskId token := any_eq_true.mpr ⟨row, mem, isOwned⟩
    rw [lost] at owns
    cases owns
  unfold updateTasks
  rw [unselected]

def RunWrite.isLane : RunWrite -> Bool
  | .addLane _ _ _ _ | .updateLane _ _ _ _ _ => true
  | _ => false

variable {write : RunWrite}

theorem apply_lost (lost : store.owns taskId token = false) (noLane : write.isLane = false) :
  write.apply store taskId token = store := by
  cases write with
  | addLane agent title instructions now | updateLane agent status stepsUsed summary now => cases noLane
  | setStatus status notice started now =>
    simp only [RunWrite.apply, setStatus]
    cases status.isActive with
    | true => exact updateTasks_lost lost _
    | false => rfl
  | finish status summary error expiresAt now =>
    simp only [RunWrite.apply, finish]
    cases status.isTerminal with
    | true => exact updateTasks_lost lost _
    | false => rfl
  | setSandbox sandboxId expiresAt | addUsage steps toolCalls tokensIn tokensOut now | renew now =>
    exact updateTasks_lost lost _
  | addStep kind content detail now =>
    simp only [RunWrite.apply, addStep]
    rw [lost]
    rfl
  | takeMessages limit now =>
    simp only [RunWrite.apply, takeMessages, TaskStore.taken]
    rw [lost]
    rfl

/-- How a row of a task goes on: as it was, with the same lease, without one, or with a new one. -/
structure Continues (before : TaskRow) (issues : Option ℕ) (row : TaskRow) : Prop where
  id : row.id = before.id
  owner : row.ownerToken = before.ownerToken \/ row.ownerToken = none \/ (issues.isSome /\ row.ownerToken = issues)

theorem continues_self (row : TaskRow) (issues : Option ℕ) : Continues row issues row := ⟨rfl, .inl rfl⟩

def Followed (store next : TaskStore) (issues : Option ℕ) : Prop :=
  ∀ row ∈ next.tasks, ∃ before ∈ store.tasks, Continues before issues row

theorem followed_self (issues : Option ℕ) (same : next.tasks = store.tasks) : Followed store next issues := by
  intro row mem
  rw [same] at mem
  exact ⟨row, mem, continues_self row issues⟩

variable {issues : Option ℕ}

theorem followed_update (kept : ∀ row ∈ store.tasks, Continues row issues (change row)) :
  Followed store (store.updateTasks selected change) issues := by
  intro row mem
  rcases mem_updateWhere.mp mem with ⟨old, _⟩ | ⟨before, old, _, isRow⟩
  · exact ⟨row, old, continues_self row issues⟩
  · rw [<- isRow]
    exact ⟨before, old, kept before old⟩

variable {middle : TaskStore}

theorem Followed.trans (first : Followed store middle none)
  (second : Followed middle next issues) : Followed store next issues := by
  intro row mem
  rcases second row mem with ⟨between, isBetween, later⟩
  rcases first between isBetween with ⟨before, isBefore, earlier⟩
  refine ⟨before, isBefore, later.id.trans earlier.id, ?_⟩
  rcases later.owner with same | cleared | issued
  · rcases earlier.owner with same' | cleared' | ⟨clash, _⟩
    · exact .inl (same.trans same')
    · exact .inr (.inl (same.trans cleared'))
    · cases clash
  · exact .inr (.inl cleared)
  · exact .inr (.inr issued)

theorem ids_update {selected : TaskRow -> Bool} {change : TaskRow -> TaskRow} (kept : ∀ row, (change row).id = row.id) :
  (store.updateTasks selected change).tasks.map TaskRow.id = store.tasks.map TaskRow.id :=
  map_updateWhere TaskRow.id kept

structure Ends (store next : TaskStore) : Prop where
  ids : next.tasks.map TaskRow.id = store.tasks.map TaskRow.id
  followed : Followed store next none

theorem ends_self (same : next.tasks = store.tasks) : Ends store next := ⟨by rw [same], followed_self none same⟩

theorem Ends.trans (first : Ends store middle) (second : Ends middle next) : Ends store next :=
  ⟨second.ids.trans first.ids, first.followed.trans second.followed⟩

theorem ends_update (ids : ∀ row, (change row).id = row.id)
  (owners : ∀ row, (change row).ownerToken = row.ownerToken \/ (change row).ownerToken = none) :
  Ends store (store.updateTasks selected change) := by
  refine ⟨ids_update ids, followed_update ?_⟩
  intro row _
  refine ⟨ids row, ?_⟩
  rcases owners row with same | cleared
  · exact .inl same
  · exact .inr (.inl cleared)

theorem tasks_takeMessages (taskId token limit : ℕ) (now : ℚ) : (store.takeMessages taskId token limit now).tasks = store.tasks := by
  unfold takeMessages
  generalize store.taken taskId token limit = rows
  induction rows generalizing store with
  | nil => rfl
  | cons row rest ih =>
    rw [foldl_cons, ih]
    rfl

theorem lanes_takeMessages (taskId token limit : ℕ) (now : ℚ) : (store.takeMessages taskId token limit now).lanes = store.lanes := by
  unfold takeMessages
  generalize store.taken taskId token limit = rows
  induction rows generalizing store with
  | nil => rfl
  | cons row rest ih =>
    rw [foldl_cons, ih]
    rfl

theorem ends_apply (write : RunWrite) (taskId token : ℕ) : Ends store (write.apply store taskId token) := by
  cases write with
  | setStatus status notice started now =>
    simp only [RunWrite.apply, setStatus]
    cases status.isActive with
    | false => exact ends_self rfl
    | true => exact ends_update (fun _ => rfl) (fun _ => .inl rfl)
  | finish status summary error expiresAt now =>
    simp only [RunWrite.apply, finish]
    cases status.isTerminal with
    | false => exact ends_self rfl
    | true => exact ends_update (fun _ => rfl) (fun _ => .inr rfl)
  | setSandbox sandboxId expiresAt | addUsage steps toolCalls tokensIn tokensOut now | renew now =>
    exact ends_update (fun _ => rfl) (fun _ => .inl rfl)
  | addStep kind content detail now =>
    simp only [RunWrite.apply, addStep]
    cases store.owns taskId token with
    | true | false => exact ends_self rfl
  | takeMessages limit now => exact ends_self (tasks_takeMessages taskId token limit now)
  | addLane agent title instructions now =>
    simp only [RunWrite.apply, addLane]
    by_cases refused : (store.get taskId).isNone \/
        store.lanes.any (fun lane => lane.taskId = taskId /\ lane.agent = agent)
    · rw [if_pos refused]
      exact ends_self rfl
    · rw [if_neg refused]
      exact ends_self rfl
  | updateLane agent status stepsUsed summary now => exact ends_self rfl

theorem ends_recoverTask (error : Text) (status : TaskStatus) (keepUntil : ℤ) (now : ℚ) (taskId : ℕ) :
  Ends store (store.recoverTask error status keepUntil now taskId) := by
  have ended : Ends store (store.updateTasks (·.id = taskId)
      (ended status error (some keepUntil) now)) := ends_update (fun _ => rfl) (fun _ => .inr rfl)
  exact ended.trans (ends_self rfl)

theorem ends_recoverStale (listed : List ℕ) (error : Text) (status : TaskStatus) (keepUntil : ℤ) (now : ℚ) :
  Ends store (store.recoverStale listed error status keepUntil now) := by
  unfold recoverStale
  induction listed generalizing store with
  | nil => exact ends_self rfl
  | cons taskId rest ih =>
    exact (ends_recoverTask error status keepUntil now taskId).trans ih

def Quiet (store : TaskStore) (taskId : ℕ) : Prop := ∀ lane ∈ store.lanes, lane.taskId = taskId -> lane.status.isOpen = false

def LanesQuiet (store : TaskStore) : Prop := ∀ row ∈ store.tasks, row.ownerToken = none -> Quiet store row.id

theorem lanesQuiet_update (quiet : LanesQuiet store) (ids : ∀ row, (change row).id = row.id)
  (owners : ∀ row ∈ store.tasks, selected row -> (change row).ownerToken = none ->
    row.ownerToken = none \/ Quiet store row.id) : LanesQuiet (store.updateTasks selected change) := by
  intro row mem none
  rcases mem_updateWhere.mp mem with ⟨old, _⟩ | ⟨before, old, isSelected, isRow⟩
  · exact quiet row old none
  · rw [<- isRow] at none ⊢
    rw [ids before]
    rcases owners before old isSelected none with was | isQuiet
    · exact quiet before old was
    · exact isQuiet

theorem quiet_of_hasOpenLane (noLane : state.hasOpenLane taskId = false) : Quiet state.store taskId := by
  intro lane mem isTask
  have closed := any_eq_false.mp noLane lane mem
  rw [decide_eq_true isTask, Bool.true_and] at closed
  exact eq_false_iff.mpr closed

theorem owner_of_owns (ids : (store.tasks.map TaskRow.id).Nodup) (owns : store.owns taskId token) {row : TaskRow}
  (mem : row ∈ store.tasks) (isTask : row.id = taskId) : row.ownerToken = some token := by
  rcases owns_eq_true_iff.mp owns with ⟨_, isOwner, isTask', isToken⟩
  rw [eq_of_key ids mem isOwner (isTask.trans isTask'.symm)]
  exact isToken

theorem lanesQuiet_lanes (quiet : LanesQuiet store) (ids : (store.tasks.map TaskRow.id).Nodup)
  (owns : store.owns taskId token) (sameTasks : next.tasks = store.tasks)
  (others : ∀ lane ∈ next.lanes, lane.taskId ≠ taskId -> lane ∈ store.lanes) : LanesQuiet next := by
  intro row mem none lane isLane isTask
  rw [sameTasks] at mem
  by_cases same : row.id = taskId
  · rw [owner_of_owns ids owns mem same] at none
    cases none
  · exact quiet row mem none lane (others lane isLane fun equal => same (isTask.symm.trans equal)) isTask

theorem lanesQuiet_apply (quiet : LanesQuiet state.store) (ids : (state.store.tasks.map TaskRow.id).Nodup)
  (orderly : state.Orderly (.write taskId token write)) :
  LanesQuiet (write.apply state.store taskId token) := by
  cases write with
  | setStatus status notice started now =>
    simp only [RunWrite.apply, setStatus]
    cases status.isActive with
    | false => exact quiet
    | true => exact lanesQuiet_update quiet (fun _ => rfl) (fun _ _ _ none => .inl none)
  | finish status summary error expiresAt now =>
    simp only [RunWrite.apply, finish]
    cases status.isTerminal with
    | false => exact quiet
    | true =>
      refine lanesQuiet_update quiet ?ids ?owners
      case ids =>
        intro row
        rfl
      case owners =>
        intro row mem isOwned _
        have isRow := of_decide_eq_true isOwned
        have owns := owns_eq_true_iff.mpr ⟨row, mem, isRow⟩
        rw [isRow.1]
        exact .inr (quiet_of_hasOpenLane (orderly owns))
  | setSandbox sandboxId expiresAt | renew now | addUsage steps toolCalls tokensIn tokensOut now =>
    exact lanesQuiet_update quiet (fun _ => rfl) (fun _ _ _ none => .inl none)
  | addStep kind content detail now =>
    simp only [RunWrite.apply, addStep]
    cases state.store.owns taskId token with
    | true | false => exact quiet
  | takeMessages limit now =>
    intro row mem none lane isLane isTask
    change row ∈ (state.store.takeMessages taskId token limit now).tasks at mem
    change lane ∈ (state.store.takeMessages taskId token limit now).lanes at isLane
    rw [tasks_takeMessages] at mem
    rw [lanes_takeMessages] at isLane
    exact quiet row mem none lane isLane isTask
  | addLane agent title instructions now =>
    simp only [RunWrite.apply, addLane]
    by_cases refused : (state.store.get taskId).isNone \/
        state.store.lanes.any (fun lane => lane.taskId = taskId /\ lane.agent = agent)
    · rw [if_pos refused]
      exact quiet
    · rw [if_neg refused]
      refine lanesQuiet_lanes quiet ids orderly ?sameTasks ?others
      case sameTasks => rfl
      case others =>
        intro lane mem different
        rcases mem_snoc.mp mem with old | new
        · exact old
        · rw [new] at different
          exact absurd rfl different
  | updateLane agent status stepsUsed summary now =>
    refine lanesQuiet_lanes quiet ids orderly ?sameTasks ?others
    case sameTasks => rfl
    case others =>
      intro _ mem different
      rcases mem_updateWhere.mp mem with ⟨old, _⟩ | ⟨_, _, isSelected, isLane⟩
      · exact old
      · rw [<- isLane] at different
        exact absurd (of_decide_eq_true isSelected).1 different

theorem lanesQuiet_recoverTask (quiet : LanesQuiet store) (error : Text) (status : TaskStatus) (keepUntil : ℤ) (now : ℚ)
  (taskId : ℕ) : LanesQuiet (store.recoverTask error status keepUntil now taskId) := by
  intro row mem none lane isLane isTask
  rcases mem_updateWhere.mp isLane with ⟨oldLane, unselected⟩ | ⟨before, _, _, isStopped⟩
  · rcases mem_updateWhere.mp mem with ⟨oldRow, _⟩ | ⟨_, _, isSelected, isRow⟩
    · exact quiet row oldRow none lane oldLane isTask
    · have sameTask : lane.taskId = taskId := by
        rw [isTask, <- isRow]
        exact of_decide_eq_true isSelected
      rw [decide_eq_true sameTask, Bool.true_and] at unselected
      exact eq_false_iff.mpr unselected
  · rw [<- isStopped]
    rfl

theorem lanesQuiet_recoverStale (listed : List ℕ) (error : Text) (status : TaskStatus) (keepUntil : ℤ) (now : ℚ)
  (quiet : LanesQuiet store) : LanesQuiet (store.recoverStale listed error status keepUntil now) := by
  unfold recoverStale
  induction listed generalizing store with
  | nil => exact quiet
  | cons taskId rest ih =>
    exact ih (lanesQuiet_recoverTask quiet error status keepUntil now taskId)

structure LeasesGiven (state : LeaseState) : Prop where
  ids : (state.store.tasks.map TaskRow.id).Nodup
  /-- Every lease was given to a process. -/
  issued : ∀ row ∈ state.store.tasks, ∀ token, row.ownerToken = some token -> (row.id, token) ∈ state.issued

theorem get_none (absent : ¬ (store.get taskId).isSome) : taskId ∉ store.tasks.map TaskRow.id := by
  intro mem
  rcases mem_map.mp mem with ⟨row, isRow, isTask⟩
  exact absent (find?_isSome.mpr ⟨row, isRow, decide_eq_true isTask⟩)

variable {maxUser : Option ℕ} {maxSite : ℕ} {now : ℚ}

theorem create_ok {task : NewTask} (created : store.create task token maxUser maxSite now = .ok next) :
  task.id ∉ store.tasks.map TaskRow.id /\ next.tasks = store.tasks ++ [task.row token now] /\ next.lanes = store.lanes := by
  unfold create at created
  cases capacity : store.checkCapacity now task.userId maxUser maxSite with
  | error error =>
    rw [capacity] at created
    cases created
  | ok allowed =>
    rw [capacity] at created
    by_cases exists_ : (store.get task.id).isSome
    · rw [if_pos exists_] at created
      cases created
    · rw [if_neg exists_] at created
      cases created
      exact ⟨get_none exists_, rfl, rfl⟩

theorem resume_ok {modelId : Option ℕ} {modelName : Option Text}
  (resumed : store.resume taskId token maxUser maxSite modelId modelName now = .ok (some next)) :
  next = store.updateTasks (·.id = taskId) (TaskStore.resumed token modelId modelName now) := by
  unfold TaskStore.resume at resumed
  cases found : store.get taskId with
  | none =>
    rw [found] at resumed
    cases resumed
  | some row =>
    rw [found] at resumed
    dsimp only at resumed
    by_cases held : row.held now
    · rw [if_pos held] at resumed
      cases resumed
    · rw [if_neg held] at resumed
      cases capacity : store.checkCapacity now row.userId maxUser maxSite with
      | error error =>
        rw [capacity] at resumed
        cases resumed
      | ok allowed =>
        rw [capacity] at resumed
        cases resumed
        rfl

theorem LeasesGiven.ends {state : LeaseState} (given : LeasesGiven state) {next : TaskStore} (ends : Ends state.store next) :
  LeasesGiven { state with store := next } := by
  constructor
  · rw [ends.ids]
    exact given.ids
  · intro row mem token isToken
    rcases ends.followed row mem with ⟨old, isOld, continues⟩
    rw [continues.id]
    rcases continues.owner with same | cleared | ⟨clash, _⟩
    · exact given.issued old isOld token (same.symm.trans isToken)
    · rw [cleared] at isToken
      cases isToken
    · cases clash

theorem addMessage_ok {userId : ℕ} {content : Text} {maxPending : Option ℕ}
  (added : store.addMessage taskId userId content maxPending now = .ok next) :
  (store.get taskId).isSome /\ next = { store with
      messages := store.messages ++ [⟨store.lastMessage + 1, taskId, userId, clip content 50000, dbNow now, none⟩]
      lastMessage := store.lastMessage + 1 } := by
  unfold addMessage at added
  split_ifs at added with full missing
  cases found : store.get taskId with
  | none =>
    rw [found] at missing
    exact absurd rfl missing
  | some row =>
    cases added
    exact ⟨rfl, rfl⟩

theorem afterCall_addMessage (store : TaskStore) (taskId userId : ℕ) (content : Text) (maxPending : Option ℕ) (now : ℚ) :
  (afterCall store (store.addMessage taskId userId content maxPending now)).tasks = store.tasks /\
    (afterCall store (store.addMessage taskId userId content maxPending now)).lanes = store.lanes := by
  cases added : store.addMessage taskId userId content maxPending now with
  | error error => exact ⟨rfl, rfl⟩
  | ok next =>
    rw [(addMessage_ok added).2]
    exact ⟨rfl, rfl⟩

theorem leasesGiven_next (given : LeasesGiven state) (action : LeaseAction) : LeasesGiven (state.next action) := by
  cases action with
  | create task token maxUser maxSite now =>
    simp only [LeaseState.next]
    cases created : state.store.create task token maxUser maxSite now with
    | error error => exact given
    | ok next =>
      rcases create_ok created with ⟨new, tasks, _⟩
      constructor
      · rw [tasks, map_append]
        exact List.Nodup.append given.ids (nodup_singleton _) (disjoint_singleton.mpr new)
      · intro row mem other isOther
        rw [tasks] at mem
        rcases mem_snoc.mp mem with old | isNew
        · exact mem_append_left _ (given.issued row old other isOther)
        · rw [isNew] at isOther ⊢
          rw [<- Option.some.inj isOther]
          exact mem_concat_self
  | resume taskId token maxUser maxSite modelId modelName now =>
    simp only [LeaseState.next]
    cases resumed : state.store.resume taskId token maxUser maxSite modelId modelName now with
    | error error => exact given
    | ok result =>
      cases result with
      | none => exact given
      | some next =>
        have isNext := resume_ok resumed
        constructor
        · have ids : next.tasks.map TaskRow.id = state.store.tasks.map TaskRow.id := by
            rw [isNext]
            apply ids_update
            intro row
            rfl
          rw [ids]
          exact given.ids
        · intro row mem other isOther
          rw [isNext] at mem
          rcases mem_updateWhere.mp mem with ⟨old, _⟩ | ⟨before, _, isSelected, isRow⟩
          · exact mem_append_left _ (given.issued row old other isOther)
          · rw [<- isRow] at isOther ⊢
            rw [<- Option.some.inj isOther, show (TaskStore.resumed token modelId modelName now before).id = taskId from
              of_decide_eq_true isSelected]
            exact mem_concat_self
  | recover listed error status keepUntil now =>
    exact given.ends (ends_recoverStale listed error status keepUntil now)
  | addMessage taskId userId content maxPending now =>
    exact given.ends (ends_self (afterCall_addMessage state.store taskId userId content maxPending now).1)
  | write taskId token write => exact given.ends (ends_apply write taskId token)

theorem leasesGiven_start : LeasesGiven .start := by
  refine ⟨nodup_nil, ?_⟩
  intro _ mem
  cases mem

variable {action : LeaseAction}

theorem lanesQuiet_next (given : LeasesGiven state) (quiet : LanesQuiet state.store)
  (orderly : state.Orderly action) : LanesQuiet (state.next action).store := by
  cases action with
  | create task token maxUser maxSite now =>
    simp only [LeaseState.next]
    cases created : state.store.create task token maxUser maxSite now with
    | error error => exact quiet
    | ok next =>
      rcases create_ok created with ⟨_, tasks, lanes⟩
      intro row mem none
      rw [tasks] at mem
      rcases mem_snoc.mp mem with old | isNew
      · intro lane isLane isTask
        rw [lanes] at isLane
        exact quiet row old none lane isLane isTask
      · rw [isNew] at none
        cases none
  | resume taskId token maxUser maxSite modelId modelName now =>
    simp only [LeaseState.next]
    cases resumed : state.store.resume taskId token maxUser maxSite modelId modelName now with
    | error error => exact quiet
    | ok result =>
      cases result with
      | none => exact quiet
      | some next =>
        rw [resume_ok resumed]
        exact lanesQuiet_update quiet (fun _ => rfl) (fun _ _ _ clash => nomatch clash)
  | recover listed error status keepUntil now => exact lanesQuiet_recoverStale listed error status keepUntil now quiet
  | addMessage taskId userId content maxPending now =>
    rcases afterCall_addMessage state.store taskId userId content maxPending now with ⟨tasks, lanes⟩
    intro row mem none lane isLane isTask
    change row ∈ (afterCall state.store (state.store.addMessage taskId userId content maxPending now)).tasks at mem
    change lane ∈ (afterCall state.store (state.store.addMessage taskId userId content maxPending now)).lanes at isLane
    rw [tasks] at mem
    rw [lanes] at isLane
    exact quiet row mem none lane isLane isTask
  | write taskId token write => exact lanesQuiet_apply quiet given.ids orderly

theorem lanesQuiet_reachable (reachable : orderlyMachine.Reachable state) :
  LeasesGiven state /\ LanesQuiet state.store := by
  induction reachable with
  | start isStart =>
    rw [show _ = LeaseState.start from isStart]
    refine ⟨leasesGiven_start, ?_⟩
    intro _ mem
    cases mem
  | next _ enabled kept => exact ⟨leasesGiven_next kept.1 _, lanesQuiet_next kept.1 kept.2 enabled.2⟩

theorem lost_next (lost : state.Lost taskId token) (enabled : state.Enabled action) :
  (state.next action).Lost taskId token := by
  have ended {next : TaskStore} (ends : Ends state.store next) : next.owns taskId token = false := by
    rw [eq_false_iff]
    intro owns
    rcases owns_eq_true_iff.mp owns with ⟨row, mem, isTask, isToken⟩
    rcases ends.followed row mem with ⟨before, isBefore, continues⟩
    rcases continues.owner with same | cleared | ⟨clash, _⟩
    · have was := owns_eq_true_iff.mpr ⟨before, isBefore, continues.id.symm.trans isTask, same.symm.trans isToken⟩
      rw [lost.2] at was
      cases was
    · rw [cleared] at isToken
      cases isToken
    · cases clash
  cases action with
  | create task other maxUser maxSite now =>
    simp only [LeaseState.next]
    cases created : state.store.create task other maxUser maxSite now with
    | error error => exact lost
    | ok next =>
      rcases create_ok created with ⟨_, tasks, _⟩
      refine ⟨mem_append_left _ lost.1, ?_⟩
      rw [eq_false_iff]
      intro owns
      rcases owns_eq_true_iff.mp owns with ⟨row, mem, isTask, isToken⟩
      rw [tasks] at mem
      rcases mem_snoc.mp mem with old | isNew
      · have was := owns_eq_true_iff.mpr ⟨row, old, isTask, isToken⟩
        rw [lost.2] at was
        cases was
      · rw [isNew] at isToken
        exact enabled _ lost.1 (Option.some.inj isToken).symm
  | resume task other maxUser maxSite modelId modelName now =>
    simp only [LeaseState.next]
    cases resumed : state.store.resume task other maxUser maxSite modelId modelName now with
    | error error => exact lost
    | ok result =>
      cases result with
      | none => exact lost
      | some next =>
        refine ⟨mem_append_left _ lost.1, ?_⟩
        rw [eq_false_iff]
        intro owns
        rcases owns_eq_true_iff.mp owns with ⟨row, mem, isTask, isToken⟩
        rw [resume_ok resumed] at mem
        rcases mem_updateWhere.mp mem with ⟨old, _⟩ | ⟨_, _, _, isRow⟩
        · have was := owns_eq_true_iff.mpr ⟨row, old, isTask, isToken⟩
          rw [lost.2] at was
          cases was
        · rw [<- isRow] at isToken
          exact enabled _ lost.1 (Option.some.inj isToken).symm
  | recover listed error status keepUntil now => exact ⟨lost.1, ended (ends_recoverStale listed error status keepUntil now)⟩
  | addMessage other userId content maxPending now =>
    exact ⟨lost.1, ended (ends_self (afterCall_addMessage state.store other userId content maxPending now).1)⟩
  | write other own write => exact ⟨lost.1, ended (ends_apply write other own)⟩

/-- A process that lost its token changes nothing of its task from then on. -/
theorem lost_processes_fenced {state : LeaseState} (reachable : orderlyMachine.Reachable state) :
  (∀ taskId token, state.Lost taskId token ->
    (∀ write, orderlyMachine.enabled state (.write taskId token write) ->
      (orderlyMachine.next state (.write taskId token write)).store.view taskId = state.store.view taskId) /\
    (∀ action, orderlyMachine.enabled state action -> (orderlyMachine.next state action).Lost taskId token)) /\
  (∀ row ∈ state.store.tasks, row.ownerToken = none ->
    ∀ lane ∈ state.store.lanes, lane.taskId = row.id -> lane.status.isOpen = false) := by
  refine ⟨?_, (lanesQuiet_reachable reachable).2⟩
  intro taskId token lost
  refine ⟨?_, fun action enabled => lost_next lost enabled.1⟩
  intro write enabled
  have noLane : write.isLane = false := by
    rw [eq_false_iff]
    intro isLane
    cases write with
    | addLane agent title instructions now | updateLane agent status stepsUsed summary now =>
      have owns : state.store.owns taskId token := enabled.2
      rw [lost.2] at owns
      cases owns
    | _ => cases isLane
  change (write.apply state.store taskId token).view taskId = state.store.view taskId
  rw [apply_lost lost.2 noLane]

instance (state : LeaseState) (token : ℕ) : Decidable (state.Unused token) :=
  inferInstanceAs (Decidable (∀ lease ∈ state.issued, lease.2 ≠ token))

instance (store : TaskStore) (listed : List ℕ) (now : ℚ) : Decidable (store.Listed listed now) :=
  inferInstanceAs (Decidable (listed.Nodup /\ listed.length <= 200 /\ _))

instance (state : LeaseState) (action : LeaseAction) : Decidable (state.Enabled action) :=
  match action with
  | .create _ token _ _ _ => inferInstanceAs (Decidable (state.Unused token))
  | .resume _ token _ _ _ _ _ => inferInstanceAs (Decidable (state.Unused token))
  | .recover listed _ status _ now => inferInstanceAs (Decidable (state.store.Listed listed now /\ status.isTerminal))
  | .addMessage _ _ _ _ _ => inferInstanceAs (Decidable True)
  | .write taskId token _ => inferInstanceAs (Decidable ((taskId, token) ∈ state.issued))

instance (state : LeaseState) (taskId token : ℕ) : Decidable (state.Lost taskId token) :=
  inferInstanceAs (Decidable ((taskId, token) ∈ state.issued /\ state.store.owns taskId token = false))

instance (state : LeaseState) (action : LeaseAction) : Decidable (leaseMachine.enabled state action) :=
  inferInstanceAs (Decidable (state.Enabled action))

def stalledRun : List LeaseAction :=
  [.create ⟨1, 1, [], [], none, [], true⟩ 7 none 10 0, .write 1 7 (.addLane 1 [] [] 1),
    .recover [1] [] .interrupted 1000 100]

def lateLane : LeaseAction := .write 1 7 (.updateLane 1 (some .running) none none 101)

def stalled : LeaseState := leaseMachine.run .start stalledRun

/-- The writes of lanes ask for no token: a process that lost its task changes the task's lanes, and a lane runs in a
task that nobody has. -/
theorem late_lanes_written : leaseMachine.Reachable stalled /\ stalled.Lost 1 7 /\ leaseMachine.enabled stalled lateLane /\
  (leaseMachine.next stalled lateLane).store.view 1 ≠ stalled.store.view 1 /\
  ∃ row ∈ (leaseMachine.next stalled lateLane).store.tasks, row.id = 1 /\ row.ownerToken = none /\
    ∃ lane ∈ (leaseMachine.next stalled lateLane).store.lanes, lane.taskId = 1 /\
      lane.status.isOpen := by
  have admitted : leaseMachine.Admits .start stalledRun := by decide +kernel
  refine ⟨(Machine.Reachable.start rfl).run stalledRun admitted, ?_⟩
  decide +kernel

theorem lost_processes_fenced_stalled : orderlyMachine.Reachable stalled /\ stalled.Lost 1 7 /\
  (stalled.next (.write 1 7 (.finish .finished [] [] none 102))).store.view 1 = stalled.store.view 1 := by
  have admitted : orderlyMachine.Admits .start stalledRun := by
    refine ⟨⟨?_, trivial⟩, ⟨?_, ?_⟩, ⟨?_, trivial⟩, trivial⟩
    · decide +kernel
    · decide +kernel
    · show _ = true
      decide +kernel
    · decide +kernel
  have reachable : orderlyMachine.Reachable stalled := (Machine.Reachable.start rfl).run stalledRun admitted
  have lost : stalled.Lost 1 7 := by decide +kernel
  refine ⟨reachable, lost, ?_⟩
  apply ((lost_processes_fenced reachable).1 1 7 lost).1
  refine ⟨lost.1, ?_⟩
  intro owns
  cases owns

end BananaChat.Agents

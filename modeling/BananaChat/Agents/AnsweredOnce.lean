import BananaChat.Agents.Fenced
import BananaChat.Agents.FollowUps

namespace BananaChat.Agents

open Foundation List Rows FollowUpState TaskStore FollowUpEvent

/-!
# Follow-ups are answered once

The leases of the follow-up machine are those of the lease machine: each of its steps is a few steps
there, so a token that was lost stays lost.
-/

variable {store next : TaskStore}

variable {call : FollowUpCall} {now : ℚ} {token taskId userId maxSite : ℕ} {content : Text} {maxUser : Option ℕ}
  {action : FollowUpAction} {state : FollowUpState} (rows : List MessageRow) {before : List MessageRow}

theorem queueFollowUp_ok (queued : store.queueFollowUp call now = .ok next) :
  store.addMessage call.taskId call.userId call.content (some maxPendingFollowUps) now = .ok next := by
  unfold queueFollowUp at queued
  cases added : store.addMessage call.taskId call.userId call.content (some maxPendingFollowUps) now with
  | error error =>
    rw [added] at queued
    cases queued
  | ok result =>
    rw [added] at queued
    cases queued
    rfl

theorem followUpFirst_some {access : Bool} (first : store.followUpFirst call access now = .ok (some next)) :
  store.queueFollowUp call now = .ok next := by
  unfold followUpFirst at first
  cases looked : store.followUpState call.userId call.taskId access with
  | error error =>
    rw [looked] at first
    cases first
  | ok task =>
    rw [looked] at first
    dsimp only at first
    by_cases running : task.isRunning now
    · rw [if_pos running] at first
      cases queued : store.queueFollowUp call now with
      | error error =>
        rw [queued] at first
        cases first
      | ok result =>
        rw [queued] at first
        cases first
        rfl
    · split_ifs at first
      cases first

variable {checks : StartChecks} {checked : ℚ}

theorem followUpSecond_ok {taken : Bool}
  (second : store.followUpSecond call token checks checked now = .ok (next, taken)) :
  ∃ queued, store.queueFollowUp call now = .ok queued /\ ((taken = false /\ next = queued) \/ (taken /\
      queued.resume call.taskId token checks.maxUser checks.maxSite checks.modelId checks.modelName now = .ok (some next))) := by
  unfold followUpSecond at second
  cases looked : store.followUpState call.userId call.taskId checks.access with
  | error error =>
    rw [looked] at second
    cases second
  | ok task =>
    rw [looked] at second
    dsimp only at second
    cases queued : store.queueFollowUp call now with
    | error error =>
      rw [queued] at second
      split_ifs at second
    | ok result =>
      rw [queued] at second
      refine ⟨result, rfl, ?_⟩
      by_cases running : task.isRunning checked
      · rw [if_pos running] at second
        cases second
        exact .inl ⟨rfl, rfl⟩
      · dsimp only at second
        split_ifs at second
        cases resumed : result.resume call.taskId token checks.maxUser checks.maxSite checks.modelId checks.modelName now with
        | error error =>
          rw [resumed] at second
          cases second
        | ok outcome =>
          rw [resumed] at second
          cases outcome with
          | none =>
            cases second
            exact .inl ⟨rfl, rfl⟩
          | some over_ =>
            cases second
            exact .inr ⟨rfl, rfl⟩

theorem afterRun_some (after : store.afterRun userId taskId token checks checked now = some next) :
  store.resume taskId token checks.maxUser checks.maxSite none none now = .ok (some next) := by
  unfold afterRun at after
  cases looked : store.followUpState userId taskId checks.access with
  | error error =>
    rw [looked] at after
    cases after
  | ok task =>
    rw [looked] at after
    dsimp only at after
    cases resumed : store.resume taskId token checks.maxUser checks.maxSite none none now with
    | error error =>
      rw [resumed] at after
      split_ifs at after
    | ok outcome =>
      rw [resumed] at after
      cases outcome with
      | none => split_ifs at after
      | some result =>
        split_ifs at after
        cases after
        rfl

def FollowUpState.lease (state : FollowUpState) : LeaseState := ⟨state.store, state.issued⟩

def FollowUpState.leaseActions (state : FollowUpState) : FollowUpAction -> List LeaseAction
  | .create task token maxUser maxSite now => [.create task token maxUser maxSite now]
  | .followUp userId taskId content access now =>
    match followUpContent content with
    | .error _ => []
    | .ok content =>
      match state.store.followUpFirst ⟨userId, taskId, content⟩ access now with
      | .ok (some _) => [.addMessage taskId userId content (some maxPendingFollowUps) now]
      | _ => []
  | .takeOver call token checks checked now =>
    match state.store.followUpSecond call token checks checked now with
    | .error _ => []
    | .ok (_, false) => [.addMessage call.taskId call.userId call.content (some maxPendingFollowUps) now]
    | .ok (_, true) =>
      [.addMessage call.taskId call.userId call.content (some maxPendingFollowUps) now,
        .resume call.taskId token checks.maxUser checks.maxSite checks.modelId checks.modelName now]
  | .afterRun taskId _ token userId checks checked now =>
    match state.store.afterRun userId taskId token checks checked now with
    | none => []
    | some _ => [.resume taskId token checks.maxUser checks.maxSite none none now]
  | .recover listed error status keepUntil now => [.recover listed error status keepUntil now]
  | .write taskId token write => [.write taskId token write]

theorem lease_addMessage {state : LeaseState} {maxPending : Option ℕ}
  (added : state.store.addMessage taskId userId content maxPending now = .ok next) :
  state.next (.addMessage taskId userId content maxPending now) = { state with store := next } := by
  simp only [LeaseState.next]
  rw [added]
  rfl

variable {modelId : Option ℕ} {modelName : Option Text}

theorem lease_resume {state : LeaseState}
  (resumed : state.store.resume taskId token maxUser maxSite modelId modelName now = .ok (some next)) :
  state.next (.resume taskId token maxUser maxSite modelId modelName now) = ⟨next, state.issued ++ [(taskId, token)]⟩ := by
  simp only [LeaseState.next]
  rw [resumed]

theorem lease_next (enabled : state.Enabled action) : leaseMachine.Admits state.lease (state.leaseActions action) /\
    leaseMachine.run state.lease (state.leaseActions action) = (state.next action).lease := by
  cases action with
  | create task token maxUser maxSite now =>
    refine ⟨⟨enabled, trivial⟩, ?_⟩
    change state.lease.next (.create task token maxUser maxSite now) = _
    simp only [FollowUpState.next, LeaseState.next, FollowUpState.lease]
    cases state.store.create task token maxUser maxSite now with
    | error error | ok created => rfl
  | followUp userId taskId content access now =>
    simp only [FollowUpState.leaseActions, FollowUpState.next]
    cases followUpContent content with
    | error error => exact ⟨trivial, rfl⟩
    | ok text =>
      dsimp only
      cases first : state.store.followUpFirst ⟨userId, taskId, text⟩ access now with
      | error error => exact ⟨trivial, rfl⟩
      | ok result =>
        cases result with
        | none => exact ⟨trivial, rfl⟩
        | some queued =>
          refine ⟨⟨trivial, trivial⟩, ?_⟩
          exact lease_addMessage (queueFollowUp_ok (followUpFirst_some first))
  | takeOver call token checks checked now =>
    simp only [FollowUpState.leaseActions, FollowUpState.next]
    cases second : state.store.followUpSecond call token checks checked now with
    | error error => exact ⟨trivial, rfl⟩
    | ok result =>
      rcases result with ⟨after, _⟩
      rcases followUpSecond_ok second with ⟨queued, isQueued, ⟨isTaken, same⟩ | ⟨isTaken, resumed⟩⟩
      · subst isTaken
        subst same
        refine ⟨⟨trivial, trivial⟩, ?_⟩
        exact lease_addMessage (queueFollowUp_ok isQueued)
      · subst isTaken
        have added : state.lease.next (.addMessage call.taskId call.userId call.content (some maxPendingFollowUps) now) =
            ⟨queued, state.issued⟩ := lease_addMessage (queueFollowUp_ok isQueued)
        refine ⟨⟨trivial, ?_, trivial⟩, ?_⟩
        · change (state.lease.next _).Unused token
          exact enabled.2
        · have followed : LeaseState.next ⟨queued, state.issued⟩ (.resume call.taskId token checks.maxUser checks.maxSite
              checks.modelId checks.modelName now) = ⟨after, state.issued ++ [(call.taskId, token)]⟩ := lease_resume resumed
          rw [<- added] at followed
          exact followed
  | afterRun taskId ended token userId checks checked now =>
    simp only [FollowUpState.leaseActions, FollowUpState.next]
    cases after : state.store.afterRun userId taskId token checks checked now with
    | none => exact ⟨trivial, rfl⟩
    | some result => exact ⟨⟨enabled.2, trivial⟩, lease_resume (afterRun_some after)⟩
  | recover listed error status keepUntil now => exact ⟨⟨enabled, trivial⟩, rfl⟩
  | write taskId token write => exact ⟨⟨enabled.1, trivial⟩, rfl⟩

theorem leasesGiven_run {state : LeaseState} (given : LeasesGiven state) (actions : List LeaseAction) :
  LeasesGiven (leaseMachine.run state actions) := by
  induction actions generalizing state with
  | nil => exact given
  | cons action rest ih => exact ih (leasesGiven_next given action)

theorem lost_run {state : LeaseState} (lost : state.Lost taskId token) {actions : List LeaseAction}
  (admitted : leaseMachine.Admits state actions) : (leaseMachine.run state actions).Lost taskId token := by
  induction actions generalizing state with
  | nil => exact lost
  | cons action rest ih => exact ih (lost_next lost admitted.1) admitted.2

section

variable (taskId : ℕ) (past : List FollowUpEvent)

def acceptedOf : List (ℕ × Text) :=
  past.filterMap (fun event => match event with
    | .accepted task message content => if task = taskId then some (message, content) else none
    | _ => none)

def consumedOf : List (ℕ × Text) :=
  past.filterMap (fun event => match event with
    | .consumed task _ message content => if task = taskId then some (message, content) else none
    | _ => none)

def promptOf : List Text :=
  past.filterMap (fun event => match event with
    | .created task prompt => if task = taskId then some prompt else none
    | _ => none)

end

def FollowUpEvent.isEnd (taskId token : ℕ) : FollowUpEvent -> Bool
  | .finished task own => task = taskId /\ own = token
  | .recovered task own => task = taskId /\ own = token
  | _ => false

def MessageRow.said (row : MessageRow) : ℕ × Text := (row.id, row.content)

def StepRow.isUser (taskId : ℕ) (row : StepRow) : Bool := row.taskId = taskId /\ row.kind = .user /\ row.detail.agent = 0

def TaskStore.userTexts (store : TaskStore) (taskId : ℕ) : List Text :=
  (store.steps.filter (StepRow.isUser taskId)).map StepRow.content

def TaskStore.messagesOf (store : TaskStore) (taskId : ℕ) : List MessageRow :=
  store.messages.filter (·.taskId = taskId)

structure Silent (store next : TaskStore) : Prop where
  messages : next.messages = store.messages
  last : next.lastMessage = store.lastMessage
  texts : ∀ taskId, next.userTexts taskId = store.userTexts taskId

theorem silent_self (messages : next.messages = store.messages) (last : next.lastMessage = store.lastMessage)
  (steps : next.steps = store.steps) : Silent store next := by
  refine ⟨messages, last, ?_⟩
  intro _
  unfold userTexts
  rw [steps]

theorem Silent.trans {middle : TaskStore} (first : Silent store middle) (second : Silent middle next) : Silent store next :=
  ⟨second.messages.trans first.messages, second.last.trans first.last,
    fun taskId => (second.texts taskId).trans (first.texts taskId)⟩

theorem userTexts_insertStep (store : TaskStore) (taskId : ℕ) (kind : StepKind) (content : Text) (detail : StepDetail)
  (createdAt : ℤ) (other : ℕ) : (store.insertStep taskId kind content detail createdAt).userTexts other =
    store.userTexts other ++ if taskId = other /\ kind = .user /\ detail.agent = 0 then [content] else [] := by
  unfold userTexts insertStep
  rw [filter_append, map_append]
  congr 1
  by_cases spoken : taskId = other /\ kind = .user /\ detail.agent = 0
  · rw [if_pos spoken, filter_cons_of_pos]
    · rfl
    · exact decide_eq_true spoken
  · rw [if_neg spoken, filter_cons_of_neg]
    · rfl
    · intro isUser
      exact spoken (of_decide_eq_true isUser)

theorem silent_insertStep (store : TaskStore) {kind : StepKind} {detail : StepDetail} {createdAt : ℤ}
  (other : kind = .user -> detail.agent ≠ 0) :
  Silent store (store.insertStep taskId kind content detail createdAt) := by
  refine ⟨rfl, rfl, ?_⟩
  intro _
  rw [userTexts_insertStep, if_neg, append_nil]
  rintro ⟨_, isUser, isMain⟩
  exact other isUser isMain

theorem silent_recoverStale (listed : List ℕ) (error : Text) (status : TaskStatus) (keepUntil : ℤ) (now : ℚ) :
  Silent store (store.recoverStale listed error status keepUntil now) := by
  unfold recoverStale
  induction listed generalizing store with
  | nil => exact silent_self rfl rfl rfl
  | cons taskId rest ih =>
    have recovered : Silent store (store.recoverTask error status keepUntil now taskId) := by
      have ended : Silent store ((store.updateTasks (·.id = taskId)
          (ended status error (some keepUntil) now)).stopLanes taskId now) := silent_self rfl rfl rfl
      apply ended.trans
      apply silent_insertStep
      intro clash
      cases clash
    exact recovered.trans ih

theorem silent_apply {write : RunWrite} (written : Written write)
  (other : ∀ limit now, write ≠ .takeMessages limit now) : Silent store (write.apply store taskId token) := by
  cases write with
  | takeMessages limit now => exact absurd rfl (other limit now)
  | setStatus status notice started now =>
    simp only [RunWrite.apply, setStatus]
    cases status.isActive with
    | true | false => exact silent_self rfl rfl rfl
  | finish status summary error expiresAt now =>
    simp only [RunWrite.apply, finish]
    cases status.isTerminal with
    | true | false => exact silent_self rfl rfl rfl
  | addStep kind content detail now =>
    simp only [RunWrite.apply, addStep]
    cases store.owns taskId token with
    | false => exact silent_self rfl rfl rfl
    | true => exact silent_insertStep store written
  | addLane agent title instructions now =>
    simp only [RunWrite.apply, addLane]
    by_cases refused : (store.get taskId).isNone \/
        store.lanes.any (fun lane => lane.taskId = taskId /\ lane.agent = agent)
    · rw [if_pos refused]
      exact silent_self rfl rfl rfl
    · rw [if_neg refused]
      exact silent_self rfl rfl rfl
  | setSandbox sandboxId expiresAt | addUsage steps toolCalls tokensIn tokensOut now | renew now
  | updateLane agent status stepsUsed summary now => exact silent_self rfl rfl rfl

def MessageRow.answered (now : ℚ) (row : MessageRow) : MessageRow := { row with consumedAt := some (dbNow now) }

theorem messages_consume (taskId : ℕ) (now : ℚ) :
  (rows.foldl (fun store row => store.consume taskId now row) store).messages =
    store.messages.map (fun row => if row.id ∈ rows.map MessageRow.id then row.answered now else row) := by
  induction rows generalizing store with
  | nil => simp
  | cons row rest ih =>
    rw [foldl_cons, ih]
    change (updateWhere (·.id = row.id) (MessageRow.answered now) store.messages).map _ = _
    unfold updateWhere
    rw [map_map]
    apply map_congr_left
    intro other _
    simp only [Function.comp_apply, map_cons, mem_cons]
    by_cases first : other.id = row.id
    · rw [if_pos (decide_eq_true first), if_pos (Or.inl first)]
      split_ifs
      · rfl
      · rfl
    · rw [if_neg fun same => first (of_decide_eq_true same)]
      by_cases later : other.id ∈ rest.map MessageRow.id
      · rw [if_pos later, if_pos (.inr later)]
      · rw [if_neg later, if_neg (·.elim first later)]

theorem lastMessage_consume (taskId : ℕ) (now : ℚ) :
  (rows.foldl (fun store row => store.consume taskId now row) store).lastMessage = store.lastMessage := by
  induction rows generalizing store with
  | nil => rfl
  | cons row rest ih =>
    rw [foldl_cons, ih]
    rfl

theorem userTexts_consume (taskId : ℕ) (now : ℚ) (other : ℕ) :
  (rows.foldl (fun store row => store.consume taskId now row) store).userTexts other =
    store.userTexts other ++ if taskId = other then rows.map MessageRow.content else [] := by
  induction rows generalizing store with
  | nil =>
    rw [map_nil, ite_self, append_nil]
    rfl
  | cons row rest ih =>
    rw [foldl_cons, ih]
    unfold consume
    rw [userTexts_insertStep]
    by_cases same : taskId = other
    · rw [if_pos ⟨same, rfl, rfl⟩, if_pos same, if_pos same, append_assoc]
      rfl
    · rw [if_neg (same ·.1), if_neg same, if_neg same, append_nil]
      rfl

theorem messages_nodup {rows : List MessageRow} (ordered : (rows.map MessageRow.id).Pairwise fun first second => first < second) :
    (rows.map MessageRow.id).Nodup := ordered.imp Nat.ne_of_lt

variable {waiting : List MessageRow}

theorem pending_eq (split : store.messagesOf taskId = before ++ waiting)
  (answered : ∀ row ∈ before, row.consumedAt ≠ none)
  (open_ : ∀ row ∈ waiting, row.consumedAt = none) : store.pending taskId = waiting := by
  have filtered : store.pending taskId = (store.messagesOf taskId).filter (·.consumedAt = none) := by
    unfold pending messagesOf
    rw [filter_filter]
    apply filter_congr
    intro row _
    rw [<- Bool.decide_and]
    exact decide_eq_decide.mpr and_comm
  rw [filtered, split, filter_append, filter_eq_nil_iff.mpr, filter_eq_self.mpr, nil_append]
  · intro row mem
    exact decide_eq_true (open_ row mem)
  · intro row mem isOpen
    exact answered row mem (of_decide_eq_true isOpen)

structure Answered (past : List FollowUpEvent) (store : TaskStore) (taskId : ℕ) (before waiting : List MessageRow) : Prop where
  split : store.messagesOf taskId = before ++ waiting
  answered : ∀ row ∈ before, row.consumedAt ≠ none
  waits : ∀ row ∈ waiting, row.consumedAt = none
  consumed : consumedOf taskId past = before.map MessageRow.said
  texts : store.userTexts taskId = promptOf taskId past ++ before.map MessageRow.content

structure Talked (past : List FollowUpEvent) (store : TaskStore) : Prop where
  ordered : (store.messages.map MessageRow.id).Pairwise (fun first second => first < second)
  bounded : ∀ row ∈ store.messages, row.id <= store.lastMessage
  accepted : ∀ taskId, acceptedOf taskId past = (store.messagesOf taskId).map MessageRow.said
  answered : ∀ taskId, ∃ before waiting, Answered past store taskId before waiting

inductive Said (store next : TaskStore) : List FollowUpEvent -> Prop
  | nothing {events : List FollowUpEvent} (silent : Silent store next)
      (noEvents : ∀ taskId, acceptedOf taskId events = [] /\ consumedOf taskId events = [] /\ promptOf taskId events = []) :
      Said store next events
  | created (taskId : ℕ) (prompt : Text) (unknown : ∀ row ∈ store.messages, row.taskId ≠ taskId)
      (messages : next.messages = store.messages) (last : next.lastMessage = store.lastMessage)
      (texts : ∀ other, next.userTexts other = store.userTexts other ++ if taskId = other then [prompt] else []) :
      Said store next [.created taskId prompt]
  | queued (taskId userId : ℕ) (content : Text) (createdAt : ℤ) (known : taskId ∈ store.tasks.map TaskRow.id)
      (messages : next.messages = store.messages ++ [⟨store.lastMessage + 1, taskId, userId, content, createdAt, none⟩])
      (last : next.lastMessage = store.lastMessage + 1) (texts : ∀ other, next.userTexts other = store.userTexts other) :
      Said store next [.accepted taskId (store.lastMessage + 1) content]
  | taken (taskId token limit : ℕ) (now : ℚ) (isNext : next = store.takeMessages taskId token limit now) :
      Said store next ((store.taken taskId token limit).map fun row => .consumed taskId token row.id row.content)

variable {past events : List FollowUpEvent}

theorem Talked.nothing (talked : Talked past store) (silent : Silent store next)
  (noEvents : ∀ taskId, acceptedOf taskId events = [] /\ consumedOf taskId events = [] /\ promptOf taskId events = []) :
  Talked (past ++ events) next := by
  have sameMessages (taskId : ℕ) : next.messagesOf taskId = store.messagesOf taskId := by
    unfold messagesOf
    rw [silent.messages]
  refine ⟨?_, ?_, ?_, ?_⟩
  · rw [silent.messages]
    exact talked.ordered
  · rw [silent.messages, silent.last]
    exact talked.bounded
  · intro taskId
    have noAccepted := (noEvents taskId).1
    unfold acceptedOf at noAccepted ⊢
    rw [filterMap_append, noAccepted, append_nil, sameMessages]
    exact talked.accepted taskId
  · intro taskId
    rcases talked.answered taskId with ⟨before, waiting, kept⟩
    refine ⟨before, waiting, (sameMessages taskId).trans kept.split, kept.answered, kept.waits, ?_, ?_⟩
    · have noConsumed := (noEvents taskId).2.1
      unfold consumedOf at noConsumed ⊢
      rw [filterMap_append, noConsumed, append_nil]
      exact kept.consumed
    · have noPrompt := (noEvents taskId).2.2
      unfold promptOf at noPrompt ⊢
      rw [filterMap_append, noPrompt, append_nil, silent.texts]
      exact kept.texts

theorem Talked.created (talked : Talked past store) {prompt : Text}
  (unknown : ∀ row ∈ store.messages, row.taskId ≠ taskId) (messages : next.messages = store.messages)
  (last : next.lastMessage = store.lastMessage)
  (texts : ∀ other, next.userTexts other = store.userTexts other ++ if taskId = other then [prompt] else []) :
  Talked (past ++ [.created taskId prompt]) next := by
  have sameMessages (other : ℕ) : next.messagesOf other = store.messagesOf other := by
    unfold messagesOf
    rw [messages]
  refine ⟨?_, ?_, ?_, ?_⟩
  · rw [messages]
    exact talked.ordered
  · rw [messages, last]
    exact talked.bounded
  · intro other
    unfold acceptedOf
    rw [filterMap_append, sameMessages]
    exact (append_nil _).trans (talked.accepted other)
  · intro other
    rcases talked.answered other with ⟨before, waiting, kept⟩
    refine ⟨before, waiting, (sameMessages other).trans kept.split, kept.answered, kept.waits, ?_, ?_⟩
    · unfold consumedOf
      rw [filterMap_append]
      exact (append_nil _).trans kept.consumed
    · rw [texts, kept.texts]
      unfold promptOf
      rw [filterMap_append, append_assoc, append_assoc]
      congr 1
      by_cases same : taskId = other
      · -- The task is new, so no message of it can have been consumed.
        have none_ : before = [] := by
          rw [eq_nil_iff_forall_not_mem]
          intro row mem
          have isMessage : row ∈ store.messagesOf other := by
            rw [kept.split]
            exact mem_append_left _ mem
          have parts := mem_filter.mp isMessage
          exact unknown row parts.1 ((of_decide_eq_true parts.2).trans same.symm)
        rw [none_, if_pos same]
        simp [same]
      · simp [same]

theorem Talked.queued (talked : Talked past store) {createdAt : ℤ}
  (messages : next.messages = store.messages ++ [⟨store.lastMessage + 1, taskId, userId, content, createdAt, none⟩])
  (last : next.lastMessage = store.lastMessage + 1) (texts : ∀ other, next.userTexts other = store.userTexts other) :
  Talked (past ++ [.accepted taskId (store.lastMessage + 1) content]) next := by
  have newMessages (other : ℕ) : next.messagesOf other = store.messagesOf other ++
      if taskId = other then [⟨store.lastMessage + 1, taskId, userId, content, createdAt, none⟩] else [] := by
    unfold messagesOf
    rw [messages, filter_append]
    by_cases same : taskId = other
    · simp [same]
    · simp [same]
  refine ⟨?_, ?_, ?_, ?_⟩
  · rw [messages, map_append, pairwise_append]
    refine ⟨talked.ordered, pairwise_singleton _ _, ?_⟩
    intro _ firstMember second secondMember
    rcases mem_map.mp firstMember with ⟨row, mem, _⟩
    have isNew : second = store.lastMessage + 1 := mem_singleton.mp secondMember
    have bound := talked.bounded row mem
    omega
  · intro row mem
    rw [messages] at mem
    rw [last]
    rcases mem_snoc.mp mem with old | new
    · exact Nat.le_succ_of_le (talked.bounded row old)
    · rw [new]
  · intro other
    have old := talked.accepted other
    unfold acceptedOf at old ⊢
    rw [filterMap_append, old, newMessages, map_append]
    congr 1
    by_cases same : taskId = other
    · simp [same, MessageRow.said]
    · simp [same]
  · intro other
    rcases talked.answered other with ⟨before, waiting, kept⟩
    refine ⟨before, waiting ++ if taskId = other then [⟨store.lastMessage + 1, taskId, userId, content, createdAt, none⟩] else [],
      ?_, kept.answered, ?_, ?_, ?_⟩
    · rw [newMessages, kept.split, append_assoc]
    · intro row mem
      rcases mem_append.mp mem with old | new
      · exact kept.waits row old
      · split_ifs at new
        · rw [mem_singleton.mp new]
        · cases new
    · unfold consumedOf
      rw [filterMap_append]
      exact (append_nil _).trans kept.consumed
    · rw [texts, kept.texts]
      unfold promptOf
      rw [filterMap_append]
      exact congrArg (· ++ before.map MessageRow.content) (append_nil _).symm

theorem map_answered_other {rows taken : List MessageRow} (apart : ∀ row ∈ rows, row.id ∉ taken.map MessageRow.id) :
  rows.map (fun row => if row.id ∈ taken.map MessageRow.id then row.answered now else row) = rows := by
  rw [map_congr_left (fun row mem => if_neg (apart row mem)), map_id']

theorem map_answered_between {taken later : List MessageRow} (now : ℚ)
  (distinct : ((before ++ (taken ++ later)).map MessageRow.id).Nodup) :
  (before ++ (taken ++ later)).map (fun row => if row.id ∈ taken.map MessageRow.id then row.answered now else row) =
    before ++ (taken.map (MessageRow.answered now) ++ later) := by
  rw [map_append, map_append, nodup_append, nodup_append] at distinct
  rw [map_append, map_append]
  congr 1
  · apply map_answered_other
    intro row mem isTaken
    exact distinct.2.2 _ (mem_map_of_mem mem) _ (mem_append_left _ isTaken) rfl
  · congr 1
    · apply map_congr_left
      intro row mem
      exact if_pos (mem_map_of_mem mem)
    · apply map_answered_other
      intro _ mem isTaken
      exact distinct.2.1.2.2 _ isTaken _ (mem_map_of_mem mem) rfl

theorem taken_eq (kept : Answered past store taskId before waiting) (token limit : ℕ) :
  ∃ count, store.taken taskId token limit = waiting.take count := by
  unfold TaskStore.taken
  rw [pending_eq kept.split kept.answered kept.waits]
  cases store.owns taskId token with
  | true => exact ⟨limit, rfl⟩
  | false => exact ⟨0, rfl⟩

theorem Talked.taken (talked : Talked past store) (taskId token limit : ℕ) (now : ℚ) :
  Talked (past ++ (store.taken taskId token limit).map fun row => .consumed taskId token row.id row.content)
    (store.takeMessages taskId token limit now) := by
  rcases talked.answered taskId with ⟨before, waiting, kept⟩
  rcases taken_eq kept token limit with ⟨count, isTaken⟩
  have distinct := messages_nodup talked.ordered
  have isMessage {task : ℕ} {row : MessageRow} (mem : row ∈ store.messagesOf task) : row ∈ store.messages /\ row.taskId = task := by
    have parts := mem_filter.mp mem
    exact ⟨parts.1, of_decide_eq_true parts.2⟩
  have takenMember {row : MessageRow} (mem : row ∈ waiting.take count) : row ∈ store.messagesOf taskId := by
    rw [kept.split]
    exact mem_append_right _ (mem_of_mem_take mem)
  have messages : (store.takeMessages taskId token limit now).messages =
      store.messages.map (fun row => if row.id ∈ (waiting.take count).map MessageRow.id then row.answered now else row) := by
    unfold takeMessages
    rw [isTaken, messages_consume]
  have messagesOf (task : ℕ) : (store.takeMessages taskId token limit now).messagesOf task =
      (store.messagesOf task).map
        (fun row => if row.id ∈ (waiting.take count).map MessageRow.id then row.answered now else row) := by
    unfold messagesOf
    rw [messages, filter_map]
    congr 1
    apply filter_congr
    intro row _
    simp only [Function.comp_apply]
    split_ifs
    · rfl
    · rfl
  have said (row : MessageRow) :
      (if row.id ∈ (waiting.take count).map MessageRow.id then row.answered now else row).said = row.said := by
    split_ifs
    · rfl
    · rfl
  refine ⟨?_, ?_, ?_, ?_⟩
  · have ids : (store.takeMessages taskId token limit now).messages.map MessageRow.id = store.messages.map MessageRow.id := by
      rw [messages, map_map]
      apply map_congr_left
      intro row _
      exact congrArg Prod.fst (said row)
    rw [ids]
    exact talked.ordered
  · intro row mem
    rw [messages] at mem
    rcases mem_map.mp mem with ⟨old, isOld, same⟩
    have sameId : row.id = old.id := by
      rw [<- same]
      exact congrArg Prod.fst (said old)
    have sameLast : (store.takeMessages taskId token limit now).lastMessage = store.lastMessage := lastMessage_consume _ _ _
    rw [sameId, sameLast]
    exact talked.bounded old isOld
  · intro task
    have old := talked.accepted task
    have noAccepted : acceptedOf task ((store.taken taskId token limit).map
        (fun row => .consumed taskId token row.id row.content)) = [] := by
      unfold acceptedOf
      rw [filterMap_eq_nil_iff]
      intro event mem
      rcases mem_map.mp mem with ⟨row, _, isEvent⟩
      rw [<- isEvent]
    unfold acceptedOf at old noAccepted ⊢
    rw [filterMap_append, noAccepted, append_nil, old, messagesOf, map_map]
    apply map_congr_left
    intro row _
    exact (said row).symm
  · intro task
    have noPrompt : promptOf task ((store.taken taskId token limit).map
        (fun row => .consumed taskId token row.id row.content)) = [] := by
      unfold promptOf
      rw [filterMap_eq_nil_iff]
      intro _ mem
      rcases mem_map.mp mem with ⟨row, _, isEvent⟩
      rw [<- isEvent]
    have nowConsumed : consumedOf task ((store.taken taskId token limit).map
        (fun row => .consumed taskId token row.id row.content)) =
        if taskId = task then (waiting.take count).map MessageRow.said else [] := by
      unfold consumedOf
      rw [isTaken, filterMap_map]
      by_cases same : taskId = task
      · rw [if_pos same]
        exact filterMap_eq_map_iff_forall_eq_some.mpr (fun row _ => if_pos same)
      · rw [if_neg same, filterMap_eq_nil_iff]
        intro row _
        exact if_neg same
    have texts : (store.takeMessages taskId token limit now).userTexts task =
        store.userTexts task ++ if taskId = task then (waiting.take count).map MessageRow.content else [] := by
      unfold takeMessages
      rw [isTaken, userTexts_consume]
    by_cases same : taskId = task
    · subst same
      rw [if_pos rfl] at nowConsumed texts
      refine ⟨before ++ (waiting.take count).map (MessageRow.answered now), waiting.drop count, ?_, ?_, ?_, ?_, ?_⟩
      · have ids : ((store.messagesOf taskId).map MessageRow.id).Nodup := by
          exact distinct.sublist (filter_sublist.map _)
        have split : store.messagesOf taskId = before ++ (waiting.take count ++ waiting.drop count) := by
          rw [take_append_drop]
          exact kept.split
        rw [split] at ids
        rw [messagesOf, split, map_answered_between now ids, append_assoc]
      · intro row mem
        rcases mem_append.mp mem with old | new
        · exact kept.answered row old
        · rcases mem_map.mp new with ⟨_, _, isRow⟩
          rw [<- isRow]
          exact Option.some_ne_none _
      · intro row mem
        exact kept.waits row (mem_of_mem_drop mem)
      · have old := kept.consumed
        unfold consumedOf at old nowConsumed ⊢
        rw [filterMap_append, old, nowConsumed, map_append, map_map]
        rfl
      · have old := kept.texts
        unfold promptOf at noPrompt old ⊢
        rw [texts, old, filterMap_append, noPrompt, append_nil, map_append, map_map, append_assoc]
        rfl
    · rcases talked.answered task with ⟨before', waiting', kept'⟩
      rw [if_neg same] at nowConsumed texts
      refine ⟨before', waiting', ?_, kept'.answered, kept'.waits, ?_, ?_⟩
      · rw [messagesOf, map_answered_other, kept'.split]
        intro _ mem isTakenId
        rcases mem_map.mp isTakenId with ⟨_, isTaken', sameId⟩
        have ofTask := isMessage mem
        have ofOther := isMessage (takenMember isTaken')
        have equal := eq_of_key distinct ofOther.1 ofTask.1 sameId
        rw [equal] at ofOther
        exact same (ofOther.2.symm.trans ofTask.2)
      · have old := kept'.consumed
        unfold consumedOf at old nowConsumed ⊢
        rw [filterMap_append, nowConsumed, append_nil]
        exact old
      · have old := kept'.texts
        unfold promptOf at noPrompt old ⊢
        rw [texts, filterMap_append, noPrompt, append_nil, append_nil]
        exact old

theorem talked_said (talked : Talked past store) (said : Said store next events) : Talked (past ++ events) next := by
  cases said with
  | nothing silent noEvents => exact talked.nothing silent noEvents
  | created taskId prompt unknown messages last texts => exact talked.created unknown messages last texts
  | queued taskId userId content createdAt _ messages last texts => exact talked.queued messages last texts
  | taken taskId token limit now isNext =>
    rw [isNext]
    exact talked.taken taskId token limit now

theorem clip_short (short : content.length <= maxFollowUpChars) : clip content 50000 = content := by
  unfold maxFollowUpChars at short
  exact take_of_length_le (by omega)

theorem followUpContent_short {content : Option Text} {text : Text} (accepted : followUpContent content = .ok text) :
  text.length <= maxFollowUpChars := by
  unfold followUpContent at accepted
  dsimp only at accepted
  split_ifs at accepted with empty long
  cases accepted
  exact Nat.le_of_not_lt long

theorem mem_ids_of_get (found : (store.get taskId).isSome) : taskId ∈ store.tasks.map TaskRow.id := by
  rcases find?_isSome.mp found with ⟨row, mem, isTask⟩
  exact mem_map.mpr ⟨row, mem, of_decide_eq_true isTask⟩

theorem said_queued {queued : TaskStore} (short : call.content.length <= maxFollowUpChars)
  (isQueued : store.queueFollowUp call now = .ok queued) (messages : next.messages = queued.messages)
  (last : next.lastMessage = queued.lastMessage) (steps : next.steps = queued.steps) :
  Said store next [.accepted call.taskId (store.lastMessage + 1) call.content] := by
  rcases addMessage_ok (queueFollowUp_ok isQueued) with ⟨found, isNext⟩
  rw [clip_short short] at isNext
  subst isNext
  refine Said.queued call.taskId call.userId call.content (dbNow now) (mem_ids_of_get found) messages last ?_
  intro _
  unfold userTexts
  rw [steps]

theorem said_resumed (resumed : store.resume taskId token maxUser maxSite modelId modelName now = .ok (some next)) :
  next.messages = store.messages /\ next.lastMessage = store.lastMessage /\ next.steps = store.steps := by
  rw [resume_ok resumed]
  exact ⟨rfl, rfl, rfl⟩

theorem said_create {task : NewTask} (created : store.create task token maxUser maxSite now = .ok next)
  (known : ∀ row ∈ store.messages, row.taskId ∈ store.tasks.map TaskRow.id) :
  Said store next [.created task.id (clip task.prompt maxText)] := by
  have new := (create_ok created).1
  have isNext : next = insertStep { store with tasks := store.tasks ++ [task.row token now] } task.id .user
      (clip task.prompt maxText) plainDetail (dbNow now) := by
    unfold create at created
    cases capacity : store.checkCapacity now task.userId maxUser maxSite with
    | error error =>
      rw [capacity] at created
      cases created
    | ok allowed =>
      rw [capacity] at created
      split_ifs at created
      cases created
      rfl
  refine Said.created task.id (clip task.prompt maxText) ?_ ?_ ?_ ?_
  · intro row mem same
    rw [<- same] at new
    exact new (known row mem)
  · rw [isNext]
    rfl
  · rw [isNext]
    rfl
  · intro other
    rw [isNext, userTexts_insertStep]
    congr 1
    by_cases same : task.id = other
    · rw [if_pos ⟨same, rfl, rfl⟩, if_pos same]
    · rw [if_neg (same ·.1), if_neg same]

theorem noEvents_ends (ends : ∀ event ∈ events, ∃ task token, event.isEnd task token) (taskId : ℕ) :
  acceptedOf taskId events = [] /\ consumedOf taskId events = [] /\ promptOf taskId events = [] := by
  have silent {Result : Type} {read : FollowUpEvent -> Option Result}
      (reads : ∀ task token event, event.isEnd task token -> read event = none) : events.filterMap read = [] := by
    rw [filterMap_eq_nil_iff]
    intro event mem
    rcases ends event mem with ⟨task, token, isEnd⟩
    exact reads task token event isEnd
  refine ⟨silent ?_, silent ?_, silent ?_⟩
  · intro task token event isEnd
    cases event with
    | accepted => cases isEnd
    | _ => rfl
  · intro task token event isEnd
    cases event with
    | consumed => cases isEnd
    | _ => rfl
  · intro _ _ event isEnd
    cases event with
    | created => cases isEnd
    | _ => rfl

theorem noEvents_nil (taskId : ℕ) : acceptedOf taskId [] = [] /\ consumedOf taskId [] = [] /\ promptOf taskId [] = [] :=
  ⟨rfl, rfl, rfl⟩

theorem said_next (enabled : state.Enabled action)
  (known : ∀ row ∈ state.store.messages, row.taskId ∈ state.store.tasks.map TaskRow.id)
  (short : ∀ call ∈ state.waiting, call.content.length <= maxFollowUpChars) :
  Said state.store (state.next action).store (state.report action) := by
  have stays : Said state.store state.store [] := Said.nothing (silent_self rfl rfl rfl) noEvents_nil
  cases action with
  | create task token maxUser maxSite now =>
    simp only [FollowUpState.next, FollowUpState.report]
    cases created : state.store.create task token maxUser maxSite now with
    | error error => exact stays
    | ok result => exact said_create created known
  | followUp userId taskId content access now =>
    simp only [FollowUpState.next, FollowUpState.report]
    cases accepted : followUpContent content with
    | error error => exact stays
    | ok text =>
      dsimp only
      cases first : state.store.followUpFirst ⟨userId, taskId, text⟩ access now with
      | error error => exact stays
      | ok result =>
        cases result with
        | none => exact stays
        | some queued => exact said_queued (followUpContent_short accepted) (followUpFirst_some first) rfl rfl rfl
  | takeOver call token checks checked now =>
    simp only [FollowUpState.next, FollowUpState.report]
    cases second : state.store.followUpSecond call token checks checked now with
    | error error => exact stays
    | ok result =>
      rcases result with ⟨after, _⟩
      rcases followUpSecond_ok second with ⟨_, isQueued, ⟨_, same⟩ | ⟨_, resumed⟩⟩
      · subst same
        exact said_queued (short call enabled.1) isQueued rfl rfl rfl
      · rcases said_resumed resumed with ⟨messages, last, steps⟩
        exact said_queued (short call enabled.1) isQueued messages last steps
  | afterRun taskId ended token userId checks checked now =>
    simp only [FollowUpState.next, FollowUpState.report]
    cases after : state.store.afterRun userId taskId token checks checked now with
    | none => exact stays
    | some result =>
      rcases said_resumed (afterRun_some after) with ⟨messages, last, steps⟩
      exact Said.nothing (silent_self messages last steps) noEvents_nil
  | recover listed error status keepUntil now =>
    refine Said.nothing (silent_recoverStale listed error status keepUntil now) (noEvents_ends ?_)
    intro event mem
    rcases mem_flatMap.mp mem with ⟨taskId, _, isEvent⟩
    rcases mem_map.mp isEvent with ⟨token, _, same⟩
    rw [<- same]
    exact ⟨taskId, token, decide_eq_true ⟨rfl, rfl⟩⟩
  | write taskId token write =>
    by_cases takes : ∃ limit now, write = .takeMessages limit now
    · rcases takes with ⟨limit, now, same⟩
      subst same
      exact Said.taken taskId token limit now rfl
    · have others (limit : ℕ) (now : ℚ) : write ≠ .takeMessages limit now := fun same => takes ⟨limit, now, same⟩
      refine Said.nothing (silent_apply enabled.2 others) (noEvents_ends ?_)
      intro _ mem
      have isReport : state.report (.write taskId token write) = if state.ends taskId token write then [.finished taskId token] else [] := by
        cases write with
        | takeMessages limit now => exact absurd rfl (others limit now)
        | _ => rfl
      rw [isReport] at mem
      split_ifs at mem
      · rw [mem_singleton.mp mem]
        exact ⟨taskId, token, decide_eq_true ⟨rfl, rfl⟩⟩
      · cases mem

variable {status : TaskStatus}

theorem owns_recoverStale {listed : List ℕ} {error : Text} {keepUntil : ℤ} (isListed : taskId ∈ listed) (token : ℕ) :
  (store.recoverStale listed error status keepUntil now).owns taskId token = false := by
  unfold recoverStale
  induction listed generalizing store with
  | nil => cases isListed
  | cons first rest ih =>
    by_cases later : taskId ∈ rest
    · exact ih later
    · have isFirst : taskId = first := (mem_cons.mp isListed).resolve_right later
      subst isFirst
      rw [Bool.eq_false_iff]
      intro owns
      rcases owns_eq_true_iff.mp owns with ⟨row, mem, isTask, isToken⟩
      -- The later recoveries give no lease.
      have ends : Ends (store.recoverTask error status keepUntil now taskId)
          ((store.recoverTask error status keepUntil now taskId).recoverStale rest error status keepUntil now) :=
        ends_recoverStale rest error status keepUntil now
      rcases ends.followed row mem with ⟨before, isBefore, continues⟩
      have cleared : before.ownerToken = none := by
        rcases mem_updateWhere.mp isBefore with ⟨_, unselected⟩ | ⟨_, _, _, same⟩
        · exact absurd (decide_eq_true (continues.id.symm.trans isTask)) unselected
        · rw [<- same]
          rfl
      rcases continues.owner with same | none_ | ⟨clash, _⟩
      · rw [cleared, isToken] at same
        cases same
      · rw [none_] at isToken
        cases isToken
      · cases clash

theorem owns_finish {summary error : Text} {expiresAt : Option ℤ} (terminal : status.isTerminal) :
  (RunWrite.apply store taskId token (.finish status summary error expiresAt now)).owns taskId token = false := by
  rw [Bool.eq_false_iff]
  intro owns
  rcases owns_eq_true_iff.mp owns with ⟨_, mem, isTask, isToken⟩
  simp only [RunWrite.apply, finish] at mem
  rw [if_pos terminal] at mem
  rcases mem_updateWhere.mp mem with ⟨_, unselected⟩ | ⟨_, _, _, same⟩
  · exact unselected (decide_eq_true ⟨isTask, isToken⟩)
  · rw [<- same] at isToken
    cases isToken

theorem end_reported {event : FollowUpEvent} (reported : event ∈ state.report action)
  (isEnd : event.isEnd taskId token) :
  state.store.owns taskId token /\ (state.next action).store.owns taskId token = false := by
  cases action with
  | create task other maxUser maxSite now =>
    simp only [report] at reported
    cases created : state.store.create task other maxUser maxSite now with
    | error error =>
      rw [created] at reported
      cases reported
    | ok result =>
      rw [created] at reported
      rw [mem_singleton.mp reported] at isEnd
      cases isEnd
  | followUp userId task content access now =>
    simp only [report] at reported
    split at reported
    · cases reported
    · split at reported
      · rw [mem_singleton.mp reported] at isEnd
        cases isEnd
      · cases reported
  | takeOver call other checks checked now =>
    simp only [report] at reported
    split at reported
    · rw [mem_singleton.mp reported] at isEnd
      cases isEnd
    · cases reported
  | afterRun task ended other userId checks checked now => cases reported
  | recover listed error status keepUntil now =>
    rcases mem_flatMap.mp reported with ⟨task, isListed, isEvent⟩
    rcases mem_map.mp isEvent with ⟨owner, isOwner, same⟩
    rw [<- same] at isEnd
    rcases of_decide_eq_true isEnd with ⟨sameTask, sameToken⟩
    subst sameTask
    subst sameToken
    refine ⟨?_, owns_recoverStale isListed owner⟩
    rcases Option.bind_eq_some_iff.mp (Option.mem_toList.mp isOwner) with ⟨row, found, isToken⟩
    have isTask := find?_some found
    exact owns_eq_true_iff.mpr ⟨row, mem_of_find?_eq_some found, of_decide_eq_true isTask, isToken⟩
  | write task own write =>
    cases write with
    | takeMessages limit now =>
      rcases mem_map.mp reported with ⟨_, _, same⟩
      rw [<- same] at isEnd
      cases isEnd
    | finish status summary error expiresAt now =>
      change event ∈ if state.ends task own (.finish status summary error expiresAt now) then _ else _ at reported
      by_cases ends : state.ends task own (.finish status summary error expiresAt now)
      · rw [if_pos ends] at reported
        rw [mem_singleton.mp reported] at isEnd
        rcases of_decide_eq_true isEnd with ⟨sameTask, sameToken⟩
        subst sameTask
        subst sameToken
        have parts := Bool.and_eq_true_iff.mp ends
        exact ⟨parts.2, owns_finish parts.1⟩
      · rw [if_neg ends] at reported
        cases reported
    | _ => cases reported

theorem end_once (enabled : state.Enabled action) (taskId token : ℕ) :
  ((state.report action).filter (isEnd taskId token)).length <= 1 := by
  have short {events : List FollowUpEvent} (single : events.length <= 1) :
      (events.filter (isEnd taskId token)).length <= 1 := (length_filter_le _ _).trans single
  cases action with
  | create task other maxUser maxSite now =>
    apply short
    simp only [report]
    split
    · exact Nat.zero_le 1
    · exact Nat.le_refl 1
  | followUp userId task content access now =>
    apply short
    simp only [report]
    split
    · exact Nat.zero_le 1
    · split
      · exact Nat.le_refl 1
      · exact Nat.zero_le 1
  | takeOver call other checks checked now =>
    apply short
    simp only [report]
    split
    · exact Nat.le_refl 1
    · exact Nat.zero_le 1
  | afterRun task ended other userId checks checked now => exact Nat.zero_le 1
  | recover listed error status keepUntil now =>
    have distinct : listed.Nodup := enabled.1.1
    simp only [report]
    clear enabled
    induction listed with
    | nil => exact Nat.zero_le 1
    | cons first rest ih =>
      rcases nodup_cons.mp distinct with ⟨notLater, restDistinct⟩
      rw [flatMap_cons, filter_append, length_append]
      by_cases same : first = taskId
      · have noLater : (rest.flatMap fun task => ((state.store.get task).bind TaskRow.ownerToken).toList.map
            (recovered task)).filter (isEnd taskId token) = [] := by
          rw [filter_eq_nil_iff]
          intro event mem isEnd
          rcases mem_flatMap.mp mem with ⟨task, isLater, isEvent⟩
          rcases mem_map.mp isEvent with ⟨owner, _, isRecovered⟩
          rw [<- isRecovered] at isEnd
          rw [same, <- (of_decide_eq_true isEnd).1] at notLater
          exact notLater isLater
        rw [noLater, length_nil, Nat.add_zero]
        apply short
        rw [length_map]
        exact Option.length_toList_le
      · have noFirst : (((state.store.get first).bind TaskRow.ownerToken).toList.map (recovered first)).filter
            (isEnd taskId token) = [] := by
          rw [filter_eq_nil_iff]
          intro event mem isEnd
          rcases mem_map.mp mem with ⟨_, _, isRecovered⟩
          rw [<- isRecovered] at isEnd
          exact same (of_decide_eq_true isEnd).1
        rw [noFirst, length_nil, Nat.zero_add]
        exact ih restDistinct
  | write task own write =>
    cases write with
    | takeMessages limit now =>
      rw [filter_eq_nil_iff.mpr]
      · exact Nat.zero_le 1
      · intro _ mem isEnd
        rcases mem_map.mp mem with ⟨_, _, same⟩
        rw [<- same] at isEnd
        cases isEnd
    | finish status summary error expiresAt now =>
      apply short
      change (if state.ends task own (.finish status summary error expiresAt now) then _ else _ : List FollowUpEvent).length <= 1
      split_ifs
      · exact Nat.le_refl 1
      · exact Nat.zero_le 1
    | _ => exact Nat.zero_le 1

structure FollowUpsKept (past : List FollowUpEvent) (state : FollowUpState) : Prop where
  given : LeasesGiven state.lease
  talked : Talked past state.store
  known : ∀ row ∈ state.store.messages, row.taskId ∈ state.store.tasks.map TaskRow.id
  short : ∀ call ∈ state.waiting, call.content.length <= maxFollowUpChars
  /-- A run that ended has lost its lease. -/
  ended : ∀ taskId token, ∀ event ∈ past, event.isEnd taskId token -> state.lease.Lost taskId token
  once : ∀ taskId token, (past.filter (FollowUpEvent.isEnd taskId token)).length <= 1

theorem ids_lease_next (state : LeaseState) (action : LeaseAction) :
  state.store.tasks.map TaskRow.id ⊆ (state.next action).store.tasks.map TaskRow.id := by
  have same {next : TaskStore} (ends : Ends state.store next) :
      state.store.tasks.map TaskRow.id ⊆ next.tasks.map TaskRow.id := by
    rw [ends.ids]
    exact List.Subset.refl _
  cases action with
  | create task token maxUser maxSite now =>
    simp only [LeaseState.next]
    cases created : state.store.create task token maxUser maxSite now with
    | error error => exact List.Subset.refl _
    | ok next =>
      rw [(create_ok created).2.1, map_append]
      exact subset_append_left _ _
  | resume taskId token maxUser maxSite modelId modelName now =>
    simp only [LeaseState.next]
    cases resumed : state.store.resume taskId token maxUser maxSite modelId modelName now with
    | error error => exact List.Subset.refl _
    | ok result =>
      cases result with
      | none => exact List.Subset.refl _
      | some next =>
        have ids : next.tasks.map TaskRow.id = state.store.tasks.map TaskRow.id := by
          rw [resume_ok resumed]
          apply ids_update
          intro _
          rfl
        rw [ids]
        exact List.Subset.refl _
  | recover listed error status keepUntil now => exact same (ends_recoverStale listed error status keepUntil now)
  | addMessage taskId userId content maxPending now =>
    exact same (ends_self (afterCall_addMessage state.store taskId userId content maxPending now).1)
  | write taskId token write => exact same (ends_apply write taskId token)

theorem ids_lease_run (state : LeaseState) (actions : List LeaseAction) :
  state.store.tasks.map TaskRow.id ⊆ (leaseMachine.run state actions).store.tasks.map TaskRow.id := by
  induction actions generalizing state with
  | nil => exact List.Subset.refl _
  | cons action rest ih => exact List.Subset.trans (ids_lease_next state action) (ih _)

theorem known_said (said : Said store next events)
  (known : ∀ row ∈ store.messages, row.taskId ∈ store.tasks.map TaskRow.id)
  (ids : store.tasks.map TaskRow.id ⊆ next.tasks.map TaskRow.id) :
  ∀ row ∈ next.messages, row.taskId ∈ next.tasks.map TaskRow.id := by
  intro row mem
  apply ids
  cases said with
  | nothing silent noEvents =>
    rw [silent.messages] at mem
    exact known row mem
  | created taskId prompt unknown messages last texts =>
    rw [messages] at mem
    exact known row mem
  | queued taskId userId content createdAt isKnown messages last texts =>
    rw [messages] at mem
    rcases mem_snoc.mp mem with old | new
    · exact known row old
    · rw [new]
      exact isKnown
  | taken taskId token limit now isNext =>
    rw [isNext] at mem
    unfold takeMessages at mem
    rw [messages_consume] at mem
    rcases mem_map.mp mem with ⟨old, isOld, same⟩
    have sameTask : row.taskId = old.taskId := by
      rw [<- same]
      split_ifs
      · rfl
      · rfl
    rw [sameTask]
    exact known old isOld

theorem short_next (action : FollowUpAction) (short : ∀ call ∈ state.waiting, call.content.length <= maxFollowUpChars) :
  ∀ call ∈ (state.next action).waiting, call.content.length <= maxFollowUpChars := by
  have erased (gone : FollowUpCall) : ∀ call ∈ state.waiting.erase gone, call.content.length <= maxFollowUpChars :=
    fun call mem => short call (mem_of_mem_erase mem)
  cases action with
  | create task token maxUser maxSite now | afterRun taskId ended token userId checks checked now =>
    simp only [FollowUpState.next]
    split
    · exact short
    · exact short
  | followUp userId taskId content access now =>
    simp only [FollowUpState.next]
    cases accepted : followUpContent content with
    | error error => exact short
    | ok text =>
      dsimp only
      split
      · exact short
      · exact short
      · exact forall_mem_snoc short (followUpContent_short accepted)
  | takeOver call token checks checked now =>
    simp only [FollowUpState.next]
    split
    · exact erased call
    · exact erased call
  | recover listed error status keepUntil now | write taskId token write => exact short

theorem followUpsKept_next (kept : FollowUpsKept past state)
  (enabled : state.Enabled action) : FollowUpsKept (past ++ state.report action) (state.next action) := by
  rcases lease_next enabled with ⟨admitted, isLease⟩
  have said := said_next enabled kept.known kept.short
  have given : LeasesGiven (state.next action).lease := by
    rw [<- isLease]
    exact leasesGiven_run kept.given _
  have lost {taskId token : ℕ} (was : state.lease.Lost taskId token) : (state.next action).lease.Lost taskId token := by
    rw [<- isLease]
    exact lost_run was admitted
  have issued {lease : ℕ × ℕ} (mem : lease ∈ state.issued) : lease ∈ (state.next action).issued := by
    cases action with
    | create task token maxUser maxSite now | afterRun taskId ended token userId checks checked now =>
      simp only [FollowUpState.next]
      split
      · exact mem
      · exact mem_append_left _ mem
    | followUp userId taskId content access now =>
      simp only [FollowUpState.next]
      split
      · exact mem
      · split
        · exact mem
        · exact mem
        · exact mem
    | takeOver call token checks checked now =>
      simp only [FollowUpState.next]
      split
      · exact mem
      · split_ifs
        · exact mem_append_left _ mem
        · exact mem
    | recover listed error status keepUntil now | write taskId token write => exact mem
  have ids : state.store.tasks.map TaskRow.id ⊆ (state.next action).store.tasks.map TaskRow.id := by
    have grown := ids_lease_run state.lease (state.leaseActions action)
    rw [isLease] at grown
    exact grown
  refine ⟨given, talked_said kept.talked said, known_said said kept.known ids, short_next action kept.short, ?_, ?_⟩
  · intro taskId token event mem isEnd
    rcases mem_append.mp mem with old | new
    · exact lost (kept.ended taskId token event old isEnd)
    · rcases end_reported new isEnd with ⟨owned, cleared⟩
      refine ⟨issued ?_, cleared⟩
      rcases owns_eq_true_iff.mp owned with ⟨row, isRow, isTask, isToken⟩
      rw [<- isTask]
      exact kept.given.issued row isRow token isToken
  · intro taskId token
    rw [filter_append, length_append]
    by_cases before : past.filter (isEnd taskId token) = []
    · rw [before, length_nil, Nat.zero_add]
      exact end_once enabled taskId token
    · -- A run that ended before has no lease that it could end.
      rcases exists_mem_of_ne_nil _ before with ⟨event, mem⟩
      have parts := mem_filter.mp mem
      have isLost := kept.ended taskId token event parts.1 parts.2
      have noMore : (state.report action).filter (isEnd taskId token) = [] := by
        rw [filter_eq_nil_iff]
        intro _ isNew isEnd
        have owned := (end_reported isNew isEnd).1
        have unowned : state.store.owns taskId token = false := isLost.2
        rw [unowned] at owned
        cases owned
      rw [noMore, length_nil, Nat.add_zero]
      exact kept.once taskId token

theorem followUpsKept_start : FollowUpsKept [] .start := by
  refine ⟨leasesGiven_start, ⟨List.Pairwise.nil, ?_, fun _ => rfl, ?_⟩, ?_, ?_, ?_, fun _ _ => Nat.zero_le 1⟩
  · intro row mem
    cases mem
  · intro taskId
    refine ⟨[], [], rfl, ?_, ?_, rfl, rfl⟩
    · intro row mem
      cases mem
    · intro row mem
      cases mem
  · intro _ mem
    cases mem
  · intro _ mem
    cases mem
  · intro _ _ _ mem
    cases mem

/-- In every run, with any number of processes that may stop anywhere: a task has one lease at most. -/
theorem follow_ups_answered_once {past : List FollowUpEvent} {state : FollowUpState}
  (trace : followUpMachine.Trace FollowUpState.report past state) :
  (∀ taskId first second, state.store.owns taskId first -> state.store.owns taskId second -> first = second) /\
  (∀ taskId token, (past.filter (FollowUpEvent.isEnd taskId token)).length <= 1) /\ (∀ taskId, acceptedOf taskId past =
      consumedOf taskId past ++ (state.store.pending taskId).map MessageRow.said /\
    ((acceptedOf taskId past).map Prod.fst).Pairwise fun first second => first < second) /\
  (∀ taskId, state.store.userTexts taskId = promptOf taskId past ++ (consumedOf taskId past).map Prod.snd) := by
  have kept : FollowUpsKept past state := by
    induction trace with
    | start isStart =>
      rw [show _ = FollowUpState.start from isStart]
      exact followUpsKept_start
    | next _ enabled ih => exact followUpsKept_next ih enabled
  refine ⟨?_, kept.once, ?_, ?_⟩
  · intro taskId first second isFirst isSecond
    rcases owns_eq_true_iff.mp isSecond with ⟨row, mem, isTask, isToken⟩
    have owner := owner_of_owns kept.given.ids isFirst mem isTask
    exact Option.some.inj (owner.symm.trans isToken)
  · intro taskId
    rcases kept.talked.answered taskId with ⟨before, waiting, answered⟩
    constructor
    · rw [kept.talked.accepted taskId, answered.split, answered.consumed, map_append,
        pending_eq answered.split answered.answered answered.waits]
    · rw [kept.talked.accepted taskId, map_map]
      exact kept.talked.ordered.sublist (filter_sublist.map _)
  · intro taskId
    rcases kept.talked.answered taskId with ⟨before, waiting, answered⟩
    rw [answered.texts, answered.consumed, map_map]
    rfl

instance (write : RunWrite) : Decidable (FollowUpState.Written write) :=
  match write with
  | .addStep kind _ detail _ => inferInstanceAs (Decidable (kind = .user -> detail.agent ≠ 0))
  | .setStatus _ _ _ _ | .setSandbox _ _ | .addUsage _ _ _ _ _ | .renew _ | .takeMessages _ _ | .finish _ _ _ _ _ |
      .addLane _ _ _ _ | .updateLane _ _ _ _ _ => inferInstanceAs (Decidable True)

instance (state : FollowUpState) (token : ℕ) : Decidable (state.Unused token) :=
  inferInstanceAs (Decidable (∀ lease ∈ state.issued, lease.2 ≠ token))

instance (state : FollowUpState) (action : FollowUpAction) : Decidable (followUpMachine.enabled state action) :=
  match action with
  | .create _ token _ _ _ => inferInstanceAs (Decidable (state.Unused token))
  | .followUp _ _ _ _ _ => inferInstanceAs (Decidable True)
  | .takeOver call token _ _ _ => inferInstanceAs (Decidable (call ∈ state.waiting /\ state.Unused token))
  | .afterRun taskId ended token _ _ _ _ => inferInstanceAs (Decidable ((taskId, ended) ∈ state.outcomes /\ state.Unused token))
  | .recover listed _ status _ now => inferInstanceAs (Decidable (state.store.Listed listed now /\ status.isTerminal))
  | .write taskId token write => inferInstanceAs (Decidable ((taskId, token) ∈ state.issued /\ FollowUpState.Written write))

def followedRun : List FollowUpAction :=
  let text := fun char => some [SignIn.symbol char]
  let checks : StartChecks := ⟨true, true, true, true, none, 10, none, none⟩
  [.create ⟨1, 5, [], [SignIn.symbol 'p'], none, [], false⟩ 7 none 10 0, .followUp 5 1 (text 'a') true 1,
    .write 1 7 (.takeMessages 10 2),
    .followUp 5 1 (text 'b') true 3,
    .write 1 7 (.finish .finished [] [] none 4),
    .followUp 5 1 (text 'c') true 5,
    .afterRun 1 7 8 5 checks 6 6,
    .takeOver ⟨5, 1, [SignIn.symbol 'c']⟩ 9 checks 7 7,
    .write 1 8 (.takeMessages 10 8),
    .recover [1] [] .interrupted 100 90,
    .write 1 8 (.finish .finished [] [] none 91)]

def followed : FollowUpState := followUpMachine.run .start followedRun

theorem follow_ups_answered_once_followed : followed.store.userTexts 1 =
    [[SignIn.symbol 'p'], [SignIn.symbol 'a'], [SignIn.symbol 'b'], [SignIn.symbol 'c']] /\
  ((followUpMachine.reports FollowUpState.report .start followedRun).filter (FollowUpEvent.isEnd 1 8)).length <= 1 := by
  have admitted : followUpMachine.Admits .start followedRun := by decide +kernel
  have trace : followUpMachine.Trace FollowUpState.report (followUpMachine.reports FollowUpState.report .start followedRun) followed :=
    Machine.Trace.run (.start rfl) followedRun admitted
  rcases follow_ups_answered_once trace with ⟨_, once, _, texts⟩
  refine ⟨?_, once 1 8⟩
  decide +kernel

end BananaChat.Agents

import BananaChat.Subscriptions.Logins

namespace BananaChat.Subscriptions.Logins

open Foundation List Option Prod Rows ThreadStep Session

/-!
# One login thread, one end

A code is typed once at most, into the CLI of its own session, in every run.
-/

def Session.identity (session : Session) : ℕ × Process × ℚ := (session.id, session.process, session.expiresAt)

def rewritten (writes : Option (ℕ × LoginState)) (session : Session) : ℕ × LoginState :=
  match writes with
  | none => (session.id, session.state)
  | some (sessionId, state) => (session.id, if session.id = sessionId then state else session.state)

def Stage.writes : Stage -> Option (ℕ × LoginState)
  | .ending session _ _ => some (session.id, .failed)
  | .confirming session => some (session, .cancelled)
  | _ => none

def ThreadStep.writes : ThreadStep -> Phase -> Option LoginState
  | .tellWaiting, .linked _ _ => some .waiting
  | .tellTyped, .typed => some .verifying
  | .tellChecking, .stopped => some .verifying
  | .tellDone, .signedIn _ => some .done
  | .tellEnd true, .ended ending => some ending.changes.state
  | _, _ => none

variable (sessionId : ℕ) (provider : Provider) {state : State} {action : Action} {history : List Event}

section

variable (changes : Changes) (now : ℚ) (stored : Stored)
include changes now stored

theorem update_identity :
  (update sessionId changes now stored).1.session.map identity = stored.session.map identity := by
  unfold update
  split
  · rfl
  · rename_i session found
    split
    · rw [found]
      rfl
    · rfl

theorem update_told :
  (update sessionId changes now stored).1.session.map (fun session => (session.id, session.state)) =
    stored.session.map (rewritten (some (sessionId, changes.state))) := by
  unfold update
  cases found : stored.session with
  | none =>
    simp only [found]
    rfl
  | some session =>
    by_cases named : session.id = sessionId
    · simp only [if_pos named, map_some, rewritten, change]
    · simp only [if_neg named, found, map_some, rewritten]

theorem update_messages :
  (update sessionId changes now stored).1.code = stored.code /\
    (update sessionId changes now stored).1.cancel = stored.cancel := by
  unfold update
  split
  · exact ⟨rfl, rfl⟩
  · split
    · exact ⟨rfl, rfl⟩
    · exact ⟨rfl, rfl⟩

end

theorem rewritten_none (stored : Stored) :
    stored.session.map (fun session => (session.id, session.state)) = stored.session.map (rewritten none) := rfl

theorem stage_session (processes : List Process) (host : ℕ) (taken : Bool) (now : ℚ) (stored : Stored) (stage : Stage) :
  let result := (stage.step processes host taken now stored).2
  result.session.map identity = stored.session.map identity /\
    result.session.map (fun session => (session.id, session.state)) = stored.session.map (rewritten stage.writes) := by
  cases stage with
  | reading purpose | submitting session code | cancelling session => exact ⟨rfl, rewritten_none stored⟩
  | ending session message purpose | confirming session => exact ⟨update_identity _ _ _ _, update_told _ _ _ _⟩
  | looking session =>
    simp only [Stage.step]
    split
    · exact ⟨rfl, rewritten_none stored⟩
    · split
      · exact ⟨rfl, rewritten_none stored⟩
      · exact ⟨rfl, rewritten_none stored⟩

structure ThreadMoves (session : ℕ) (step : ThreadStep) (phase : Phase) (stored : Stored) (result : Option Phase × Stored) :
  Prop where
  identity : result.2.session.map Session.identity = stored.session.map Session.identity
  told : result.2.session.map (fun session => (session.id, session.state)) =
    stored.session.map (rewritten ((step.writes phase).map fun state => (session, state)))
  working : ∀ after, result.1 = some after -> after.working -> phase.working

theorem ThreadMoves.quiet {session : ℕ} {step : ThreadStep} {phase : Phase} {stored after : Stored} {result : Option Phase}
  (same : after.session = stored.session) (writes : step.writes phase = none)
  (working : ∀ later, result = some later -> later.working -> phase.working) :
  ThreadMoves session step phase stored (result, after) where
  identity := by rw [same]
  told := by
    rw [writes, same]
    rfl
  working := working

theorem threadStep_moves (session : ℕ) (now : ℚ) (stored : Stored) (step : ThreadStep) (phase : Phase) :
  ThreadMoves session step phase stored (step.step provider session now stored phase) := by
  -- a step out of a working phase
  have works : ∀ {result : Option Phase}, phase.working ->
      ∀ later, result = some later -> later.working -> phase.working := fun working _ _ _ => working
  have stays : ∀ later, some phase = some later -> later.working -> phase.working := by
    intro later same working
    rw [some_inj.mp same]
    exact working
  cases step with
  | checkCancel | findLink url userCode | typeCode | finish | verified plan | failure message =>
    cases phase <;> first | exact .quiet rfl rfl (works rfl) | exact .quiet rfl rfl stays
  | tellWaiting =>
    cases phase with
    | linked url userCode =>
      refine ⟨update_identity _ _ _ _, ?_, works rfl⟩
      simp only [step, update_told, writes, map_some]
      cases provider <;> rfl
    | _ => exact .quiet rfl rfl stays
  | takeCode =>
    cases phase with
    | waiting =>
      simp only [step]
      split
      · exact .quiet rfl rfl stays
      · split
        · exact .quiet rfl rfl stays
        · exact .quiet rfl rfl (works rfl)
    | _ => exact .quiet rfl rfl stays
  | tellTyped =>
    cases phase with
    | typed => exact ⟨update_identity _ _ _ _, update_told _ _ _ _, works rfl⟩
    | _ => exact .quiet rfl rfl stays
  | tellChecking =>
    cases phase with
    | stopped => exact ⟨update_identity _ _ _ _, update_told _ _ _ _, works rfl⟩
    | _ => exact .quiet rfl rfl stays
  | tellDone =>
    cases phase with
    | signedIn plan => exact ⟨update_identity _ _ _ _, update_told _ _ _ _, works rfl⟩
    | _ => exact .quiet rfl rfl stays
  | tellEnd committed =>
    cases phase with
    | ended ending =>
      cases committed with
      | true => exact ⟨update_identity _ _ _ _, update_told _ _ _ _, works rfl⟩
      | false => exact .quiet rfl rfl (works rfl)
    | _ => cases committed <;> exact .quiet rfl rfl stays
  | clearCode committed =>
    cases phase with
    | clearingCode =>
      cases committed <;> exact .quiet rfl rfl (fun later same working => by cases same; exact working)
    | _ => exact .quiet rfl rfl stays
  | clearCancel committed =>
    cases phase with
    | clearingCancel => cases committed <;> exact .quiet rfl rfl (fun _ clash => nomatch clash)
    | _ => exact .quiet rfl rfl stays

/-- Sessions are numbered, a session has one thread at most, in the process that
the session names, and that process lives. -/
structure Known (state : State) : Prop where
  distinct : (state.threads.map LoginThread.session).Nodup
  below : ∀ thread ∈ state.threads, thread.session < state.nextSession
  lives : ∀ thread ∈ state.threads, thread.process ∈ state.processes
  stored : ∀ session, state.stored.session = some session -> session.id < state.nextSession
  owner : ∀ session thread, state.stored.session = some session -> thread ∈ state.threads ->
    thread.session = session.id -> thread.process = session.process

/-- What steps other than a new login do: the stored session and the threads stay
what they are, and a thread that has told its end does not work again. -/
structure Onward (state after : State) : Prop where
  identity : after.stored.session.map Session.identity = state.stored.session.map Session.identity
  keys : (after.threads.map LoginThread.session).Sublist (state.threads.map LoginThread.session)
  threads : ∀ thread ∈ after.threads, ∃ before ∈ state.threads,
    before.session = thread.session /\ before.process = thread.process /\ (thread.phase.working -> before.phase.working)
  lives : ∀ thread ∈ after.threads, thread.process ∈ state.processes -> thread.process ∈ after.processes
  nextSession : after.nextSession = state.nextSession

variable {after : State}

theorem Onward.same (identity : after.stored.session.map Session.identity = state.stored.session.map Session.identity)
  (threads : after.threads = state.threads)
  (processes : ∀ process ∈ state.processes, process ∈ after.processes)
  (nextSession : after.nextSession = state.nextSession) : Onward state after where
  identity := identity
  keys := by rw [threads]
  threads := by
    rw [threads]
    exact fun thread mem => ⟨thread, mem, rfl, rfl, fun working => working⟩
  lives := fun thread _ live => processes thread.process live
  nextSession := nextSession

variable {thread : LoginThread}

theorem State.thread_mem {session : ℕ} (found : state.thread session = some thread) :
    thread ∈ state.threads /\ thread.session = session := of_find_key found

theorem next_cases (known : Known state) (action : Action) :
  Onward state (next provider state action) \/ ∃ process now taken startedBy,
      action = .start process now taken startedBy /\
        running state.processes process.host taken now state.stored = false /\
        next provider state action = { state with
            stored := ⟨some (newSession state.nextSession process now startedBy), none, none⟩
            threads := state.threads ++ [⟨state.nextSession, process, .launching⟩]
            nextSession := state.nextSession + 1
            clock := now } := by
  cases action with
  | spawn process => exact .inl (.same rfl rfl (fun _ live => mem_append_left _ live) rfl)
  | die process =>
    refine .inl ⟨rfl, deleteWhere_sublist.map _, ?_, ?_, rfl⟩
    · intro thread mem
      exact ⟨thread, (mem_deleteWhere.mp mem).1, rfl, rfl, fun working => working⟩
    · intro thread mem live
      refine mem_deleteWhere.mpr ⟨live, ?_⟩
      intro same
      exact (mem_deleteWhere.mp mem).2 same
  | start process now taken startedBy =>
    by_cases refused : running state.processes process.host taken now state.stored
    · left
      simp only [next, if_pos refused]
      exact .same rfl rfl (fun _ live => live) rfl
    · exact .inr ⟨process, now, taken, startedBy, rfl, Bool.eq_false_of_not_eq_true refused, if_neg refused⟩
  | ask process purpose =>
    left
    simp only [next]
    split
    · exact .same rfl rfl (fun _ live => live) rfl
    · exact .same rfl rfl (fun _ live => live) rfl
  | call callId now taken =>
    left
    cases found : state.call callId with
    | none =>
      simp only [next, found]
      exact .same rfl rfl (fun _ live => live) rfl
    | some call =>
      simp only [next, found]
      exact .same (stage_session _ _ _ _ _ _).1 rfl (fun _ live => live) rfl
  | thread session now step =>
    left
    cases found : state.thread session with
    | none =>
      simp only [next, found]
      exact .same rfl rfl (fun _ live => live) rfl
    | some thread =>
      have moves := threadStep_moves provider session now state.stored step thread.phase
      rcases State.thread_mem found with ⟨mem, named⟩
      simp only [next, found]
      constructor
      · exact moves.identity
      · cases (step.step provider session now state.stored thread.phase).1 with
        | none => exact deleteWhere_sublist.map _
        | some phase => exact map_updateWhere_sublist LoginThread.session (fun _ => rfl)
      · intro other otherIn
        cases result : (step.step provider session now state.stored thread.phase).1 with
        | none =>
          rw [result] at otherIn
          exact ⟨other, (mem_deleteWhere.mp otherIn).1, rfl, rfl, fun working => working⟩
        | some phase =>
          rw [result] at otherIn
          rcases mem_updateWhere.mp otherIn with ⟨old, _⟩ | ⟨old, oldIn, chosen, rfl⟩
          · exact ⟨other, old, rfl, rfl, fun working => working⟩
          · refine ⟨old, oldIn, rfl, rfl, ?_⟩
            intro working
            have isFound : old = thread :=
              eq_of_key known.distinct oldIn mem ((of_decide_eq_true chosen).trans named.symm)
            rw [isFound]
            exact moves.working phase result working
      · intro _ _ live
        exact live
      · rfl

theorem Onward.session (onward : Onward state after) {session : Session}
  (stored : after.stored.session = some session) : ∃ before, state.stored.session = some before /\
    before.id = session.id /\ before.process = session.process := by
  have same := onward.identity
  rw [stored] at same
  cases found : state.stored.session with
  | none =>
    rw [found] at same
    cases same
  | some before =>
    rw [found, map_some, map_some, some_inj] at same
    exact ⟨before, rfl, (congrArg fst same).symm, (congrArg (·.2.1) same).symm⟩

theorem known_next (known : Known state) (allowed : enabled state action) : Known (next provider state action) := by
  rcases next_cases provider known action with onward | ⟨process, now, taken, startedBy, rfl, _, result⟩
  · constructor
    · exact known.distinct.sublist onward.keys
    · intro thread mem
      rcases onward.threads thread mem with ⟨before, beforeMember, sameSession, _⟩
      rw [onward.nextSession, <- sameSession]
      exact known.below before beforeMember
    · intro thread mem
      rcases onward.threads thread mem with ⟨before, beforeMember, _, sameProcess, _⟩
      apply onward.lives thread mem
      rw [<- sameProcess]
      exact known.lives before beforeMember
    · intro session stored
      rcases onward.session stored with ⟨before, beforeStored, sameId, _⟩
      rw [onward.nextSession, <- sameId]
      exact known.stored before beforeStored
    · intro session thread stored mem named
      rcases onward.session stored with ⟨before, beforeStored, sameId, sameProcess⟩
      rcases onward.threads thread mem with ⟨old, oldIn, sameSession, threadProcess, _⟩
      rw [<- sameProcess, <- threadProcess]
      exact known.owner before old beforeStored oldIn (sameSession.trans (named.trans sameId.symm))
  · have live : process ∈ state.processes := allowed.1
    -- the new thread is the only one of the new session
    have members : ∀ thread ∈ (next provider state (.start process now taken startedBy)).threads,
        thread ∈ state.threads \/ thread = ⟨state.nextSession, process, .launching⟩ := by
      intro thread mem
      rw [result] at mem
      exact (mem_append.mp mem).imp_right mem_singleton.mp
    have sameNext : (next provider state (.start process now taken startedBy)).nextSession = state.nextSession + 1 := by
      rw [result]
    have processes : (next provider state (.start process now taken startedBy)).processes = state.processes := by
      rw [result]
    have stored : (next provider state (.start process now taken startedBy)).stored.session =
        some (newSession state.nextSession process now startedBy) := by
      rw [result]
    constructor
    · rw [result, map_append]
      apply known.distinct.append (nodup_singleton _)
      intro session before last
      rcases mem_map.mp before with ⟨thread, mem, rfl⟩
      have older := known.below thread mem
      have isNew := mem_singleton.mp last
      simp only at isNew
      omega
    · intro thread mem
      rw [sameNext]
      rcases members thread mem with old | rfl
      · exact (known.below thread old).trans (Nat.lt_succ_self _)
      · exact Nat.lt_succ_self _
    · intro thread mem
      rw [processes]
      rcases members thread mem with old | rfl
      · exact known.lives thread old
      · exact live
    · intro session found
      rw [stored, some_inj] at found
      rw [sameNext, <- found]
      exact Nat.lt_succ_self _
    · intro _ thread found mem named
      rw [stored, some_inj] at found
      subst found
      rcases members thread mem with old | rfl
      · have older := known.below thread old
        simp only [newSession] at named
        omega
      · rfl

theorem known_start : Known emptyState where
  distinct := nodup_nil
  below := fun _ clash => nomatch clash
  lives := fun _ clash => nomatch clash
  stored := fun _ clash => nomatch clash
  owner := fun _ _ clash => nomatch clash

def Alone (state : State) : Prop :=
  ∀ first ∈ state.threads, ∀ second ∈ state.threads, first.phase.working ->
    second.phase.working -> first.session = second.session

instance (state : State) : Decidable (Alone state) :=
  inferInstanceAs (Decidable (∀ first ∈ state.threads, ∀ second ∈ state.threads,
    first.phase.working -> second.phase.working -> first.session = second.session))

def Own (state : State) : Prop :=
  ∀ thread ∈ state.threads, thread.phase.working ->
    ∃ session, state.stored.session = some session /\ session.id = thread.session

/-- A `start` finds the stored session active and its time not over as long as
its thread works. -/
def StartsWaiting (state : State) (action : Action) : Prop :=
  ∀ process now taken startedBy, action = .start process now taken startedBy ->
    ∀ thread ∈ state.threads, thread.phase.working ->
    ∀ session, state.stored.session = some session -> session.id = thread.session ->
    session.state.active /\ now < session.expiresAt

theorem alive_of_lives {processes : List Process} {session : Session} (lives : session.process ∈ processes) (host : ℕ)
  (taken : Bool) : alive processes host taken session := by
  unfold alive
  rw [decide_eq_true lives, Bool.or_true, Bool.true_or]

theorem own_of_onward (onward : Onward state after) (own : Own state) : Own after := by
  intro thread mem working
  rcases onward.threads thread mem with ⟨before, beforeMember, sameSession, _, worked⟩
  rcases own before beforeMember (worked working) with ⟨_, stored, named⟩
  have same := onward.identity
  rw [stored] at same
  cases found : after.stored.session with
  | none =>
    rw [found] at same
    cases same
  | some later =>
    rw [found, map_some, map_some, some_inj] at same
    exact ⟨later, rfl, (congrArg fst same).trans (named.trans sameSession)⟩

theorem own_next_iff (known : Known state) (own : Own state) (action : Action) :
  Own (next provider state action) ↔ StartsWaiting state action := by
  rcases next_cases provider known action with onward | ⟨process, now, taken, startedBy, isStart, free, result⟩
  · refine iff_of_true (own_of_onward onward own) ?_
    -- a start that was refused found the session running
    intro process now taken startedBy isStart thread mem working session stored named
    subst isStart
    by_cases refused : running state.processes process.host taken now state.stored
    · rw [running, stored, any_some, Bool.and_eq_true, Bool.and_eq_true, decide_eq_true_eq] at refused
      exact ⟨refused.1.1, refused.2⟩
    · have grown := onward.keys.length_le
      simp only [next, if_neg refused, length_map, length_append, length_singleton] at grown
      omega
  · subst isStart
    constructor
    · intro ownNext _ _ _ _ _ thread mem working session stored named
      rcases ownNext thread (by rw [result]; exact mem_append_left _ mem) working with ⟨_, storedAfter, sameId⟩
      rw [result, some_inj] at storedAfter
      have older := known.below thread mem
      rw [<- storedAfter] at sameId
      simp only [newSession] at sameId
      omega
    · intro waiting thread mem working
      rw [result] at mem ⊢
      rcases mem_snoc.mp mem with old | new
      · rcases own thread old working with ⟨session, stored, named⟩
        rcases waiting process now taken startedBy rfl thread old working session stored named with ⟨active, inTime⟩
        have lives : session.process ∈ state.processes :=
          known.owner session thread stored old named.symm ▸ known.lives thread old
        have refused : running state.processes process.host taken now state.stored := by
          rw [running, stored, any_some, active, alive_of_lives lives, decide_eq_true inTime]
          rfl
        rw [free] at refused
        cases refused
      · rw [new]
        exact ⟨_, rfl, rfl⟩

theorem alone_of_own (own : Own state) : Alone state := by
  intro first firstMember second secondMember firstWorks secondWorks
  rcases own first firstMember firstWorks with ⟨_, stored, firstNamed⟩
  rcases own second secondMember secondWorks with ⟨_, otherStored, secondNamed⟩
  rw [stored, some_inj] at otherStored
  rw [<- firstNamed, <- secondNamed, otherStored]

theorem own_of_alone (known : Known state) (own : Own state) (alone : Alone (next provider state action)) :
  Own (next provider state action) := by
  rw [own_next_iff provider known own action]
  intro process now taken startedBy isStart thread mem working session stored named
  rcases next_cases provider known action with onward | ⟨process', _, _, _, _, _, result⟩
  · exact (own_next_iff provider known own action).mp (own_of_onward onward own) process now taken startedBy isStart thread
      mem working session stored named
  · -- the new thread works beside the old one
    have newMember : (⟨state.nextSession, process', .launching⟩ : LoginThread) ∈ (next provider state action).threads := by
      rw [result]
      exact mem_append_right _ (mem_singleton.mpr rfl)
    have oldIn : thread ∈ (next provider state action).threads := by
      rw [result]
      exact mem_append_left _ mem
    have same := alone thread oldIn _ newMember working rfl
    have older := known.below thread mem
    simp only at same
    omega

theorem alone_iff (actions : List Action) (admitted : (loginMachine provider).Admits emptyState actions) :
  (loginMachine provider).Throughout Alone emptyState actions ↔
    ((loginMachine provider).guarded StartsWaiting).Admits emptyState actions := by
  have noThread : Own emptyState := fun _ clash => nomatch clash
  have kept : ∀ state action, Known state -> (loginMachine provider).enabled state action ->
      Known ((loginMachine provider).next state action) := fun state action known allowed => known_next provider known allowed
  have weaker : ∀ state, Known state -> Own state -> Alone state := fun state _ own => alone_of_own own
  have stronger : ∀ state action, Known state -> (loginMachine provider).enabled state action -> Own state ->
      Alone ((loginMachine provider).next state action) -> Own ((loginMachine provider).next state action) :=
    fun state action known _ own alone => own_of_alone provider known own alone
  have step : ∀ state action, Known state -> (loginMachine provider).enabled state action -> Own state ->
      (Own ((loginMachine provider).next state action) ↔ StartsWaiting state action) :=
    fun state action known _ own => own_next_iff provider known own action
  rw [Machine.throughout_congr kept weaker stronger actions admitted known_start noThread]
  exact Machine.throughout_iff kept step actions admitted known_start noThread

def toldOf (history : List Event) : List (ℕ × LoginState) :=
  history.filterMap fun event =>
    match event with
    | .told session state => some (session, state)
    | _ => none

def Absorbing (history : List Event) : Prop :=
  (toldOf history).Pairwise fun earlier later => earlier.1 = later.1 -> earlier.2.final -> later.2 = earlier.2

def Action.writes (state : State) : Action -> Option (ℕ × LoginState)
  | .call callId _ _ => (state.call callId).bind fun call => call.stage.writes
  | .thread session _ step =>
    (state.thread session).bind fun thread => (step.writes thread.phase).map (fun written => (session, written))
  | _ => none

def UpdatesLive (state : State) (action : Action) : Prop :=
  ∀ session written, state.stored.session = some session -> action.writes state = some (session.id, written) ->
    session.state.final -> written = session.state

def Session.told (session : Session) : ℕ × LoginState := (session.id, session.state)

theorem next_told (state : State) (action : Action) :
  ((next provider state action).stored.session.map told = some (state.nextSession, .starting) /\
      (next provider state action).nextSession = state.nextSession + 1 /\ action.writes state = none) \/
    ((next provider state action).stored.session.map told =
        state.stored.session.map (rewritten (action.writes state)) /\
      (next provider state action).nextSession = state.nextSession) := by
  cases action with
  | spawn process | die process => exact .inr ⟨rfl, rfl⟩
  | start process now taken startedBy =>
    simp only [next]
    split
    · exact .inr ⟨rfl, rfl⟩
    · exact .inl ⟨rfl, rfl, rfl⟩
  | ask process purpose =>
    simp only [next]
    split
    · exact .inr ⟨rfl, rfl⟩
    · exact .inr ⟨rfl, rfl⟩
  | call callId now taken =>
    right
    cases found : state.call callId with
    | none =>
      simp only [next, found, Action.writes, bind_none]
      exact ⟨rfl, trivial⟩
    | some call =>
      simp only [next, found, Action.writes, bind_some]
      exact ⟨(stage_session state.processes call.process.host taken now state.stored call.stage).2, trivial⟩
  | thread session now step =>
    right
    cases found : state.thread session with
    | none =>
      simp only [next, found, Action.writes, bind_none]
      exact ⟨rfl, trivial⟩
    | some thread =>
      simp only [next, found, Action.writes, bind_some]
      exact ⟨(threadStep_moves provider session now state.stored step thread.phase).told, trivial⟩

structure ToldKept (history : List Event) (state : State) : Prop where
  last : (toldOf history).getLast? = state.stored.session.map Session.told
  below : ∀ entry ∈ toldOf history, entry.1 < state.nextSession

theorem toldOf_events (history : List Event) (state : State) (action : Action) :
  toldOf (history ++ events provider state action) =
    toldOf history ++ toldOf (toldEvents state.stored (next provider state action).stored) := by
  have submitted : toldOf (submittedEvents state action) = [] := by
    unfold submittedEvents
    split
    · split
      · rfl
      · rfl
    · rfl
  have threads : toldOf (threadEvents state action) = [] := by
    unfold threadEvents
    split
    · split
      · rfl
      · cases state.stored.code <;> rfl
      · cases state.stored.cancel <;> rfl
      · rfl
    · rfl
  unfold events
  unfold toldOf at submitted threads ⊢
  rw [filterMap_append, filterMap_append, filterMap_append, submitted, threads, append_nil, nil_append]

theorem toldEvents_cases (before after : Stored) :
  (toldOf (toldEvents before after) = [] /\ (after.session.map told = before.session.map told \/
      after.session = none)) \/
    ∃ session, after.session = some session /\ toldOf (toldEvents before after) = [session.told] /\
      before.session.map told ≠ some session.told := by
  unfold toldEvents
  cases found : after.session with
  | none => exact .inl ⟨rfl, .inr rfl⟩
  | some session =>
    by_cases same : (before.session.map fun old => (old.id, old.state)) = some (session.id, session.state)
    · left
      simp only [if_pos same]
      exact ⟨rfl, .inl same.symm⟩
    · right
      simp only [if_neg same]
      exact ⟨session, rfl, rfl, same⟩

theorem toldKept_next (kept : ToldKept history state) (known : Known state) (action : Action) :
  ToldKept (history ++ events provider state action) (next provider state action) := by
  have grows : state.nextSession <= (next provider state action).nextSession := by
    rcases next_told provider state action with ⟨_, sameNext, _⟩ | ⟨_, sameNext⟩
    · omega
    · omega
  have stays : ∀ session, (next provider state action).stored.session = some session ->
      session.id < (next provider state action).nextSession := by
    intro session stored
    rcases next_told provider state action with ⟨told, _, _⟩ | ⟨told, _⟩
    · rw [stored, map_some, some_inj] at told
      have isNew : session.id = state.nextSession := congrArg fst told
      omega
    · rw [stored, map_some] at told
      cases found : state.stored.session with
      | none =>
        rw [found] at told
        cases told
      | some before =>
        rw [found, map_some, some_inj] at told
        have sameId : session.id = before.id := by
          have first := congrArg fst told
          unfold rewritten at first
          split at first <;> exact first
        have older := known.stored before found
        omega
  rcases toldEvents_cases state.stored (next provider state action).stored with ⟨nothing, same⟩ | ⟨session, stored, told, _⟩
  · constructor
    · rw [toldOf_events, nothing, append_nil, kept.last]
      rcases same with same | none
      · exact same.symm
      · -- a stored session does not vanish
        rcases next_told provider state action with ⟨told, _⟩ | ⟨told, _⟩
        · rw [none] at told
          cases told
        · rw [none, map_none] at told
          rw [none, map_none]
          cases found : state.stored.session with
          | none => rfl
          | some before =>
            rw [found] at told
            cases told
    · rw [toldOf_events, nothing, append_nil]
      exact fun entry mem => (kept.below entry mem).trans_le grows
  · constructor
    · rw [toldOf_events, told, getLast?_append, getLast?_singleton, stored]
      rfl
    · rw [toldOf_events, told]
      exact forall_mem_snoc (fun entry before => (kept.below entry before).trans_le grows) (stays session stored)

theorem absorbing_step (kept : ToldKept history state) (action : Action) (absorbing : Absorbing history) :
  Absorbing (history ++ events provider state action) ↔ UpdatesLive state action := by
  unfold Absorbing at absorbing ⊢
  rw [toldOf_events]
  rcases next_told provider state action with ⟨told, _, noUpdate⟩ | ⟨told, _⟩
  · -- a login that starts: nothing was told of its session
    refine iff_of_true ?_ ?_
    · rcases toldEvents_cases state.stored (next provider state action).stored with
        ⟨nothing, _⟩ | ⟨session, stored, isTold, _⟩
      · rw [nothing, append_nil]
        exact absorbing
      · rw [isTold, pairwise_append]
        refine ⟨absorbing, pairwise_singleton _ _, ?_⟩
        intro earlier mem later laterMember same
        rw [mem_singleton.mp laterMember] at same
        rw [stored, map_some, some_inj] at told
        have older := kept.below earlier mem
        rw [same, told] at older
        exact absurd older (lt_irrefl _)
    · intro session written _ updates
      rw [noUpdate] at updates
      cases updates
  · cases found : state.stored.session with
    | none =>
      rw [found, map_none, map_eq_none_iff] at told
      have nothing : toldOf (toldEvents state.stored (next provider state action).stored) = [] := by
        unfold toldEvents
        rw [told]
        rfl
      rw [nothing, append_nil]
      refine iff_of_true absorbing ?_
      intro session written stored
      rw [found] at stored
      cases stored
    | some before =>
      rw [found, map_some] at told
      have last := kept.last
      rw [found, map_some] at last
      -- the state the session had is the last thing told
      rcases getLast?_eq_some_iff.mp last with ⟨_, split⟩
      rcases toldEvents_cases state.stored (next provider state action).stored with
        ⟨nothing, same⟩ | ⟨session, stored, isTold, changed⟩
      · rw [nothing, append_nil]
        refine iff_of_true absorbing ?_
        intro session written isStored updates final
        rw [found, some_inj] at isStored
        subst isStored
        rcases same with same | none
        · rw [same, found, map_some, some_inj, updates, rewritten, if_pos rfl] at told
          exact (congrArg snd told).symm
        · rw [none] at told
          cases told
      · rw [stored, map_some, some_inj] at told
        rw [found, map_some, ne_eq, some_inj] at changed
        rw [isTold, told]
        have sameId : (rewritten (action.writes state) before).1 = before.id := by
          unfold rewritten
          split <;> rfl
        constructor
        · intro pairwise _ _ isStored updates final
          rw [found, some_inj] at isStored
          subst isStored
          have lastMember : before.told ∈ toldOf history := by
            rw [split]
            exact mem_append_right _ (mem_singleton.mpr rfl)
          have kept' := (pairwise_append.mp pairwise).2.2 before.told lastMember _ (mem_singleton.mpr rfl)
            sameId.symm final
          rw [updates, rewritten, if_pos rfl] at kept'
          exact kept'
        · intro updates
          rw [pairwise_append]
          refine ⟨absorbing, pairwise_singleton _ _, ?_⟩
          intro earlier mem _ laterMember same final
          rw [mem_singleton.mp laterMember] at same ⊢
          -- an end told earlier is the state the session still had
          have ended : before.state = earlier.2 := by
            rw [split] at mem absorbing
            rcases mem_snoc.mp mem with old | isLast
            · exact (pairwise_append.mp absorbing).2.2 earlier old before.told (mem_singleton.mpr rfl)
                (same.trans sameId) final
            · rw [isLast]
              rfl
          rw [<- ended]
          rw [<- ended] at final
          exfalso
          apply changed
          rw [told]
          unfold rewritten
          cases writes : action.writes state with
          | none => rfl
          | some update =>
            by_cases named : before.id = update.1
            · simp only [if_pos named]
              have isUpdate : action.writes state = some (before.id, update.2) := by rw [writes, named]
              rw [updates before update.2 found isUpdate final]
              rfl
            · simp only [if_neg named]
              rfl

def ClearsOwn (history : List Event) : Prop := ∀ ended owner, Event.cleared ended owner ∈ history -> owner = ended

/-- A thread that clears the code and the cancellation finds none or those of
its own session. -/
def ClearsNamed (state : State) (action : Action) : Prop :=
  ∀ session now step thread, action = .thread session now step -> state.thread session = some thread ->
    (step = .clearCode true -> thread.phase = .clearingCode ->
      ∀ found, state.stored.code = some found -> found.1 = session) /\
    (step = .clearCancel true -> thread.phase = .clearingCancel ->
      ∀ owner, state.stored.cancel = some owner -> owner = session)

theorem cleared_mem_events {provider : Provider} {ended owner : ℕ} :
  Event.cleared ended owner ∈ events provider state action ↔ Event.cleared ended owner ∈ threadEvents state action := by
  have submitted : Event.cleared ended owner ∉ submittedEvents state action := by
    unfold submittedEvents
    split
    · split
      · simp
      · exact not_mem_nil
    · exact not_mem_nil
  have told : Event.cleared ended owner ∉ toldEvents state.stored (next provider state action).stored := by
    unfold toldEvents
    split
    · exact not_mem_nil
    · split
      · exact not_mem_nil
      · simp
  unfold events
  rw [mem_append, mem_append]
  exact ⟨fun mem => (mem.resolve_right told).resolve_left submitted, fun mem => .inl (.inr mem)⟩

theorem clears_iff :
  (∀ ended owner, Event.cleared ended owner ∈ threadEvents state action -> owner = ended) ↔
    ClearsNamed state action := by
  cases action with
  | thread session now step =>
    cases found : state.thread session with
    | none =>
      refine iff_of_true ?_ ?_
      · intro ended owner mem
        simp [threadEvents, found] at mem
      · intro session' now' step' thread same found'
        cases same
        rw [found] at found'
        cases found'
    | some thread =>
      constructor
      · intro clears _ _ _ _ same found'
        cases same
        rw [found, some_inj] at found'
        subst found'
        constructor
        · rintro rfl phase code stored
          apply clears session code.1
          simp [threadEvents, found, phase, stored]
        · rintro rfl phase owner stored
          apply clears session owner
          simp [threadEvents, found, phase, stored]
      · intro named ended owner mem
        rcases named session now step thread rfl found with ⟨code, cancel⟩
        simp only [threadEvents, found, map_some] at mem
        split at mem
        · simp at mem
        · rename_i phase
          cases stored : state.stored.code with
          | none =>
            rw [stored] at mem
            cases mem
          | some found =>
            rw [stored] at mem
            have isEvent := mem_singleton.mp mem
            cases isEvent
            exact code rfl (some_inj.mp phase) found stored
        · rename_i phase
          cases stored : state.stored.cancel with
          | none =>
            rw [stored] at mem
            cases mem
          | some other =>
            rw [stored] at mem
            have isEvent := mem_singleton.mp mem
            cases isEvent
            exact cancel rfl (some_inj.mp phase) _ stored
        · cases mem
  | _ =>
    refine iff_of_true ?_ ?_
    · intro _ _ mem
      cases mem
    · intro _ _ _ _ clash
      cases clash

def typedInto (history : List Event) : List ℕ :=
  history.filterMap fun event =>
    match event with
    | .typed session _ => some session
    | _ => none

def Phase.past : Phase -> Bool
  | .launching => false
  | .linked _ _ => false
  | .waiting => false
  | .typing _ => false
  | _ => true

/-- The stored code and the codes in the threads' hands were submitted to their
sessions, and a session whose code was typed is past typing. -/
structure TypedKept (history : List Event) (state : State) : Prop where
  known : Known state
  stored : ∀ found, state.stored.code = some found -> Event.submitted found.1 found.2 ∈ history
  held : ∀ thread code, thread ∈ state.threads -> thread.phase = .typing code -> Event.submitted thread.session code ∈ history
  own : ∀ session code, Event.typed session code ∈ history -> Event.submitted session code ∈ history
  once : (typedInto history).Nodup
  past : ∀ session ∈ typedInto history, session < state.nextSession /\
    ∀ thread ∈ state.threads, thread.session = session -> thread.phase.past

theorem threadStep_code (provider : Provider) (session : ℕ) (now : ℚ) (stored : Stored) (step : ThreadStep) (phase : Phase) :
  let result := step.step provider session now stored phase
  (result.2.code = stored.code \/ result.2.code = none) /\
    (∀ code, result.1 = some (.typing code) -> phase = .typing code \/ stored.code = some (session, code)) /\
    (∀ after, result.1 = some after -> phase.past -> after.past) /\
    (∀ code after, step = .typeCode -> phase = .typing code -> result.1 = some after -> after.past) := by
  intro result
  have kept : ∀ changes, (update session changes now stored).1.code = stored.code :=
    fun changes => (update_messages session changes now stored).1
  cases step with
  | takeCode =>
    cases phase with
    | waiting =>
      simp only [result, step]
      cases found : stored.code with
      | none => simp [found]
      | some code =>
        dsimp only
        split
        · simp [found]
        · rename_i mine
          rw [not_or, not_not] at mine
          refine ⟨.inr rfl, ?_, ?_, ?_⟩
          · intro held same
            split at same
            · cases same
              exact .inr (by rw [<- mine.2])
            · cases same
          · intro after _ past
            cases past
          · intro _ _ clash
            cases clash
    | _ => simp [result, step]
  | tellEnd committed => cases phase <;> cases committed <;> simp [result, step, kept, Phase.past]
  | clearCode committed | clearCancel committed =>
    cases phase <;> cases committed <;> simp [result, step, Phase.past]
  | checkCancel =>
    cases phase <;> simp [result, step, Phase.past] <;> split <;> simp
  | findLink url userCode | finish =>
    cases phase <;> simp [result, step, Phase.past]
    split <;> simp
  | _ => cases phase <;> simp [result, step, kept, Phase.past, Phase.working]

theorem next_code (state : State) (action : Action) {found : ℕ × String}
  (stored : (next provider state action).stored.code = some found) :
  state.stored.code = some found \/ Event.submitted found.1 found.2 ∈ submittedEvents state action := by
  cases action with
  | spawn process | die process => exact .inl stored
  | start process now taken startedBy =>
    simp only [next] at stored
    split at stored
    · exact .inl stored
    · cases stored
  | ask process purpose =>
    simp only [next] at stored
    split at stored
    · exact .inl stored
    · exact .inl stored
  | call callId now taken =>
    cases known : state.call callId with
    | none =>
      simp only [next, known] at stored
      exact .inl stored
    | some call =>
      simp only [next, known] at stored
      cases stage : call.stage with
      | reading purpose | cancelling session =>
        rw [stage] at stored
        exact .inl stored
      | ending session message purpose =>
        rw [stage, Stage.step, (update_messages session.id _ now state.stored).1] at stored
        exact .inl stored
      | submitting session code =>
        rw [stage] at stored
        cases stored
        right
        simp [submittedEvents, known, stage]
      | looking session =>
        left
        rw [stage, Stage.step] at stored
        split at stored
        · exact stored
        · split at stored
          · exact stored
          · exact stored
      | confirming session =>
        rw [stage, Stage.step, (update_messages session _ now state.stored).1] at stored
        exact .inl stored
  | thread session now step =>
    left
    cases known : state.thread session with
    | none =>
      simp only [next, known] at stored
      exact stored
    | some thread =>
      simp only [next, known] at stored
      rcases (threadStep_code provider session now state.stored step thread.phase).1 with same | gone
      · rw [same] at stored
        exact stored
      · rw [gone] at stored
        cases stored

theorem next_threads (mem : thread ∈ (next provider state action).threads) :
  (thread ∈ state.threads /\ ∀ now step, action ≠ .thread thread.session now step) \/
    (thread.session = state.nextSession /\ thread.phase = .launching) \/
    ∃ now step before,
      action = .thread thread.session now step /\ before ∈ state.threads /\ before.session = thread.session /\
        state.thread thread.session = some before /\
        (step.step provider thread.session now state.stored before.phase).1 = some thread.phase := by
  cases action with
  | spawn process => exact .inl ⟨mem, fun _ _ clash => nomatch clash⟩
  | die process => exact .inl ⟨(mem_deleteWhere.mp mem).1, fun _ _ clash => nomatch clash⟩
  | start process now taken startedBy =>
    simp only [next] at mem
    split at mem
    · exact .inl ⟨mem, fun _ _ clash => nomatch clash⟩
    · rcases mem_snoc.mp mem with old | new
      · exact .inl ⟨old, fun _ _ clash => nomatch clash⟩
      · rw [new]
        exact .inr (.inl ⟨rfl, rfl⟩)
  | ask process purpose =>
    simp only [next] at mem
    split at mem
    · exact .inl ⟨mem, fun _ _ clash => nomatch clash⟩
    · exact .inl ⟨mem, fun _ _ clash => nomatch clash⟩
  | call callId now taken =>
    cases known : state.call callId with
    | none | some call =>
      simp only [next, known] at mem
      exact .inl ⟨mem, fun _ _ clash => nomatch clash⟩
  | thread session now step =>
    cases known : state.thread session with
    | none =>
      simp only [next, known] at mem
      refine .inl ⟨mem, ?_⟩
      intro now' step' same
      cases same
      exact find?_eq_none.mp known thread mem (decide_eq_true rfl)
    | some before =>
      rcases State.thread_mem known with ⟨beforeMember, named⟩
      simp only [next, known] at mem
      cases result : (step.step provider session now state.stored before.phase).1 with
      | none =>
        rw [result] at mem
        rcases mem_deleteWhere.mp mem with ⟨old, other⟩
        refine .inl ⟨old, ?_⟩
        intro now' step' same
        cases same
        exact other (decide_eq_true rfl)
      | some phase =>
        rw [result] at mem
        rcases mem_updateWhere.mp mem with ⟨old, other⟩ | ⟨old, _, chosen, rfl⟩
        · refine .inl ⟨old, ?_⟩
          intro _ _ same
          cases same
          exact other (decide_eq_true rfl)
        · have isSession : old.session = session := of_decide_eq_true chosen
          refine .inr (.inr ⟨now, step, before, ?_, beforeMember, ?_, ?_, ?_⟩)
          · rw [isSession]
          · rw [isSession, named]
          · rw [isSession, known]
          · rw [isSession]
            exact result

theorem typed_mem_events {provider : Provider} {session : ℕ} {code : String} :
  Event.typed session code ∈ events provider state action ↔ ∃ now thread, action = .thread session now .typeCode /\
      state.thread session = some thread /\ thread.phase = .typing code := by
  have submitted : Event.typed session code ∉ submittedEvents state action := by
    unfold submittedEvents
    split
    · split
      · simp
      · exact not_mem_nil
    · exact not_mem_nil
  have told : Event.typed session code ∉ toldEvents state.stored (next provider state action).stored := by
    unfold toldEvents
    split
    · exact not_mem_nil
    · split
      · exact not_mem_nil
      · simp
  unfold events
  rw [mem_append, mem_append]
  constructor
  · intro mem
    have typed := (mem.resolve_right told).resolve_left submitted
    unfold threadEvents at typed
    split at typed
    · rename_i named now step
      split at typed
      · rename_i phase
        cases mem_singleton.mp typed
        rcases map_eq_some_iff.mp phase with ⟨thread, found, same⟩
        exact ⟨now, thread, rfl, found, same⟩
      · cases state.stored.code <;> simp at typed
      · cases state.stored.cancel <;> simp at typed
      · cases typed
    · cases typed
  · rintro ⟨_, _, rfl, found, phase⟩
    refine .inl (.inr ?_)
    simp [threadEvents, found, phase]

theorem mem_typedInto {session : ℕ} :
  session ∈ typedInto history ↔ ∃ code, Event.typed session code ∈ history := by
  unfold typedInto
  rw [mem_filterMap]
  constructor
  · rintro ⟨event, mem, same⟩
    cases event with
    | typed other code =>
      cases same
      exact ⟨code, mem⟩
    | _ => cases same
  · rintro ⟨_, mem⟩
    exact ⟨_, mem, rfl⟩

theorem typedInto_events_nodup (state : State) (action : Action) :
  (typedInto (events provider state action)).Nodup := by
  have submitted : typedInto (submittedEvents state action) = [] := by
    unfold submittedEvents
    split
    · split
      · rfl
      · rfl
    · rfl
  have told : typedInto (toldEvents state.stored (next provider state action).stored) = [] := by
    unfold toldEvents
    split
    · rfl
    · split
      · rfl
      · rfl
  have own : (typedInto (threadEvents state action)).Nodup := by
    unfold threadEvents
    split
    · split
      · exact nodup_singleton _
      · cases state.stored.code <;> exact nodup_nil
      · cases state.stored.cancel <;> exact nodup_nil
      · exact nodup_nil
    · exact nodup_nil
  unfold typedInto at submitted told own ⊢
  unfold events
  rw [filterMap_append, filterMap_append, submitted, told, append_nil, nil_append]
  exact own

theorem typedKept_next (kept : TypedKept history state) (allowed : enabled state action) :
  TypedKept (history ++ events provider state action) (next provider state action) := by
  have grows : state.nextSession <= (next provider state action).nextSession := by
    rcases next_told provider state action with ⟨_, _, _⟩ | ⟨_, _⟩
    · omega
    · omega
  -- what is typed now is in the hands of a thread that has not typed
  have nowTyped : ∀ session code, Event.typed session code ∈ events provider state action ->
      Event.submitted session code ∈ history /\ session < state.nextSession /\ session ∉ typedInto history := by
    intro session code typed
    rcases typed_mem_events.mp typed with ⟨now, thread, _, found, phase⟩
    rcases State.thread_mem found with ⟨mem, rfl⟩
    refine ⟨kept.held thread code mem phase, kept.known.below thread mem, ?_⟩
    intro before
    have past := (kept.past thread.session before).2 thread mem rfl
    rw [phase] at past
    cases past
  constructor
  · exact known_next provider kept.known allowed
  · intro found stored
    rcases next_code provider state action stored with before | submitted
    · exact mem_append_left _ (kept.stored found before)
    · refine mem_append_right _ ?_
      exact mem_append_left _ (mem_append_left _ submitted)
  · intro thread code mem phase
    apply mem_append_left
    rcases next_threads provider mem with ⟨old, _⟩ | ⟨_, launching⟩ | ⟨now, step, before, _, oldIn, named, _, result⟩
    · exact kept.held thread code old phase
    · rw [launching] at phase
      cases phase
    · rw [phase] at result
      rcases (threadStep_code provider thread.session now state.stored step before.phase).2.1 code result with
        same | stored
      · rw [<- named]
        exact kept.held before code oldIn same
      · exact kept.stored _ stored
  · intro session code mem
    apply mem_append_left
    rcases mem_append.mp mem with before | new
    · exact kept.own session code before
    · exact (nowTyped session code new).1
  · have split : typedInto (history ++ events provider state action) =
        typedInto history ++ typedInto (events provider state action) := filterMap_append
    rw [split]
    apply kept.once.append (typedInto_events_nodup provider state action)
    intro session before new
    rcases mem_typedInto.mp new with ⟨code, typed⟩
    exact (nowTyped session code typed).2.2 before
  · intro session mem
    rcases mem_typedInto.mp mem with ⟨code, typed⟩
    rcases mem_append.mp typed with before | new
    · rcases kept.past session (mem_typedInto.mpr ⟨code, before⟩) with ⟨below, past⟩
      refine ⟨below.trans_le grows, ?_⟩
      rintro thread threadMember rfl
      rcases next_threads provider threadMember with
        ⟨old, _⟩ | ⟨isNew, _⟩ | ⟨now, step, earlier, _, oldIn, named, _, result⟩
      · exact past thread old rfl
      · omega
      · exact (threadStep_code provider thread.session now state.stored step earlier.phase).2.2.1 _ result
          (past earlier oldIn named)
    · refine ⟨(nowTyped session code new).2.1.trans_le grows, ?_⟩
      rcases typed_mem_events.mp new with ⟨now, thread, isAction, found, phase⟩
      rintro other otherIn rfl
      rcases next_threads provider otherIn with
        ⟨_, unmoved⟩ | ⟨isNew, _⟩ | ⟨now', step, earlier, sameAction, _, _, foundEarlier, result⟩
      · exact absurd isAction (unmoved now .typeCode)
      · have below := (nowTyped other.session code new).2.1
        omega
      · rw [isAction] at sameAction
        cases sameAction
        rw [found, some_inj] at foundEarlier
        subst foundEarlier
        exact (threadStep_code provider other.session now state.stored .typeCode thread.phase).2.2.2 code _ rfl phase result

/-- The conditions of a step: a `start` comes while no working thread's session
is over, an update leaves ends alone, and a thread clears what is its own. -/
def Orderly (state : State) (action : Action) : Prop :=
  StartsWaiting state action /\ UpdatesLive state action /\ ClearsNamed state action

def web : Process := ⟨0, 7⟩

def signInRun : List Action :=
  [.spawn web, .start web 0 false "root", .thread 0 1 (.findLink "https://claude.ai/oauth" none), .thread 0 2 .tellWaiting,
    .ask web (.submit "abcd-1234"), .call 0 3 false, .call 0 4 false, .thread 0 5 .takeCode, .thread 0 6 .typeCode,
    .thread 0 7 .tellTyped, .thread 0 8 .finish, .thread 0 9 .tellChecking, .thread 0 10 (.verified none),
    .thread 0 11 .tellDone, .thread 0 12 (.clearCode true), .thread 0 13 (.clearCancel true)]

/-- The code comes at 890 s; the CLI is still at it when the time of its session
is over and the sign-in is started again. -/
def startedAgainRun : List Action :=
  signInRun.take 4 ++
    [.ask web (.submit "abcd-1234"), .call 0 890 false, .call 0 891 false, .thread 0 892 .takeCode, .thread 0 893 .typeCode,
      .thread 0 894 .tellTyped, .start web 901 false "root"]

def expiredRun : List Action :=
  startedAgainRun.take 10 ++
    [.ask web .show, .call 1 931 false, .call 1 931 false, .thread 0 932 .finish, .thread 0 933 .tellChecking]

/-- In every run each session has one thread at most, in a process that lives, and the stored session's thread is in
the process that it names. -/
theorem threads_own {state : State} (reachable : (loginMachine provider).Reachable state) : Known state :=
  have kept : (loginMachine provider).Invariant Known :=
    ⟨fun _ isInitial => isInitial ▸ known_start, fun _ _ known allowed => known_next provider known allowed⟩
  kept.reachable reachable

theorem threads_own_expired : Known ((loginMachine .claude).run emptyState expiredRun) := by
  have begun : (loginMachine .claude).Reachable emptyState := .start rfl
  exact threads_own .claude (begun.run expiredRun (by decide +kernel))

/-- A sign-in fails, and before its thread clears, the next one is started and
cancelled. -/
def clearedRun : List Action :=
  [.spawn web, .start web 0 false "root", .thread 0 1 (.failure "no link"), .thread 0 2 (.tellEnd true),
    .start web 3 false "root", .ask web .cancel, .call 0 4 false, .call 0 5 false, .thread 0 6 (.clearCode true),
    .thread 0 7 (.clearCancel true)]

end BananaChat.Subscriptions.Logins

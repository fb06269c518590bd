import BananaChat.Workers.Commands
import BananaChat.Downloads.Claims

namespace BananaChat.Workers.Commands

open Foundation List Rows Nat

/-!
# Commands end once and are handed out once

`Moves` is what every statement but the insertion does: a command that ended stays as it is, one
that runs is never queued again, and nobody becomes live.
-/

structure Keeps (row after : Command) : Prop where
  id : after.id = row.id
  workerId : after.workerId = row.workerId
  modelName : after.modelName = row.modelName
  ended : row.status.live = false -> after = row
  live : after.status.live -> row.status.live
  queued : after.status = .queued -> row.status = .queued

namespace Keeps

theorem refl (row : Command) : Keeps row row := ⟨rfl, rfl, rfl, fun _ => rfl, fun live => live, fun queued => queued⟩

theorem trans {first second third : Command} (earlier : Keeps first second) (later : Keeps second third) :
  Keeps first third where
  id := later.id.trans earlier.id
  workerId := later.workerId.trans earlier.workerId
  modelName := later.modelName.trans earlier.modelName
  ended := by
    intro past
    have same := earlier.ended past
    rw [same] at later
    exact later.ended past
  live := fun live => earlier.live (later.live live)
  queued := fun queued => earlier.queued (later.queued queued)

end Keeps

structure Moves (before after : List Command) : Prop where
  ids : (after.map Command.id).Sublist (before.map Command.id)
  keeps : ∀ row ∈ after, ∃ old ∈ before, Keeps old row

variable (commandId workerId : ℕ) {commands : List Command} {history : List Event} {action : Action} {state : State}

namespace Moves

theorem refl (commands : List Command) : Moves commands commands :=
  ⟨List.Sublist.refl _, fun row mem => ⟨row, mem, .refl row⟩⟩

theorem trans {first second third : List Command} (earlier : Moves first second) (later : Moves second third) :
  Moves first third where
  ids := later.ids.trans earlier.ids
  keeps := by
    intro row mem
    rcases later.keeps row mem with ⟨middle, middleMember, kept⟩
    rcases earlier.keeps middle middleMember with ⟨old, oldIn, before⟩
    exact ⟨old, oldIn, before.trans kept⟩

theorem update {selected : Command -> Bool} {change : Command -> Command}
  (kept : ∀ row, selected row -> Keeps row (change row)) (commands : List Command) :
  Moves commands (Rows.updateWhere selected change commands) where
  ids := by
    rw [map_updateWhere_of_mem Command.id fun row _ chosen => (kept row chosen).id]
  keeps := by
    intro row mem
    rcases mem_updateWhere.mp mem with ⟨old, _⟩ | ⟨old, oldIn, chosen, rfl⟩
    · exact ⟨row, old, .refl row⟩
    · exact ⟨old, oldIn, kept old chosen⟩

theorem delete (selected : Command -> Bool) (commands : List Command) :
  Moves commands (Rows.deleteWhere selected commands) where
  ids := deleteWhere_sublist.map Command.id
  keeps := fun row mem => ⟨row, (mem_deleteWhere.mp mem).1, .refl row⟩

theorem foldl {Item : Type} {step : List Command -> Item -> List Command}
  (each : ∀ commands item, Moves commands (step commands item)) (items : List Item) (commands : List Command) :
  Moves commands (items.foldl step commands) := by
  induction items generalizing commands with
  | nil => exact .refl commands
  | cons item rest ih => exact (each commands item).trans (ih (step commands item))

theorem start (commandId workerId : ℕ) (now : ℚ) (commands : List Command) :
  Moves commands (startCommand commandId workerId now commands).1 := by
  apply update
  intro _ chosen
  have queued := (of_decide_eq_true chosen).2.2
  refine ⟨rfl, rfl, rfl, ?_, ?_, ?_⟩
  · intro past
    rw [queued] at past
    cases past
  · intro _
    rw [queued]
    rfl
  · intro clash
    cases clash

theorem progress (commandId workerId : ℕ) (now : ℚ) (percent : ℤ) (detail : String) (bytesDone bytesTotal : Option ℕ)
  (commands : List Command) :
  Moves commands (updateCommand commandId workerId now percent detail bytesDone bytesTotal commands) := by
  apply update
  intro _ chosen
  have running := (of_decide_eq_true chosen).2.2
  refine ⟨rfl, rfl, rfl, ?_, fun live => live, fun queued => queued⟩
  intro past
  rw [running] at past
  cases past

theorem finish (outcome : Outcome) (now : ℚ) (error detail : Option String) {onlyFrom : List Status}
  (fromLive : ∀ status ∈ onlyFrom, status.live) (commands : List Command) :
  Moves commands (finishCommand commandId outcome now error detail onlyFrom commands) := by
  apply update
  intro row chosen
  have live := fromLive row.status (of_decide_eq_true chosen).2
  refine ⟨rfl, rfl, rfl, ?_, fun _ => live, ?_⟩
  · intro past
    rw [live] at past
    cases past
  · intro queued
    cases outcome <;> cases queued

theorem note (detail : String) (commands : List Command) : Moves commands (noteWaiting commandId detail commands) := by
  apply update
  intro _ chosen
  have queued := (of_decide_eq_true chosen).2
  refine ⟨rfl, rfl, rfl, ?_, fun live => live, fun same => same⟩
  intro past
  rw [queued] at past
  cases past

end Moves

theorem running_live (status : Status) (mem : status ∈ [Status.running]) : status.live := by
  rw [mem_singleton.mp mem]
  rfl

theorem queued_live (status : Status) (mem : status ∈ [Status.queued]) : status.live := by
  rw [mem_singleton.mp mem]
  rfl

theorem cancel_moves (now : ℚ) (commands : List Command) : Moves commands (cancel commandId now commands) := by
  apply Moves.finish
  intro status mem
  rcases mem_cons.mp mem with rfl | last
  · rfl
  · exact running_live status last

theorem failLost_moves (running : List ℕ) (now : ℚ) (active commands : List Command) :
  Moves commands (failLost running now active commands) := by
  apply Moves.foldl
  intro table row
  exact .finish row.id .failed now _ none running_live table

theorem dropLost_moves (running : Option (List ℕ)) (now : ℚ) (commands : List Command) :
  Moves commands (dropLost workerId running now commands) := by
  cases running with
  | none => exact .refl commands
  | some running => exact failLost_moves running now _ commands

theorem report_moves (workerId commandId : ℕ) (body : Report) (now : ℚ) (commands : List Command) :
  Moves commands (report workerId commandId body now commands).1 := by
  unfold report
  split
  · exact .refl commands
  · split
    · exact .refl commands
    · split
      · exact .refl commands
      · split
        · exact .progress ..
        · exact .finish _ _ _ _ _ running_live _
        · exact .finish _ _ _ _ _ running_live _

theorem maintainRow_moves (workers : List Worker) (now : ℚ) (commands : List Command) (row : Command) :
  Moves commands (maintainRow workers now commands row) := by
  unfold maintainRow
  split
  · exact .finish _ _ _ _ _ running_live _
  · split
    · exact .refl commands
    · split
      · exact .refl commands
      · split
        · exact .finish _ _ _ _ _ queued_live _
        · split
          · exact .note ..
          · split
            · exact .note ..
            · exact .refl commands

theorem maintain_moves (workers : List Worker) (now : ℚ) (commands : List Command) :
  Moves commands (maintain workers now commands) :=
  (Moves.foldl (maintainRow_moves workers now) _ commands).trans (.delete _ _)

theorem startCommand_started {commandId workerId : ℕ} {now : ℚ} (distinct : (commands.map Command.id).Nodup)
  (started : (startCommand commandId workerId now commands).2 ≠ 0) :
  (∃ row ∈ commands, row.id = commandId /\ row.workerId = workerId /\ row.status = .queued) /\
    ∀ after ∈ (startCommand commandId workerId now commands).1, after.id = commandId -> after.status ≠ .queued := by
  have found : ∃ row ∈ commands, startable commandId workerId row := by
    by_contra none
    push Not at none
    exact started (affected_eq_zero_iff.mpr none)
  rcases found with ⟨row, mem, chosen⟩
  have matching := of_decide_eq_true chosen
  refine ⟨⟨row, mem, matching⟩, ?_⟩
  intro after afterMember named queued
  rcases mem_updateWhere.mp afterMember with ⟨old, unchosen⟩ | ⟨_, _, _, rfl⟩
  · have same : after = row := eq_of_key distinct old mem (named.trans matching.1.symm)
    rw [same] at unchosen
    exact unchosen chosen
  · cases queued

theorem handOut_moves (now : ℚ) (rows commands : List Command) :
  Moves commands (handOut workerId now rows commands).1 := by
  induction rows generalizing commands with
  | nil => exact .refl commands
  | cons row rest ih => exact (Moves.start row.id workerId now commands).trans (ih _)

theorem handOut_sublist (now : ℚ) (rows commands : List Command) :
  (handOut workerId now rows commands).2.Sublist rows := by
  induction rows generalizing commands with
  | nil => exact List.Sublist.refl _
  | cons row rest ih =>
    simp only [handOut]
    split
    · exact (ih _).cons row
    · exact (ih _).cons_cons row

theorem handOut_handed {workerId : ℕ} {now : ℚ} (rows : List Command) (distinct : (commands.map Command.id).Nodup)
  {handed : Command} (mem : handed ∈ (handOut workerId now rows commands).2) :
  (∃ row ∈ commands, row.id = handed.id /\ row.workerId = workerId /\ row.status = .queued) /\
    ∀ after ∈ (handOut workerId now rows commands).1, after.id = handed.id -> after.status ≠ .queued := by
  induction rows generalizing commands with
  | nil => cases mem
  | cons row rest ih =>
    have moved := Moves.start row.id workerId now commands
    have distinctAfter := distinct.sublist moved.ids
    -- a command handed out later in the loop was queued at its beginning
    have later : handed ∈ (handOut workerId now rest (startCommand row.id workerId now commands).1).2 ->
        (∃ row ∈ commands, row.id = handed.id /\ row.workerId = workerId /\ row.status = .queued) /\
          ∀ after ∈ (handOut workerId now (row :: rest) commands).1, after.id = handed.id ->
            after.status ≠ .queued := by
      intro inRest
      rcases ih distinctAfter inRest with ⟨⟨old, oldIn, sameId, sameWorker, queued⟩, gone⟩
      rcases moved.keeps old oldIn with ⟨first, firstMember, kept⟩
      exact ⟨⟨first, firstMember, kept.id.symm.trans sameId, kept.workerId.symm.trans sameWorker, kept.queued queued⟩, gone⟩
    simp only [handOut] at mem
    split at mem
    · exact later mem
    · rename_i started
      rcases mem_cons.mp mem with rfl | inRest
      · rcases startCommand_started distinct started with ⟨was, gone⟩
        refine ⟨was, ?_⟩
        intro after afterMember named queued
        rcases (handOut_moves workerId now rest _).keeps after afterMember with ⟨middle, middleMember, kept⟩
        exact gone middle middleMember (kept.id.symm.trans named) (kept.queued queued)
      · exact later inRest

theorem queuedCommands_nodup (workerId limit : ℕ) (distinct : (commands.map Command.id).Nodup) :
  ((queuedCommands workerId limit commands).map Command.id).Nodup := by
  unfold queuedCommands
  rw [map_take]
  apply List.Nodup.sublist (take_sublist _ _)
  rw [((perm_insertionSort _ _).map Command.id).nodup_iff]
  exact distinct.sublist (filter_sublist.map Command.id)

theorem heartbeat_spec (workerId : ℕ) (features : List String) (running : Option (List ℕ)) (now : ℚ)
  (distinct : (commands.map Command.id).Nodup) : let result := heartbeat workerId features running now commands
  Moves commands result.1 /\ ((result.2.getD []).map Command.id).Nodup /\ ∀ handed ∈ result.2.getD [],
      (∃ row ∈ commands, row.id = handed.id /\ row.workerId = workerId /\ row.status = .queued) /\
        ∀ after ∈ result.1, after.id = handed.id -> after.status ≠ .queued := by
  intro result
  unfold result heartbeat
  by_cases featured : feature ∉ features
  · rw [if_pos featured]
    exact ⟨.refl commands, nodup_nil, fun _ clash => nomatch clash⟩
  · rw [if_neg featured]
    have moved := dropLost_moves workerId running now commands
    have distinctAfter := distinct.sublist moved.ids
    simp only
    split
    · exact ⟨moved, nodup_nil, fun _ clash => nomatch clash⟩
    · refine ⟨moved.trans (handOut_moves workerId now _ _), ?_, ?_⟩
      · exact (queuedCommands_nodup workerId handout distinctAfter).sublist ((handOut_sublist workerId now _ _).map _)
      · intro _ mem
        rcases handOut_handed _ distinctAfter mem with ⟨⟨row, rowMember, sameId, sameWorker, queued⟩, gone⟩
        rcases moved.keeps row rowMember with ⟨old, oldIn, kept⟩
        exact ⟨⟨old, oldIn, kept.id.symm.trans sameId, kept.workerId.symm.trans sameWorker, kept.queued queued⟩, gone⟩

structure Inserts (state : State) (action : Action) (after : State) (command : Command) : Prop where
  placed : ∃ callId now call checked,
    action = .place callId now /\ state.call callId = some call /\ call.checked = some checked /\
      command = newCommand state.nextCommand call.workerId checked.1 checked.2.1 call.requestedBy now
  none : liveCommandFor command.workerId command.modelName state.commands = none
  commands : after.commands = state.commands ++ [command]
  nextCommand : after.nextCommand = state.nextCommand + 1

theorem next_cases (state : State) (action : Action) :
  (Moves state.commands (next state action).commands /\ (next state action).nextCommand = state.nextCommand) \/
    ∃ command, Inserts state action (next state action) command := by
  cases action with
  | queue workerId kind model requestedBy | record worker => exact .inl ⟨.refl _, rfl⟩
  | retry commandId requestedBy | check callId =>
    left
    simp only [next]
    split
    · exact ⟨.refl _, rfl⟩
    · split
      · exact ⟨.refl _, rfl⟩
      · exact ⟨.refl _, rfl⟩
  | place callId now =>
    cases found : state.call callId with
    | none =>
      simp only [next, found]
      exact .inl ⟨.refl _, trivial⟩
    | some call =>
      cases checkedCall : call.checked with
      | none =>
        simp only [next, found, checkedCall]
        exact .inl ⟨.refl _, trivial⟩
      | some checked =>
        cases live : liveCommandFor call.workerId checked.2.1 state.commands with
        | some existing =>
          simp only [next, found, checkedCall, placeCommand, live]
          exact .inl ⟨.refl _, trivial⟩
        | none =>
          simp only [next, found, checkedCall, placeCommand, live]
          exact .inr ⟨_, ⟨callId, now, call, checked, rfl, found, checkedCall, rfl⟩, live, rfl, rfl⟩
  | cancel commandId now => exact .inl ⟨cancel_moves commandId now _, rfl⟩
  | heartbeat workerId features running now =>
    refine .inl ⟨?_, rfl⟩
    simp only [next, heartbeat]
    split
    · exact .refl _
    · split
      · exact dropLost_moves workerId running now _
      · exact (dropLost_moves workerId running now _).trans (handOut_moves workerId now _ _)
  | report workerId commandId body now => exact .inl ⟨report_moves workerId commandId body now _, rfl⟩
  | maintain now => exact .inl ⟨maintain_moves state.workers now _, rfl⟩
  | remove workerId => exact .inl ⟨.delete _ _, rfl⟩

def handedOut (history : List Event) : List ℕ :=
  history.filterMap fun event =>
    match event with
    | .handed _ command => some command
    | .queued _ _ => none

/-- The table, related to what a run reported. -/
structure Kept (history : List Event) (state : State) : Prop where
  keys : (state.commands.map Command.id).Nodup
  below : ∀ row ∈ state.commands, row.id < state.nextCommand
  known : ∀ command workerId, Event.queued command workerId ∈ history -> command < state.nextCommand
  stored : ∀ row ∈ state.commands, Event.queued row.id row.workerId ∈ history
  single : ∀ command first second, Event.queued command first ∈ history -> Event.queued command second ∈ history ->
    first = second
  once : (handedOut history).Nodup
  own : ∀ workerId command, Event.handed workerId command ∈ history -> Event.queued command workerId ∈ history
  gone : ∀ workerId command, Event.handed workerId command ∈ history ->
    ∀ row ∈ state.commands, row.id = command -> row.status ≠ .queued

theorem mem_handedOut {command : ℕ} :
  command ∈ handedOut history ↔ ∃ workerId, Event.handed workerId command ∈ history := by
  unfold handedOut
  rw [mem_filterMap]
  constructor
  · rintro ⟨event, mem, same⟩
    cases event with
    | queued other workerId => cases same
    | handed workerId other =>
      cases same
      exact ⟨workerId, mem⟩
  · rintro ⟨_, mem⟩
    exact ⟨_, mem, rfl⟩

def replied (state : State) : Action -> List Event
  | .heartbeat workerId features running now =>
    ((heartbeat workerId features running now state.commands).2.getD []).map (.handed workerId ·.id)
  | _ => []

theorem events_eq (state : State) (action : Action) : events state action =
    ((next state action).commands.filter (·.id ∉ state.commands.map Command.id)).map
      (fun row => Event.queued row.id row.workerId) ++ replied state action := by
  rfl

theorem reply_handed {event : Event} (mem : event ∈ replied state action) :
  ∃ workerId command, event = .handed workerId command := by
  cases action <;> first | exact absurd mem not_mem_nil | skip
  rcases mem_map.mp mem with ⟨_, _, rfl⟩
  exact ⟨_, _, rfl⟩

theorem Kept.moves (kept : Kept history state) (moved : Moves state.commands (next state action).commands)
  (sameNext : (next state action).nextCommand = state.nextCommand) :
  Kept (history ++ events state action) (next state action) := by
  have nothing : (next state action).commands.filter (·.id ∉ state.commands.map Command.id) = [] := by
    rw [filter_eq_nil_iff]
    intro row mem new
    exact of_decide_eq_true new (moved.ids.subset (mem_map_of_mem mem))
  have reported : events state action = replied state action := by
    rw [events_eq, nothing, map_nil, nil_append]
  -- what the reply carries was queued for its worker, and is not queued any more
  have handed : ((handedOut (replied state action))).Nodup /\ ∀ workerId command,
      Event.handed workerId command ∈ replied state action ->
        (∃ row ∈ state.commands, row.id = command /\ row.workerId = workerId /\ row.status = .queued) /\
          ∀ after ∈ (next state action).commands, after.id = command -> after.status ≠ .queued := by
    cases action with
    | heartbeat workerId features running now =>
      have spec := heartbeat_spec workerId features running now kept.keys
      constructor
      · have carried : handedOut (replied state (.heartbeat workerId features running now)) =
            ((heartbeat workerId features running now state.commands).2.getD []).map Command.id := by
          simp [replied, handedOut]
        rw [carried]
        exact spec.2.1
      · intro _ command mem
        rcases mem_map.mp mem with ⟨row, rowMember, same⟩
        cases same
        exact spec.2.2 row rowMember
    | _ => exact ⟨nodup_nil, fun _ _ clash => nomatch clash⟩
  have origin : ∀ row ∈ (next state action).commands, ∃ old ∈ state.commands, Keeps old row :=
    moved.keeps
  rw [reported]
  have noQueued : ∀ command workerId, Event.queued command workerId ∉ replied state action := by
    intro command workerId mem
    rcases reply_handed mem with ⟨_, _, clash⟩
    cases clash
  constructor
  · exact kept.keys.sublist moved.ids
  · intro row mem
    rcases origin row mem with ⟨old, oldIn, keeps⟩
    rw [sameNext, keeps.id]
    exact kept.below old oldIn
  · intro command workerId mem
    rw [sameNext]
    rcases mem_append.mp mem with before | new
    · exact kept.known command workerId before
    · exact absurd new (noQueued command workerId)
  · intro row mem
    rcases origin row mem with ⟨old, oldIn, keeps⟩
    rw [keeps.id, keeps.workerId]
    exact mem_append_left _ (kept.stored old oldIn)
  · intro command first second firstMember secondMember
    rcases mem_append.mp firstMember with firstBefore | new
    · rcases mem_append.mp secondMember with secondBefore | new
      · exact kept.single command first second firstBefore secondBefore
      · exact absurd new (noQueued command second)
    · exact absurd new (noQueued command first)
  · unfold handedOut
    rw [filterMap_append]
    apply kept.once.append handed.1
    intro command before now
    rcases mem_handedOut.mp before with ⟨earlier, earlierMember⟩
    rcases mem_handedOut.mp now with ⟨workerId, nowMember⟩
    rcases (handed.2 workerId command nowMember).1 with ⟨row, mem, named, _, queued⟩
    exact kept.gone earlier command earlierMember row mem named queued
  · intro workerId command mem
    apply mem_append_left
    rcases mem_append.mp mem with before | new
    · exact kept.own workerId command before
    · rcases (handed.2 workerId command new).1 with ⟨row, rowMember, rfl, rfl, _⟩
      exact kept.stored row rowMember
  · intro workerId command mem row rowMember named
    rcases mem_append.mp mem with before | new
    · rcases origin row rowMember with ⟨old, oldIn, keeps⟩
      intro queued
      exact kept.gone workerId command before old oldIn (keeps.id.symm.trans named) (keeps.queued queued)
    · exact (handed.2 workerId command new).2 row rowMember named

theorem Kept.inserts {command : Command} (kept : Kept history state)
  (inserted : Inserts state action (next state action) command) :
  Kept (history ++ events state action) (next state action) := by
  rcases inserted.placed with ⟨_, _, _, _, isPlace, _, _, isNew⟩
  have id : command.id = state.nextCommand := by
    rw [isNew]
    rfl
  have queued : command.status = .queued := by
    rw [isNew]
    rfl
  have fresh : ∀ row ∈ state.commands, row.id ≠ command.id := by
    intro row mem same
    have older := kept.below row mem
    omega
  have reported : events state action = [.queued command.id command.workerId] := by
    have noReply : replied state action = [] := by
      rw [isPlace]
      rfl
    have old : state.commands.filter (·.id ∉ state.commands.map Command.id) = [] := by
      rw [filter_eq_nil_iff]
      intro row mem new
      exact of_decide_eq_true new (mem_map_of_mem mem)
    have new : command.id ∉ state.commands.map Command.id := by
      intro known
      rcases mem_map.mp known with ⟨row, mem, same⟩
      exact fresh row mem same
    rw [events_eq, noReply, inserted.commands, filter_append, old, filter_singleton, decide_eq_true new]
    rfl
  have members : ∀ row ∈ (next state action).commands, row ∈ state.commands \/ row = command := by
    intro row mem
    rw [inserted.commands] at mem
    exact (mem_append.mp mem).imp_right mem_singleton.mp
  rw [reported]
  constructor
  · rw [inserted.commands, map_append]
    apply kept.keys.append (nodup_singleton _)
    intro known before last
    rw [mem_singleton] at last
    rcases mem_map.mp before with ⟨row, mem, same⟩
    exact fresh row mem (same.trans last)
  · intro row mem
    rw [inserted.nextCommand]
    rcases members row mem with old | rfl
    · exact (kept.below row old).trans (lt_succ_self _)
    · rw [id]
      exact lt_succ_self _
  · intro known workerId mem
    rw [inserted.nextCommand]
    rcases mem_snoc.mp mem with before | new
    · exact (kept.known known workerId before).trans (lt_succ_self _)
    · cases new
      rw [id]
      exact lt_succ_self _
  · intro row mem
    rcases members row mem with old | rfl
    · exact mem_append_left _ (kept.stored row old)
    · exact mem_append_right _ (mem_singleton.mpr rfl)
  · intro known first second firstMember secondMember
    rcases mem_snoc.mp firstMember with firstBefore | firstNew
    · rcases mem_snoc.mp secondMember with secondBefore | secondNew
      · exact kept.single known first second firstBefore secondBefore
      · cases secondNew
        have older := kept.known _ first firstBefore
        omega
    · cases firstNew
      rcases mem_snoc.mp secondMember with secondBefore | secondNew
      · have older := kept.known _ second secondBefore
        omega
      · cases secondNew
        rfl
  · unfold handedOut
    rw [filterMap_append]
    simp only [filterMap_cons, filterMap_nil, append_nil]
    exact kept.once
  · intro workerId known mem
    rcases mem_snoc.mp mem with before | new
    · exact mem_append_left _ (kept.own workerId known before)
    · cases new
  · intro workerId known mem row rowMember named
    rcases mem_snoc.mp mem with before | new
    · rcases members row rowMember with old | rfl
      · exact kept.gone workerId known before row old named
      · have older := kept.known known workerId (kept.own workerId known before)
        omega
    · cases new

theorem kept_of_trace (trace : commandMachine.Trace events history state) : Kept history state := by
  apply trace.induct
  · intro start isInitial
    have empty : start = emptyState := isInitial
    subst empty
    refine ⟨nodup_nil, ?_, ?_, ?_, ?_, nodup_nil, ?_, ?_⟩
    · intro row mem
      cases mem
    · intro command workerId mem
      cases mem
    · intro _ mem
      cases mem
    · intro command _ _ mem
      cases mem
    · intro workerId command mem
      cases mem
    · intro _ command mem
      cases mem
  · intro _ state action kept _
    rcases next_cases state action with ⟨moved, sameNext⟩ | ⟨_, inserted⟩
    · exact kept.moves moved sameNext
    · exact kept.inserts inserted

def Settled (row : Command) (state : State) : Prop :=
  (∀ other ∈ state.commands, other.id = row.id -> other = row) /\ row.id < state.nextCommand

theorem settled_run {row : Command} (past : row.status.live = false) (actions : List Action) (settled : Settled row state) :
  Settled row (commandMachine.run state actions) := by
  induction actions generalizing state with
  | nil => exact settled
  | cons action rest ih =>
    apply ih
    change Settled row (next state action)
    rcases next_cases state action with ⟨moved, sameNext⟩ | ⟨command, inserted⟩
    · constructor
      · intro other mem named
        rcases moved.keeps other mem with ⟨old, oldIn, keeps⟩
        have same := settled.1 old oldIn (keeps.id.symm.trans named)
        rw [same] at keeps
        exact keeps.ended past
      · rw [sameNext]
        exact settled.2
    · constructor
      · intro other mem named
        rw [inserted.commands] at mem
        rcases mem_snoc.mp mem with old | new
        · exact settled.1 other old named
        · rcases inserted.placed with ⟨_, _, _, _, _, _, _, isNew⟩
          have isNext : command.id = state.nextCommand := by
            rw [isNew]
            rfl
          have older := settled.2
          rw [new] at named
          omega
      · rw [inserted.nextCommand]
        exact settled.2.trans (lt_succ_self _)

def Exclusive (state : State) : Prop :=
  ∀ first ∈ state.commands, ∀ second ∈ state.commands, first.status.live ->
    second.status.live -> first.workerId = second.workerId -> SameModel first.modelName second.modelName ->
    first.id = second.id

instance (state : State) : Decidable (Exclusive state) :=
  inferInstanceAs (Decidable (∀ first ∈ state.commands, ∀ second ∈ state.commands,
    first.status.live -> second.status.live -> first.workerId = second.workerId ->
    SameModel first.modelName second.modelName -> first.id = second.id))

/-- The step does not bring a command to its transaction while the worker has a
live one for the same model under another spelling. -/
def SpelledAlike (state : State) (action : Action) : Prop :=
  ∀ callId now call checked, action = .place callId now -> state.call callId = some call ->
    call.checked = some checked -> ∀ row ∈ state.commands, row.status.live ->
    row.workerId = call.workerId -> SameModel row.modelName checked.2.1 -> row.modelName = checked.2.1

def Numbered (state : State) : Prop :=
  (state.commands.map Command.id).Nodup /\ ∀ row ∈ state.commands, row.id < state.nextCommand

theorem numbered_next (state : State) (action : Action) (numbered : Numbered state) : Numbered (next state action) := by
  rcases next_cases state action with ⟨moved, sameNext⟩ | ⟨command, inserted⟩
  · refine ⟨numbered.1.sublist moved.ids, ?_⟩
    intro row mem
    rcases moved.keeps row mem with ⟨old, oldIn, keeps⟩
    rw [sameNext, keeps.id]
    exact numbered.2 old oldIn
  · rcases inserted.placed with ⟨_, _, _, _, _, _, _, isNew⟩
    have isNext : command.id = state.nextCommand := by
      rw [isNew]
      rfl
    constructor
    · rw [inserted.commands, map_append]
      apply numbered.1.append (nodup_singleton _)
      intro _ before last
      rw [mem_singleton] at last
      rcases mem_map.mp before with ⟨row, mem, _⟩
      have older := numbered.2 row mem
      omega
    · intro row mem
      rw [inserted.nextCommand]
      rw [inserted.commands] at mem
      rcases mem_snoc.mp mem with old | new
      · exact (numbered.2 row old).trans (lt_succ_self _)
      · rw [new, isNext]
        exact lt_succ_self _

theorem liveCommandFor_eq_none {workerId : ℕ} {model : String} : liveCommandFor workerId model commands = none ↔
    ∀ row ∈ commands, row.status.live -> row.workerId = workerId -> row.modelName ≠ model := by
  unfold liveCommandFor
  rw [find?_eq_none]
  constructor
  · intro absent row mem live worker named
    apply absent row mem
    rw [Bool.and_eq_true, decide_eq_true_eq]
    exact ⟨⟨worker, named⟩, live⟩
  · intro absent row mem found
    rw [Bool.and_eq_true, decide_eq_true_eq] at found
    exact absent row mem found.2 found.1.1 found.1.2

theorem exclusive_next_iff (state : State) (action : Action) (numbered : Numbered state) (exclusive : Exclusive state) :
  Exclusive (next state action) ↔ SpelledAlike state action := by
  rcases next_cases state action with ⟨moved, _⟩ | ⟨command, inserted⟩
  · refine iff_of_true ?_ ?_
    · intro first firstMember second secondMember firstLive secondLive worker same
      rcases moved.keeps first firstMember with ⟨one, oneMember, oneKeeps⟩
      rcases moved.keeps second secondMember with ⟨two, twoMember, twoKeeps⟩
      rw [oneKeeps.workerId, twoKeeps.workerId] at worker
      rw [oneKeeps.modelName, twoKeeps.modelName] at same
      rw [oneKeeps.id, twoKeeps.id]
      exact exclusive one oneMember two twoMember (oneKeeps.live firstLive) (twoKeeps.live secondLive) worker same
    · -- the transaction was refused, so the live command it found has the very name
      intro callId now call checked isPlace found isChecked row mem live worker same
      subst isPlace
      cases existing : liveCommandFor call.workerId checked.2.1 state.commands with
      | none =>
        have grown : (next state (.place callId now)).commands.length = state.commands.length + 1 := by
          simp [next, found, isChecked, placeCommand, existing]
        have fewer := moved.ids.length_le
        rw [length_map, length_map, grown] at fewer
        omega
      | some other =>
        have isLive := find?_some existing
        have otherIn := mem_of_find?_eq_some existing
        rw [Bool.and_eq_true, decide_eq_true_eq] at isLive
        have sameId := exclusive row mem other otherIn live isLive.2 (worker.trans isLive.1.1.symm)
          (isLive.1.2.symm ▸ same)
        rw [eq_of_key numbered.1 mem otherIn sameId]
        exact isLive.1.2
  · rcases inserted.placed with ⟨callId, now, call, checked, isPlace, found, isChecked, isNew⟩
    have isNext : command.id = state.nextCommand := by
      rw [isNew]
      rfl
    have named : command.modelName = checked.2.1 := by
      rw [isNew]
      rfl
    have worker : command.workerId = call.workerId := by
      rw [isNew]
      rfl
    have isLive : command.status.live := by
      rw [isNew]
      rfl
    have absent := liveCommandFor_eq_none.mp inserted.none
    have newMember : command ∈ (next state action).commands := by
      rw [inserted.commands]
      exact mem_append_right _ (mem_singleton.mpr rfl)
    constructor
    · intro apart _ _ _ _ isPlace' found' isChecked' row mem live rowWorker same
      rw [isPlace] at isPlace'
      cases isPlace'
      rw [found] at found'
      cases found'
      rw [isChecked] at isChecked'
      cases isChecked'
      have oldIn : row ∈ (next state action).commands := by
        rw [inserted.commands]
        exact mem_append_left _ mem
      have sameId := apart row oldIn command newMember live isLive (rowWorker.trans worker.symm) (named ▸ same)
      have older := numbered.2 row mem
      omega
    · intro alike
      have spelled : ∀ row ∈ state.commands, row.status.live -> row.workerId = command.workerId ->
          ¬ SameModel row.modelName command.modelName := by
        intro row mem live rowWorker same
        apply absent row mem live rowWorker
        rw [named] at same ⊢
        exact alike callId now call checked isPlace found isChecked row mem live (rowWorker.trans worker) same
      intro first firstMember second secondMember firstLive secondLive sameWorker same
      rw [inserted.commands] at firstMember secondMember
      rcases mem_snoc.mp firstMember with firstOld | firstNew
      · rcases mem_snoc.mp secondMember with secondOld | secondNew
        · exact exclusive first firstOld second secondOld firstLive secondLive sameWorker same
        · rw [secondNew] at sameWorker same
          exact absurd same (spelled first firstOld firstLive sameWorker)
      · rw [firstNew] at sameWorker same ⊢
        rcases mem_snoc.mp secondMember with secondOld | secondNew
        · exact absurd same.symm (spelled second secondOld secondLive sameWorker.symm)
        · rw [secondNew]

/-- A worker that has `llama3:latest`, an administrator who downloads it again
and one who removes `llama3`. -/
def spelledRun : List Action :=
  [.record ⟨1, "pc", false, [feature], ["llama3:latest"], some 0⟩, .queue 1 (some .pull) "llama3" none, .check 0, .place 0 1,
    .queue 1 (some .delete) "llama3" none, .check 1, .place 1 2]

end BananaChat.Workers.Commands

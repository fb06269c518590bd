import Mathlib
import BananaChat.Providers.Streams

namespace BananaChat.Providers

open Foundation List Option Dictionary Prod

/-!
# What the readers of provider streams yield

A reader that comes to its end has yielded the text and the thinking of every item, in order, and
last the terminal chunk with the tool calls.
-/

def readItems : List Event -> List Json
  | .item item :: later => item :: readItems later
  | _ => []

def Says (said : Json -> Text × Text) (step : Json × List Chunk) : Prop :=
  step.2.flatMap Chunk.content = (said step.1).1 /\ step.2.flatMap Chunk.thinking = (said step.1).2 /\
    ∀ chunk ∈ step.2, chunk.done = false /\ chunk.toolCalls = []

structure Reading (said : Json -> Text × Text) (finishes : Json -> Bool) (finished : Bool)
  (steps : List (Json × List Chunk)) : Prop where
  spoken : ∀ step ∈ steps, Says said step
  quiet : ∀ first second, steps = first ++ second ->
    (finished || first.any (finishes ·.1)) -> ∀ step ∈ second, said step.1 = ([], [])

theorem reading_nil (said : Json -> Text × Text) (finishes : Json -> Bool) (finished : Bool) :
  Reading said finishes finished [] := by
  refine ⟨forall_mem_nil _, fun first second split _ => ?_⟩
  rw [(append_eq_nil_iff.mp split.symm).2]
  exact forall_mem_nil _

variable {said : Json -> Text × Text} {finishes : Json -> Bool}

theorem Reading.cons {finished : Bool} {step : Json × List Chunk}
  {later : List (Json × List Chunk)} (reading : Reading said finishes (finished || finishes step.1) later)
  (spoken : Says said step) (quiet : finished -> said step.1 = ([], [])) :
  Reading said finishes finished (step :: later) := by
  refine ⟨forall_mem_cons.mpr ⟨spoken, reading.spoken⟩, ?_⟩
  intro first second split seen
  cases first with
  | nil =>
    rw [any_nil, Bool.or_false] at seen
    rw [nil_append] at split
    rw [<- split]
    refine forall_mem_cons.mpr ⟨quiet seen, ?_⟩
    apply reading.quiet [] later rfl
    rw [seen]
    rfl
  | cons head others =>
    cases split
    apply reading.quiet others second rfl
    rw [Bool.or_assoc]
    exact seen

structure Parsed (said : Json -> Text × Text) (finishes : Json -> Bool) (calls : List ToolCall)
  (steps : List (Json × List Chunk)) (chunks : List Chunk) : Prop where
  terminal : ∃ final : Chunk, chunks = steps.flatMap Prod.snd ++ [final] /\ final.done /\
    final.content = [] /\ final.thinking = [] /\ final.toolCalls = calls
  others : ∀ chunk ∈ steps.flatMap Prod.snd, chunk.done = false /\ chunk.toolCalls = []
  texts : chunks.flatMap Chunk.content = (steps.map Prod.fst).flatMap (fun item => (said item).1)
  thinking : chunks.flatMap Chunk.thinking = (steps.map Prod.fst).flatMap (fun item => (said item).2)
  finished : ∃ step ∈ steps, finishes step.1
  quiet : ∀ first second, steps = first ++ second -> (∃ step ∈ first, finishes step.1) ->
    ∀ step ∈ second, ∀ chunk ∈ step.2, chunk.content = [] /\ chunk.thinking = []

variable {steps : List (Json × List Chunk)} {calls : List (ℕ × Collected)} {item : Json} {chunks : List Chunk}
  {events : List Event} {next state : ClaudeState}

theorem Reading.parsed (reading : Reading said finishes false steps) (finished : steps.any (finishes ·.1))
  (finish : Finish) (prompt completion : Option ℕ) (calls : List ToolCall) (replay : Option (List Json)) :
  Parsed said finishes calls steps (steps.flatMap snd ++ [.last finish prompt completion calls replay]) := by
  have joined (field : Chunk -> Text) (part : Json -> Text) (none : field (.last finish prompt completion calls replay) = [])
      (same : ∀ step ∈ steps, step.2.flatMap field = part step.1) :
      (steps.flatMap snd ++ [Chunk.last finish prompt completion calls replay]).flatMap field =
        (steps.map fst).flatMap part := by
    rw [flatMap_append, flatMap_singleton, none, append_nil, flatMap_assoc, flatMap_map]
    exact flatMap_congr same
  refine ⟨⟨_, rfl, rfl, rfl, rfl, rfl⟩, ?_, ?_, ?_, ?_, ?_⟩
  · intro chunk mem
    rcases mem_flatMap.mp mem with ⟨step, isStep, isChunk⟩
    exact (reading.spoken step isStep).2.2 chunk isChunk
  · exact joined Chunk.content (fun item => (said item).1) rfl (fun step mem => (reading.spoken step mem).1)
  · exact joined Chunk.thinking (fun item => (said item).2) rfl (fun step mem => (reading.spoken step mem).2.1)
  · rcases any_eq_true.mp finished with ⟨step, mem, isFinish⟩
    exact ⟨step, mem, isFinish⟩
  · rintro first second split ⟨finishing, isFirst, isFinish⟩ step mem chunk isChunk
    have seen : (false || first.any (finishes ·.1)) := by
      rw [Bool.false_or]
      exact any_eq_true.mpr ⟨finishing, isFirst, isFinish⟩
    have silent := reading.quiet first second split seen step mem
    have spoken := reading.spoken step (by rw [split]; exact mem_append_right _ mem)
    unfold Says at spoken
    rw [silent, flatMap_eq_nil_iff, flatMap_eq_nil_iff] at spoken
    exact ⟨spoken.1 chunk isChunk, spoken.2.1 chunk isChunk⟩

def choiceIn (item : Json) : Option (Json × Json) := (choiceOf item).toOption.join

def openaiSaid (item : Json) : Text × Text :=
  ((choiceIn item).bind fun choice => (deltaText choice.2).toOption).getD ([], [])

def openaiFinishes (item : Json) : Bool :=
  match choiceIn item with
  | some (choice, _) => !(choice.get "finish_reason").isNull
  | none => false

def fragmentIn (call : Json) : Option (ℕ × Text × Text) :=
  match callIndex (call.get "index"), fragmentOf (call.get "function") "name", fragmentOf (call.get "function") "arguments" with
  | .ok index, .ok name, .ok arguments => some (index, name, arguments)
  | _, _, _ => none

def fragmentsIn (item : Json) : List (ℕ × Text × Text) :=
  match choiceIn item with
  | some (_, delta) => ((deltaCalls delta).toOption.getD []).filterMap fragmentIn
  | none => []

def callAt (index : ℕ) (fragments : List (ℕ × Text × Text)) : Option Collected :=
  let own := fragments.filter (·.1 = index)
  if own = [] then none else some ⟨own.flatMap (·.2.1), own.flatMap (·.2.2)⟩

theorem callAt_append (index : ℕ) (fragments : List (ℕ × Text × Text)) (fragment : ℕ × Text × Text) :
  callAt index (fragments ++ [fragment]) = if fragment.1 = index then
      some ⟨((callAt index fragments).getD ⟨[], []⟩).name ++ fragment.2.1,
        ((callAt index fragments).getD ⟨[], []⟩).arguments ++ fragment.2.2⟩
    else callAt index fragments := by
  unfold callAt
  dsimp only
  by_cases same : fragment.1 = index
  · rw [if_pos same, filter_append, filter_cons_of_pos (by exact decide_eq_true same), filter_nil,
      if_neg (append_ne_nil_of_right_ne_nil _ (cons_ne_nil _ _)), flatMap_append, flatMap_append,
      flatMap_singleton, flatMap_singleton]
    split
    · rename_i nothing
      rw [nothing]
      rfl
    · rfl
  · rw [if_neg same, filter_append, filter_cons_of_neg (by rw [decide_eq_true_eq]; exact same), filter_nil,
      append_nil]

def Holds (fragments : List (ℕ × Text × Text)) (calls : List (ℕ × Collected)) : Prop :=
  ∀ index, get? index calls = callAt index fragments

theorem grown_ok {stored fragment result : Text} (grew : grown stored fragment = .ok result) : result = stored ++ fragment := by
  unfold grown at grew
  split at grew
  · cases grew
  · cases grew
    rfl

variable {fragments : List (ℕ × Text × Text)}

theorem addFragment_holds {next : List (ℕ × Collected)} {call : Json}
  (holds : Holds fragments calls) (added : addFragment calls call = .ok next) :
  ∃ fragment, fragmentIn call = some fragment /\ Holds (fragments ++ [fragment]) next := by
  rcases except_bind_ok added with ⟨index, isIndex, added⟩
  dsimp only at added
  split at added
  · cases added
  · rcases except_bind_ok added with ⟨nameFragment, isName, added⟩
    rcases except_bind_ok added with ⟨_, nameGrown, added⟩
    rcases except_bind_ok added with ⟨fragment, isFragment, added⟩
    rcases except_bind_ok added with ⟨_, grew, added⟩
    cases added
    refine ⟨(index, nameFragment, fragment), ?_, fun other => ?_⟩
    · unfold fragmentIn
      rw [isIndex, isName, isFragment]
    · rw [get?_put, callAt_append, holds other, grown_ok nameGrown, grown_ok grew]
      by_cases same : index = other
      · subst same
        rw [if_pos rfl, if_pos rfl, holds index]
      · rw [if_neg same, if_neg same]

theorem addFragments_holds {next : List (ℕ × Collected)} {entries : List Json}
  (holds : Holds fragments calls) (added : addFragments calls entries = .ok next) :
  Holds (fragments ++ entries.filterMap fragmentIn) next := by
  induction entries generalizing fragments calls with
  | nil =>
    cases added
    rw [filterMap_nil, append_nil]
    exact holds
  | cons call rest ih =>
    rcases except_bind_ok added with ⟨_, first, others⟩
    rcases addFragment_holds holds first with ⟨_, isFragment, grew⟩
    rw [filterMap_cons_some isFragment, append_cons]
    exact ih grew others

theorem readChoice_facts {state : OpenaiState} {choice : Option (Json × Json)} {said : Text × Text}
  {finish : Option Finish} (isChoice : choiceOf item = .ok choice)
  (read : readChoice state choice = .ok (said, calls, finish)) :
  said = openaiSaid item /\ (state.finish.isSome -> said = ([], [])) /\
    finish.isSome = (state.finish.isSome || openaiFinishes item) /\
    ∀ fragments, Holds fragments state.calls -> Holds (fragments ++ fragmentsIn item) calls := by
  have found : choiceIn item = choice := by
    unfold choiceIn
    rw [isChoice]
    rfl
  unfold openaiSaid openaiFinishes fragmentsIn
  rw [found]
  cases choice with
  | none =>
    cases read
    refine ⟨rfl, fun _ => rfl, (Bool.or_false _).symm, fun fragments holds => ?_⟩
    rw [append_nil]
    exact holds
  | some pair =>
    rcases pair with ⟨_, _⟩
    rcases except_bind_ok read with ⟨text, isText, read⟩
    split at read
    · cases read
    · rename_i allowed
      rcases except_bind_ok read with ⟨_, isEntries, read⟩
      rcases except_bind_ok read with ⟨_, isAdded, read⟩
      rcases except_bind_ok read with ⟨_, isReason, read⟩
      cases read
      dsimp only
      refine ⟨?_, fun isFinished => ?_, ?_, fun fragments holds => ?_⟩
      · rw [bind_some, isText]
        rfl
      · by_contra speaks
        refine allowed ⟨isFinished, ?_⟩
        by_contra silent
        rw [not_or, not_not, not_not] at silent
        exact speaks (Prod.ext silent.1 silent.2)
      · unfold reasonOf at isReason
        split at isReason
        · rename_i nothing
          cases isReason
          rw [nothing]
          exact (Bool.or_false _).symm
        · rename_i text isReasonText
          cases isReason
          rw [isReasonText]
          exact (Bool.or_true _).symm
        · cases isReason
      · rw [isEntries]
        exact addFragments_holds holds isAdded

theorem openaiStep_facts {state next : OpenaiState} (stepped : openaiStep state item = .ok (next, chunks)) :
  Says openaiSaid (item, chunks) /\ (state.finish.isSome -> openaiSaid item = ([], [])) /\
    next.finish.isSome = (state.finish.isSome || openaiFinishes item) /\
    ∀ fragments, Holds fragments state.calls -> Holds (fragments ++ fragmentsIn item) next.calls := by
  unfold openaiStep at stepped
  split at stepped
  · cases stepped
  · rcases except_bind_ok stepped with ⟨_, _, stepped⟩
    rcases except_bind_ok stepped with ⟨_, isChoice, stepped⟩
    rcases except_bind_ok stepped with ⟨read, isRead, stepped⟩
    rcases read with ⟨_, _, _⟩
    rcases readChoice_facts isChoice isRead with ⟨isSaid, quiet, finished, holds⟩
    subst isSaid
    split at stepped
    · cases stepped
      refine ⟨⟨?_, ?_, ?_⟩, quiet, finished, holds⟩
      · exact flatMap_singleton _ _
      · exact flatMap_singleton _ _
      · intro _ mem
        rw [mem_singleton.mp mem]
        exact ⟨rfl, rfl⟩
    · rename_i silent
      cases stepped
      rw [not_or, not_or, not_not, not_not] at silent
      refine ⟨⟨silent.1.symm, silent.2.1.symm, forall_mem_nil _⟩, quiet, finished, holds⟩

theorem openaiSteps_facts {state final : OpenaiState} (ran : openaiSteps state events = .ok (final, steps)) :
  steps.map fst = readItems events /\ Reading openaiSaid openaiFinishes state.finish.isSome steps /\
    final.finish.isSome = (state.finish.isSome || steps.any (openaiFinishes ·.1)) /\
    ∀ fragments, Holds fragments state.calls ->
      Holds (fragments ++ (steps.map fst).flatMap fragmentsIn) final.calls := by
  induction events generalizing state steps with
  | nil =>
    cases ran
    refine ⟨rfl, reading_nil _ _ _, (Bool.or_false _).symm, fun fragments holds => ?_⟩
    rw [map_nil, flatMap_nil, append_nil]
    exact holds
  | cons event later ih =>
    cases event with
    | done =>
      cases ran
      refine ⟨rfl, reading_nil _ _ _, (Bool.or_false _).symm, fun fragments holds => ?_⟩
      rw [map_nil, flatMap_nil, append_nil]
      exact holds
    | failed message => cases ran
    | item item =>
      rcases except_bind_ok ran with ⟨⟨_, _⟩, stepped, ran⟩
      rcases except_bind_ok ran with ⟨⟨_, _⟩, rest, ran⟩
      cases ran
      rcases openaiStep_facts stepped with ⟨spoken, quiet, finished, holds⟩
      rcases ih rest with ⟨items, reading, finishedLater, holdsLater⟩
      rw [finished] at reading finishedLater
      refine ⟨?_, reading.cons spoken quiet, ?_, fun fragments holdsNow => ?_⟩
      · rw [map_cons, items]
        rfl
      · rw [finishedLater, any_cons, Bool.or_assoc]
      · rw [map_cons, flatMap_cons, <- append_assoc]
        exact holdsLater _ (holds fragments holdsNow)

def claudeSaid (item : Json) : Text × Text :=
  if (item.get "type").isText "content_block_delta" then
    ((deltaField (item.get "delta") "text_delta" "text").toOption.getD [],
      (deltaField (item.get "delta") "thinking_delta" "thinking").toOption.getD [])
  else ([], [])

def claudeFinishes (item : Json) : Bool :=
  (item.get "type").isText "message_delta" && !((item.get "delta").get "stop_reason").isNull

def startIn (index : ℕ) (item : Json) : Option (Text × Json) :=
  if (item.get "type").isText "content_block_start" then
    match startedCall item with
    | .ok (some (place, call)) => if place = index then some (call.name, call.input) else none
    | _ => none
  else none

def inputFor (index : ℕ) (item : Json) : Text :=
  if (item.get "type").isText "content_block_delta" && ((item.get "delta").get "type").isText "input_json_delta" &&
      ((callKey (item.get "index")).toOption.join = some index) then
    (partialJson (item.get "delta")).getD []
  else []

def claudeCallAt (index : ℕ) : List Json -> Option ClaudeCall
  | [] => none
  | item :: later =>
    (claudeCallAt index later).or
      ((startIn index item).map fun start => ⟨start.1, later.flatMap (inputFor index), start.2⟩)

theorem claudeCallAt_append (index : ℕ) (items : List Json) (item : Json) : claudeCallAt index (items ++ [item]) =
    ((startIn index item).map fun start => ⟨start.1, [], start.2⟩).or
      ((claudeCallAt index items).map fun call => { call with arguments := call.arguments ++ inputFor index item }) := by
  induction items with
  | nil =>
    rw [nil_append]
    unfold claudeCallAt claudeCallAt
    rw [none_or, map_none, or_none]
    rfl
  | cons first rest ih =>
    rw [cons_append]
    unfold claudeCallAt
    rw [ih]
    cases startIn index item with
    | some start => rfl
    | none =>
      rw [map_none, none_or, none_or, flatMap_append, flatMap_singleton]
      cases claudeCallAt index rest with
      | some call => rfl
      | none =>
        cases startIn index first with
        | some start | none => rfl

def HoldsItems (items : List Json) (calls : List (ℕ × ClaudeCall)) : Prop :=
  ∀ index, get? index calls = claudeCallAt index items

def Touches (item : Json) : Prop := ∃ index, startIn index item ≠ none \/ inputFor index item ≠ []

variable {items : List Json}

theorem HoldsItems.untouched {calls : List (ℕ × ClaudeCall)}
  (holds : HoldsItems items calls) (untouched : ¬ Touches item) : HoldsItems (items ++ [item]) calls := by
  intro index
  have neither : startIn index item = none /\ inputFor index item = [] := by
    by_contra either
    refine untouched ⟨index, ?_⟩
    by_contra neither
    rw [not_or, not_not, not_not] at neither
    exact either neither
  rw [claudeCallAt_append, neither.1, neither.2, holds index, map_none, none_or]
  cases claudeCallAt index items with
  | none => rfl
  | some call =>
    rw [map_some, append_nil]

theorem isText_other {value : Json} {first : String} (second : String) (isFirst : value.isText first)
  (apart : Text.ofString first ≠ Text.ofString second) : value.isText second = false := by
  unfold Json.isText at isFirst ⊢
  rw [of_decide_eq_true isFirst]
  exact decide_eq_false (fun same => apart (some.inj same))

structure ClaudeRead (state : ClaudeState) (item : Json) (next : ClaudeState) (chunks : List Chunk) : Prop where
  spoken : Says claudeSaid (item, chunks)
  quiet : state.finish.isSome -> claudeSaid item = ([], [])
  finish : next.finish.isSome = (state.finish.isSome || claudeFinishes item)
  calls : ∀ items, HoldsItems items state.calls -> HoldsItems (items ++ [item]) next.calls

theorem claudeSaid_other (other : (item.get "type").isText "content_block_delta" = false) :
  claudeSaid item = ([], []) := by
  unfold claudeSaid
  rw [if_neg (by rw [other]; exact Bool.false_ne_true)]

theorem claudeFinishes_other (other : (item.get "type").isText "message_delta" = false) :
  claudeFinishes item = false := by
  unfold claudeFinishes
  rw [other, Bool.false_and]

theorem startIn_other (other : (item.get "type").isText "content_block_start" = false) (index : ℕ) :
  startIn index item = none := by
  unfold startIn
  rw [if_neg (by rw [other]; exact Bool.false_ne_true)]

theorem inputFor_other (other : (item.get "type").isText "content_block_delta" = false) (index : ℕ) :
  inputFor index item = [] := by
  unfold inputFor
  rw [if_neg (by rw [other]; exact Bool.false_ne_true)]

theorem claudeRead_silent (noStart : (item.get "type").isText "content_block_start" = false)
  (noDelta : (item.get "type").isText "content_block_delta" = false)
  (silent : ∀ chunk ∈ chunks, chunk.content = [] /\ chunk.thinking = [] /\ chunk.done = false /\ chunk.toolCalls = [])
  (finish : next.finish.isSome = (state.finish.isSome || claudeFinishes item)) (calls : next.calls = state.calls) :
  ClaudeRead state item next chunks := by
  refine ⟨⟨?_, ?_, fun chunk mem => (silent chunk mem).2.2⟩, fun _ => claudeSaid_other noDelta, finish, ?_⟩
  · rw [claudeSaid_other noDelta]
    exact flatMap_eq_nil_iff.mpr (fun chunk mem => (silent chunk mem).1)
  · rw [claudeSaid_other noDelta]
    exact flatMap_eq_nil_iff.mpr (fun chunk mem => (silent chunk mem).2.1)
  · intro _ holds
    rw [calls]
    refine holds.untouched ?_
    rintro ⟨index, starts | fills⟩
    · exact starts (startIn_other noStart index)
    · exact fills (inputFor_other noDelta index)

theorem silent_count (prompt completion : Option ℕ) : ∀ chunk ∈ [Chunk.part [] [] prompt completion],
    chunk.content = [] /\ chunk.thinking = [] /\ chunk.done = false /\ chunk.toolCalls = [] := by
  intro _ mem
  rw [mem_singleton.mp mem]
  exact ⟨rfl, rfl, rfl, rfl⟩

theorem messageStart_read (kind : (item.get "type").isText "message_start")
  (stepped : state.messageStart item = .ok (next, chunks)) : ClaudeRead state item next chunks := by
  have finish : (state.finish.isSome || claudeFinishes item) = state.finish.isSome := by
    rw [claudeFinishes_other (isText_other _ kind (by decide)), Bool.or_false]
  have noStart := isText_other "content_block_start" kind (by decide)
  have noDelta := isText_other "content_block_delta" kind (by decide)
  unfold ClaudeState.messageStart at stepped
  dsimp only at stepped
  split at stepped
  · rcases except_bind_ok stepped with ⟨_, _, stepped⟩
    rcases except_bind_ok stepped with ⟨_, _, stepped⟩
    split at stepped
    · cases stepped
    · cases stepped
      exact claudeRead_silent noStart noDelta (silent_count _ _) finish.symm rfl
  · cases stepped

theorem stopReason_finishes {reason : Option Finish} (kind : (item.get "type").isText "message_delta")
  (isReason : stopReason item = .ok reason) : reason.isSome = claudeFinishes item := by
  unfold claudeFinishes
  rw [kind, Bool.true_and]
  unfold stopReason at isReason
  split at isReason
  · rename_i nothing
    cases isReason
    rw [nothing]
    rfl
  · rename_i text isText
    cases isReason
    rw [isText]
    rfl
  · cases isReason

theorem messageDelta_read (kind : (item.get "type").isText "message_delta")
  (stepped : state.messageDelta item = .ok (next, chunks)) : ClaudeRead state item next chunks := by
  have noStart := isText_other "content_block_start" kind (by decide)
  have noDelta := isText_other "content_block_delta" kind (by decide)
  rcases except_bind_ok stepped with ⟨reason, isReason, stepped⟩
  have finish : (reason.or state.finish).isSome = (state.finish.isSome || claudeFinishes item) := by
    rw [isSome_or, stopReason_finishes kind isReason, Bool.or_comm]
  dsimp only at stepped
  split at stepped
  · rcases except_bind_ok stepped with ⟨_, _, stepped⟩
    rcases except_bind_ok stepped with ⟨_, _, stepped⟩
    cases stepped
    exact claudeRead_silent noStart noDelta (silent_count _ _) finish rfl
  · cases stepped
    exact claudeRead_silent noStart noDelta (forall_mem_nil _) finish rfl

theorem startedCall_empty {index : ℕ} {call : ClaudeCall} (started : startedCall item = .ok (some (index, call))) :
  call.arguments = [] := by
  unfold startedCall at started
  dsimp only at started
  split at started
  · rcases except_bind_ok started with ⟨_, _, started⟩
    split at started
    · cases started
      rfl
    · cases started
  · cases started

theorem blockStart_read (kind : (item.get "type").isText "content_block_start")
  (stepped : state.blockStart item = .ok (next, chunks)) : ClaudeRead state item next chunks := by
  have noDelta := isText_other "content_block_delta" kind (by decide)
  have noFinish := isText_other "message_delta" kind (by decide)
  rcases except_bind_ok stepped with ⟨started, isStarted, stepped⟩
  cases stepped
  refine ⟨?_, fun _ => claudeSaid_other noDelta, ?_, fun items holds => ?_⟩
  · unfold Says
    rw [claudeSaid_other noDelta]
    exact ⟨rfl, rfl, forall_mem_nil _⟩
  · rw [claudeFinishes_other noFinish, Bool.or_false]
  · have startIn_eq (index : ℕ) : startIn index item =
        started.bind (fun call => if call.1 = index then some (call.2.name, call.2.input) else none) := by
      unfold startIn
      rw [if_pos kind, isStarted]
      cases started with
      | none | some call => rfl
    cases started with
    | none =>
      refine holds.untouched ?_
      rintro ⟨index, starts | fills⟩
      · exact starts (startIn_eq index)
      · exact fills (inputFor_other noDelta index)
    | some pair =>
      rcases pair with ⟨place, _⟩
      intro index
      rw [get?_put, claudeCallAt_append, startIn_eq, bind_some, inputFor_other noDelta index, holds index]
      by_cases same : place = index
      · rw [if_pos same, if_pos same, map_some, some_or, <- startedCall_empty isStarted]
      · rw [if_neg same, if_neg same, map_none, none_or]
        cases claudeCallAt index items with
        | none => rfl
        | some stored => rw [map_some, append_nil]

section

variable (kind : (item.get "type").isText "content_block_delta")
include kind

theorem addInput_holds {calls : List (ℕ × ClaudeCall)}
  (added : state.addInput item (item.get "delta") = .ok calls) (holds : HoldsItems items state.calls) :
  HoldsItems (items ++ [item]) calls := by
  have noStart (index : ℕ) : startIn index item = none := startIn_other (isText_other _ kind (by decide)) index
  unfold ClaudeState.addInput at added
  split at added
  · rename_i isInput
    rcases except_bind_ok added with ⟨key, isKey, added⟩
    have inputFor_eq (index : ℕ) : inputFor index item =
        if key = some index then (partialJson (item.get "delta")).getD [] else [] := by
      have found : (callKey (item.get "index")).toOption.join = key := by
        rw [isKey]
        rfl
      unfold inputFor
      rw [kind, isInput, found, Bool.true_and, Bool.true_and]
      by_cases same : key = some index
      · rw [if_pos (decide_eq_true same), if_pos same]
      · rw [if_neg (by rw [decide_eq_true_eq]; exact same), if_neg same]
    split at added
    · rename_i place call fragment isCall isFragment
      rcases bind_eq_some_iff.mp isCall with ⟨_, isPlace, isStored⟩
      rcases map_eq_some_iff.mp isStored with ⟨_, isFound, same⟩
      cases same
      split at added
      · cases added
      · cases added
        intro index
        rw [get?_put, claudeCallAt_append, noStart, inputFor_eq, isFragment, isPlace, map_none,
          none_or, <- holds index]
        by_cases same : place = index
        · subst same
          rw [if_pos rfl, if_pos rfl, isFound]
          rfl
        · rw [if_neg same, if_neg fun equal => same (some.inj equal)]
          cases get? index state.calls with
          | none => rfl
          | some other => rw [map_some, append_nil]
    · cases added
  · rename_i notInput
    cases added
    refine holds.untouched ?_
    rintro ⟨index, starts | fills⟩
    · exact starts (noStart index)
    · refine fills ?_
      unfold inputFor
      rw [eq_false_of_ne_true notInput, Bool.and_false, Bool.false_and]
      rfl

theorem blockDelta_read (stepped : state.blockDelta item = .ok (next, chunks)) : ClaudeRead state item next chunks := by
  have noFinish := isText_other "message_delta" kind (by decide)
  unfold ClaudeState.blockDelta at stepped
  split at stepped
  · cases stepped
  · rename_i unfinished
    dsimp only at stepped
    split at stepped
    · rcases except_bind_ok stepped with ⟨text, isText, stepped⟩
      rcases except_bind_ok stepped with ⟨thinking, isThinking, stepped⟩
      rcases except_bind_ok stepped with ⟨_, isAdded, stepped⟩
      cases stepped
      have said : claudeSaid item = (text, thinking) := by
        unfold claudeSaid
        rw [if_pos kind, isText, isThinking]
        rfl
      refine ⟨?_, fun isFinished => absurd isFinished unfinished, ?_, fun items holds => addInput_holds kind isAdded holds⟩
      · unfold Says
        rw [said]
        split
        · refine ⟨flatMap_singleton _ _, flatMap_singleton _ _, ?_⟩
          intro _ mem
          rw [mem_singleton.mp mem]
          exact ⟨rfl, rfl⟩
        · rename_i silent
          rw [not_or, not_not, not_not] at silent
          exact ⟨silent.1.symm, silent.2.symm, forall_mem_nil _⟩
      · rw [claudeFinishes_other noFinish, Bool.or_false]
    · cases stepped

end

theorem claudeStep_read (stepped : claudeStep state item = .ok (next, chunks)) : ClaudeRead state item next chunks := by
  unfold claudeStep at stepped
  dsimp only at stepped
  split at stepped
  · cases stepped
  · split at stepped
    · rename_i kind
      exact messageStart_read kind stepped
    · split at stepped
      · rename_i kind
        exact blockStart_read kind stepped
      · split at stepped
        · rename_i kind
          exact blockDelta_read kind stepped
        · split at stepped
          · rename_i kind
            exact messageDelta_read kind stepped
          · rename_i noStart noDelta noFinish
            cases stepped
            refine claudeRead_silent (eq_false_of_ne_true noStart) (eq_false_of_ne_true noDelta) (forall_mem_nil _) ?_ rfl
            rw [claudeFinishes_other (eq_false_of_ne_true noFinish), Bool.or_false]

def beforeStop (items : List Json) : List Json := items.takeWhile (fun item => !(item.get "type").isText "message_stop")

theorem claudeSteps_facts {final : ClaudeState} (ran : claudeSteps state events = .ok (final, steps)) :
  steps.map fst = beforeStop (readItems events) /\ Reading claudeSaid claudeFinishes state.finish.isSome steps /\
    final.finish.isSome = (state.finish.isSome || steps.any (claudeFinishes ·.1)) /\
    ∀ items, HoldsItems items state.calls -> HoldsItems (items ++ steps.map fst) final.calls := by
  induction events generalizing state steps with
  | nil => cases ran
  | cons event later ih =>
    cases event with
    | done | failed message => cases ran
    | item item =>
      unfold claudeSteps at ran
      unfold beforeStop readItems
      split at ran
      · rename_i isStop
        cases ran
        refine ⟨?_, reading_nil _ _ _, (Bool.or_false _).symm, fun items holds => ?_⟩
        · rw [takeWhile_cons_of_neg (by rw [isStop]; exact Bool.false_ne_true)]
          rfl
        · rw [map_nil, append_nil]
          exact holds
      · rename_i notStop
        rcases except_bind_ok ran with ⟨⟨_, _⟩, stepped, ran⟩
        rcases except_bind_ok ran with ⟨⟨_, _⟩, rest, ran⟩
        cases ran
        have read := claudeStep_read stepped
        rcases ih rest with ⟨items, reading, finishedLater, holdsLater⟩
        rw [read.finish] at reading finishedLater
        refine ⟨?_, reading.cons read.spoken read.quiet, ?_, fun before holds => ?_⟩
        · rw [takeWhile_cons_of_pos (by rw [eq_false_of_ne_true notStop]; rfl), map_cons, items]
          rfl
        · rw [finishedLater, any_cons, Bool.or_assoc]
        · rw [map_cons, append_cons]
          exact holdsLater _ (read.calls before holds)

def openaiCalls (library : JsonLibrary) (items : List Json) : List ToolCall :=
  (range maxCalls).filterMap (fun index => (callAt index (items.flatMap fragmentsIn)).bind (toolCall library))

def claudeCalls (library : JsonLibrary) (items : List Json) : List ToolCall :=
  (range maxCalls).filterMap
    (fun index => (claudeCallAt index items).bind fun call => toolCall library (call.collected library))

theorem get?_mapped (library : JsonLibrary) (index : ℕ) (calls : List (ℕ × ClaudeCall)) :
  get? index (calls.map fun entry => (entry.1, entry.2.collected library)) =
    (get? index calls).map (ClaudeCall.collected library) := by
  induction calls with
  | nil => rfl
  | cons entry rest ih =>
    rw [map_cons]
    unfold get?
    by_cases same : entry.1 = index
    · rw [if_pos same, if_pos same]
      rfl
    · rw [if_neg same, if_neg same]
      exact ih

variable {library : JsonLibrary}

theorem openai_parsed (result : openai library events = .ok chunks) : ∃ final : OpenaiState, ∃ steps,
    openaiSteps .start events = .ok (final, steps) /\ steps.map fst = readItems events /\
      Parsed openaiSaid openaiFinishes (openaiCalls library (readItems events)) steps chunks := by
  rcases except_bind_ok result with ⟨⟨final, steps⟩, ran, result⟩
  rcases openaiSteps_facts ran with ⟨items, reading, finished, holds⟩
  refine ⟨final, steps, ran, items, ?_⟩
  dsimp only at result
  split at result
  · cases result
  · rename_i finish isFinish
    cases result
    have isCalls : toolCalls library final.calls = openaiCalls library (readItems events) := by
      rw [<- items]
      refine filterMap_congr (fun index _ => ?_)
      rw [holds [] (fun _ => rfl) index, nil_append]
    rw [isCalls]
    refine reading.parsed ?_ _ _ _ _ _
    rw [isFinish] at finished
    exact finished.symm

theorem claude_parsed (result : claude library events = .ok chunks) : ∃ final : ClaudeState, ∃ steps,
    claudeSteps .start events = .ok (final, steps) /\ steps.map fst = beforeStop (readItems events) /\
      Parsed claudeSaid claudeFinishes (claudeCalls library (beforeStop (readItems events))) steps chunks := by
  rcases except_bind_ok result with ⟨⟨final, steps⟩, ran, result⟩
  rcases claudeSteps_facts ran with ⟨items, reading, finished, holds⟩
  refine ⟨final, steps, ran, items, ?_⟩
  dsimp only at result
  split at result
  · rename_i finish _ _ isFinish _
    cases result
    have isCalls : toolCalls library (final.calls.map fun entry => (entry.1, entry.2.collected library)) =
        claudeCalls library (beforeStop (readItems events)) := by
      rw [<- items]
      refine filterMap_congr (fun index _ => ?_)
      rw [get?_mapped, holds [] (fun _ => rfl) index, nil_append, bind_map]
      rfl
    rw [isCalls]
    refine reading.parsed ?_ _ _ _ _ _
    rw [isFinish] at finished
    exact finished.symm
  · cases result

/-- A stream that is read without an exception. Its texts and its thinking are those of the items in order. -/
theorem streams_parsed (library : JsonLibrary) (events : List Event) (chunks : List Chunk) :
  (openai library events = .ok chunks ->
    ∃ final : OpenaiState, ∃ steps,
      openaiSteps .start events = .ok (final, steps) /\ steps.map Prod.fst = readItems events /\
        Parsed openaiSaid openaiFinishes (openaiCalls library (readItems events)) steps chunks) /\
  (claude library events = .ok chunks ->
    ∃ final : ClaudeState, ∃ steps,
      claudeSteps .start events = .ok (final, steps) /\ steps.map Prod.fst = beforeStop (readItems events) /\
        Parsed claudeSaid claudeFinishes (claudeCalls library (beforeStop (readItems events))) steps chunks) :=
  ⟨openai_parsed, claude_parsed⟩

def knownLibrary : JsonLibrary where
  loads text := if text = Text.ofString "[1]" then some (.array [.int 1]) else none
  loadBytes _ := none
  dumps _ := []

def literal (text : String) : Json := .text (Text.ofString text)

def completionItem (delta : List (String × Json)) (finish : Json) : Json :=
  .object [("choices", .array [.object [("delta", .object delta), ("finish_reason", finish)]])]

def callFragment (name arguments : String) : Json :=
  .object [("index", .int 0), ("function", .object [("name", literal name), ("arguments", literal arguments)])]

def usageItem : Json := .object [("usage", .object [("prompt_tokens", .int 5), ("completion_tokens", .int 7)])]

def completionEvents : List Event :=
  [.item (completionItem [("content", literal "On it.")] .null),
    .item (completionItem [("tool_calls", .array [callFragment "search" "[1"])] .null),
    .item (completionItem [("tool_calls", .array [callFragment "" "]"])] (literal "tool_calls")), .item usageItem, .done]

def blockItem (kind : String) (fields : List (String × Json)) : Json :=
  .object ([("type", literal kind), ("index", .int 1)] ++ fields)

def claudeEvents : List Event :=
  [.item (.object [("type", literal "message_start"),
      ("message", .object [("usage", .object [("input_tokens", .int 5)])])]),
    .item (blockItem "content_block_start"
      [("content_block", .object [("type", literal "tool_use"), ("id", literal "call_1"), ("name", literal "search")])]),
    .item (blockItem "content_block_delta"
      [("delta", .object [("type", literal "input_json_delta"), ("partial_json", literal "[1")])]),
    .item (blockItem "content_block_delta"
      [("delta", .object [("type", literal "input_json_delta"), ("partial_json", literal "]")])]),
    .item (.object [("type", literal "message_delta"), ("delta", .object [("stop_reason", literal "tool_use")]),
      ("usage", .object [("output_tokens", .int 7)])]),
    .item (.object [("type", literal "message_stop")])]

def searchCall : ToolCall := ⟨Text.ofString "search", literal "[1]", none⟩

theorem streams_parsed_search : (∃ final : OpenaiState, ∃ steps,
    openaiSteps .start completionEvents = .ok (final, steps) /\ steps.map Prod.fst = readItems completionEvents /\
      Parsed openaiSaid openaiFinishes (openaiCalls knownLibrary (readItems completionEvents)) steps
        [.part (Text.ofString "On it.") [] none none, .part [] [] (some 5) (some 7),
          .last .stop (some 5) (some 7) [searchCall] none]) /\
  (∃ final : ClaudeState, ∃ steps,
    claudeSteps .start claudeEvents = .ok (final, steps) /\ steps.map Prod.fst = beforeStop (readItems claudeEvents) /\
      Parsed claudeSaid claudeFinishes (claudeCalls knownLibrary (beforeStop (readItems claudeEvents))) steps
        [.part [] [] (some 5) none, .part [] [] (some 5) (some 7), .last .stop (some 5) (some 7) [searchCall] none]) :=
  ⟨(streams_parsed knownLibrary completionEvents _).1 rfl, (streams_parsed knownLibrary claudeEvents _).2 rfl⟩

/-- A chunk with the usage is yielded behind the finish. -/
theorem usage_follows_finish :
  ¬ ∀ (library : JsonLibrary) (events : List Event) (chunks : List Chunk) (final : OpenaiState)
      (steps : List (Json × List Chunk)), openai library events = .ok chunks -> openaiSteps .start events = .ok (final, steps) ->
    ∀ first second, steps = first ++ second -> (∃ step ∈ first, openaiFinishes step.1) ->
      second.flatMap Prod.snd = [] := by
  intro quiet
  let finishing := completionItem [] (literal "stop")
  have nothing := quiet knownLibrary [.item finishing, .item usageItem, .done] _ _ _ rfl rfl [(finishing, [])]
    [(usageItem, [.part [] [] (some 5) (some 7)])] rfl ⟨_, mem_singleton.mpr rfl, rfl⟩
  cases nothing

abbrev dataLine (ending part : List UInt8) : List UInt8 := dataField ++ 0x20 :: part ++ ending

/-- An event as a provider may write it: each part in a line, and an empty line. -/
def eventLines (ending : List UInt8) (parts : List (List UInt8)) : List (List UInt8) := parts.map (dataLine ending) ++ [ending]

/-- The lines by `readline(limit)`, where `line` is read so far. -/
def readLines (limit : ℕ) : List UInt8 -> List UInt8 -> List (List UInt8)
  | line, [] => if line = [] then [] else [line]
  | line, byte :: later =>
    if byte = 0x0A \/ line.length + 1 = limit then (line ++ [byte]) :: readLines limit [] later else readLines limit (line ++ [byte]) later

abbrev EndsLine (byte : UInt8) : Prop := byte = 0x0D \/ byte = 0x0A

def PlainLine (part : List UInt8) : Prop := part.head? ≠ some 0x20 /\ ∀ byte ∈ part, ¬ EndsLine byte

def Written (library : JsonLibrary) (ending : List UInt8) (parts : List (List UInt8)) : Prop :=
  parts ≠ [] /\ (∀ part ∈ parts, PlainLine part /\ (dataLine ending part).length <= maxRecord) /\ (parts.map length).sum <= maxRecord /\
    ∀ message, eventOf library (joinParts parts) ≠ .failed message

def WholeLine (limit : ℕ) (line : List UInt8) : Prop := ∃ body, line = body ++ [0x0A] /\ 0x0A ∉ body /\ line.length <= limit

theorem readLines_line {limit : ℕ} (body read later : List UInt8) (inside : 0x0A ∉ body) (small : read.length + body.length + 1 <= limit) :
  readLines limit read (body ++ 0x0A :: later) = (read ++ body ++ [0x0A]) :: readLines limit [] later := by
  induction body generalizing read with
  | nil =>
    rw [nil_append, readLines, if_pos (Or.inl rfl), append_nil]
  | cons byte rest ih =>
    rw [mem_cons, not_or] at inside
    rw [length_cons] at small
    have short : ¬ (byte = 0x0A \/ read.length + 1 = limit) := fun ends => ends.elim (Ne.symm inside.1) (by omega)
    rw [cons_append, readLines, if_neg short, ih _ inside.2 (by rw [length_append, length_singleton]; omega), append_assoc read,
      singleton_append]

theorem readLines_flatten {limit : ℕ} {lines : List (List UInt8)} (whole : ∀ line ∈ lines, WholeLine limit line) :
  readLines limit [] lines.flatten = lines := by
  induction lines with
  | nil => rfl
  | cons line rest ih =>
    rw [forall_mem_cons] at whole
    rcases whole.1 with ⟨body, rfl, inside, small⟩
    rw [length_append, length_singleton] at small
    rw [flatten_cons, append_assoc, singleton_append, readLines_line body [] _ inside (by rwa [length_nil, Nat.zero_add]), ih whole.2,
      nil_append]

theorem line_plain {part : List UInt8} (plain : PlainLine part) : ∀ byte ∈ dataField ++ 0x20 :: part, ¬ EndsLine byte := by
  intro byte mem
  have field : ∀ byte ∈ dataField ++ [0x20], ¬ EndsLine byte := by decide +kernel
  rw [<- singleton_append, <- append_assoc] at mem
  exact (mem_append.mp mem).elim (field byte) (plain.2 byte)

section Lines

variable (library : JsonLibrary) {ending : List UInt8} (ends : ending = [0x0A] \/ ending = [0x0D, 0x0A])
include ends

theorem stripLine_ending {line : List UInt8} (plain : ∀ byte ∈ line, ¬ EndsLine byte) : stripLine (line ++ ending) = line := by
  have kept : line.reverse.dropWhile (fun byte => decide (EndsLine byte)) = line.reverse := by
    refine dropWhile_eq_self_iff.mpr fun isLong ends => ?_
    exact plain _ (mem_reverse.mp (getElem_mem isLong)) (of_decide_eq_true ends)
  have all : ∀ byte ∈ ending, EndsLine byte := by rcases ends with rfl | rfl <;> decide +kernel
  unfold stripLine
  rw [reverse_append, dropWhile_append_of_pos fun byte mem => decide_eq_true (all byte (mem_reverse.mp mem))]
  exact (congrArg reverse kept).trans (reverse_reverse line)

theorem whole_line {limit : ℕ} {line : List UInt8} (plain : ∀ byte ∈ line, ¬ EndsLine byte) (small : (line ++ ending).length <= limit) :
  WholeLine limit (line ++ ending) := by
  rcases ends with rfl | rfl
  · exact ⟨line, rfl, fun mem => plain _ mem (Or.inr rfl), small⟩
  · refine ⟨line ++ [0x0D], (append_assoc line [0x0D] [0x0A]).symm, fun mem => ?_, small⟩
    exact (mem_append.mp mem).elim (fun mem => plain _ mem (Or.inr rfl)) (by decide)

theorem sse_parts {parts : List (List UInt8)} (plain : ∀ part ∈ parts, PlainLine part) (earlier : List (List UInt8)) {size : ℕ}
  (small : size + (parts.map length).sum <= maxRecord) (later : List (List UInt8)) :
  sse library earlier size (parts.map (dataLine ending) ++ later) =
    sse library (earlier ++ parts) (size + (parts.map length).sum) later := by
  induction parts generalizing earlier size with
  | nil =>
    rw [append_nil]
    rfl
  | cons part rest ih =>
    rw [forall_mem_cons] at plain
    rw [map_cons, sum_cons, <- Nat.add_assoc] at small
    have body : ((dataField ++ 0x20 :: part).drop 5).dropWhile (· = 0x20) = part := by
      change (0x20 :: part).dropWhile (· = 0x20) = part
      rw [dropWhile_cons_of_pos (by rfl)]
      cases part with
      | nil => rfl
      | cons byte more => exact dropWhile_cons_of_neg fun isSpace => plain.1.1 (congrArg some (of_decide_eq_true isSpace))
    have fits : ¬ maxRecord < size + part.length := by omega
    rw [map_cons, cons_append, sse]
    dsimp only
    rw [stripLine_ending ends (line_plain plain.1), if_neg (show dataField ++ 0x20 :: part ≠ [] from cons_ne_nil _ _),
      if_pos (show dataField.isPrefixOf (dataField ++ 0x20 :: part) from rfl), body, if_neg fits, ih plain.2 _ small, append_assoc, map_cons, sum_cons,
      Nat.add_assoc]
    rfl

theorem sse_events {events : List (List (List UInt8))} (written : ∀ parts ∈ events, Written library ending parts) :
  sse library [] 0 (events.flatMap (eventLines ending)) = events.map fun parts => eventOf library (joinParts parts) := by
  induction events with
  | nil => rfl
  | cons parts rest ih =>
    rw [forall_mem_cons] at written
    rcases written.1 with ⟨given, plain, small, _⟩
    have blank : stripLine ending = [] := stripLine_ending ends (forall_mem_nil _)
    rw [<- Nat.zero_add (sum _)] at small
    rw [flatMap_cons, eventLines, append_assoc, sse_parts library ends (fun part mem => (plain part mem).1) [] small, singleton_append, sse]
    dsimp only
    rw [blank, if_pos rfl, nil_append, if_pos given, ih written.2]
    rfl

/-- What is written as events is read as these events, with either end of a line. -/
theorem events_read {events : List (List (List UInt8))} (written : ∀ parts ∈ events, Written library ending parts) :
  sse library [] 0 (readLines maxRecord [] (events.flatMap (eventLines ending)).flatten) =
    events.map fun parts => eventOf library (joinParts parts) := by
  rw [readLines_flatten, sse_events library ends written]
  intro line mem
  rcases mem_flatMap.mp mem with ⟨parts, inside, mem⟩
  rcases mem_append.mp mem with mem | mem
  · rcases mem_map.mp mem with ⟨part, isPart, rfl⟩
    rcases (written parts inside).2.1 part isPart with ⟨plain, small⟩
    exact whole_line ends (line_plain plain) small
  · rw [mem_singleton.mp mem]
    exact @whole_line _ ends _ [] (forall_mem_nil _) (by rcases ends with rfl | rfl <;> decide)

end Lines

theorem events_read_done : sse knownLibrary [] 0 (readLines maxRecord [] ([[doneMarker]].flatMap (eventLines [0x0D, 0x0A])).flatten) = [.done] :=
  @events_read knownLibrary [0x0D, 0x0A] (Or.inr rfl) [[doneMarker]] (by
    intro parts mem
    rw [mem_singleton.mp mem]
    refine ⟨cons_ne_nil _ _, fun part isPart => ?_, by decide +kernel, nofun⟩
    rw [mem_singleton.mp isPart]
    exact ⟨⟨by decide +kernel, by decide +kernel⟩, by decide +kernel⟩)

end BananaChat.Providers

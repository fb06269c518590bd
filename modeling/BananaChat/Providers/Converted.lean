import BananaChat.Foundation.Rounds
import BananaChat.Providers.ChatRequest

namespace BananaChat.Providers

open Foundation List Bool Nat Block Item

/-!
# Converted histories are well formed

A converted conversation is read as the events of `Foundation.Rounds`: each item is a turn with the
identifiers of its calls, or the results it carries.
-/

variable {Json : Type}

def Block.resultId : Block Json -> Option String
  | .toolResult id _ => some id
  | _ => none

def Block.text : Block Json -> Option Text
  | .part (.text value) => some value
  | _ => none

section

variable (item : Item Json)

def Item.calls : List String :=
  item.toolCalls.map FunctionCall.id ++ (item.content.blockList.filterMap Block.call).map Prod.snd

def Item.results : List String := item.toolCallId.toList ++ item.content.blockList.filterMap Block.resultId

def Item.isAnswer : Bool := (item.role = .tool) || item.onlyResults

def Item.events : List (Event String) :=
  item.results.map .result ++ (if item.isAnswer then [] else [.turn item.calls])

end

def events (items : List (Item Json)) : List (Event String) := items.flatMap Item.events

def Body.texts : Body Json -> List Text
  | .text value => [value]
  | .blocks list => list.filterMap Block.text

def spokenTexts (role : Role) (texts : List Text) : List (Role × Text) :=
  if role = .user \/ role = .assistant then (texts.filter (· ≠ [])).map (fun text => (role, text))
  else []

def Item.spoken (item : Item Json) : List (Role × Text) := spokenTexts item.role item.content.texts

def Message.spoken (protocol : Protocol) (message : Message Json) : List (Role × Text) :=
  match message.role, message.content with
  | some role, some text =>
    match message.replayed protocol with
    | some (_, blocks) => spokenTexts role (blocks.filterMap Block.text)
    | none => spokenTexts role [text]
  | _, _ => []

theorem events_append (first second : List (Item Json)) : events (first ++ second) = events first ++ events second :=
  flatMap_append

theorem events_singleton (item : Item Json) : events [item] = item.events := flatMap_singleton _ _

theorem events_of_onlyResults {item : Item Json} (only : item.onlyResults) :
  item.events = item.results.map .result := by
  unfold Item.events Item.isAnswer
  rw [only, Bool.or_true, if_pos rfl, append_nil]

section

variable (protocol : Protocol) (items : List (Item Json)) (id : String) (content : Content)
include protocol items id content

theorem answer_events : events (answer protocol items id content) = events items ++ [.result id] := by
  have noResults : (Body.ofContent content : Body Json).blockList.filterMap resultId = [] := by
    cases content with
    | text value => rfl
    | parts list =>
      change (list.map part).filterMap resultId = []
      rw [filterMap_map]
      exact filterMap_eq_nil_iff.mpr (fun part _ => rfl)
  have fresh : events (items ++ [(⟨.user, .blocks [.toolResult id content], [], none⟩ : Item Json)]) =
      events items ++ [.result id] := by
    rw [events_append, events_singleton]
    rfl
  unfold answer
  cases protocol with
  | openai =>
    rw [events_append, events_singleton]
    congr 1
    unfold Item.events Item.results
    rw [noResults]
    rfl
  | anthropic =>
    cases last : items.getLast? with
    | none => exact fresh
    | some previous =>
      dsimp only
      by_cases only : previous.onlyResults
      · rw [if_pos only]
        have whole : items.dropLast ++ [previous] = items := dropLast_append_getLast? previous last
        conv_rhs => rw [<- whole]
        rw [events_append, events_append, events_singleton, events_singleton, append_assoc]
        congr 1
        have stillOnly : ({ previous with
            content := .blocks (previous.content.blockList ++ [.toolResult id content]) } : Item Json).onlyResults := by
          unfold Item.onlyResults at only ⊢
          simp only [and_eq_true, Body.blockList, all_append] at only ⊢
          refine ⟨⟨only.1.1, ?_⟩, only.2, rfl⟩
          simp
        rw [events_of_onlyResults only, events_of_onlyResults stillOnly]
        unfold Item.results
        simp only [Body.blockList, filterMap_append, map_append, append_assoc]
        rfl
      · rw [if_neg only]
        exact fresh

theorem answer_spoken : (answer protocol items id content).flatMap spoken = items.flatMap spoken := by
  have fresh : (items ++ [(⟨.user, .blocks [.toolResult id content], [], none⟩ : Item Json)]).flatMap spoken =
      items.flatMap spoken := by
    rw [flatMap_append, flatMap_singleton]
    exact append_nil _
  unfold answer
  cases protocol with
  | openai =>
    rw [flatMap_append, flatMap_singleton]
    exact append_nil _
  | anthropic =>
    cases last : items.getLast? with
    | none => exact fresh
    | some previous =>
      dsimp only
      by_cases only : previous.onlyResults
      · rw [if_pos only]
        have whole : items.dropLast ++ [previous] = items := dropLast_append_getLast? previous last
        conv_rhs => rw [<- whole]
        rw [flatMap_append, flatMap_append, flatMap_singleton, flatMap_singleton]
        congr 1
        rcases previous with ⟨_, body, _, _⟩
        unfold spoken
        cases body with
        | text value =>
          unfold onlyResults at only
          simp [Body.blockList] at only
        | blocks list =>
          simp only [Body.texts, Body.blockList, filterMap_append]
          congr 1
          exact append_nil _
      · rw [if_neg only]
        exact fresh

end

/-- Everything but the pending calls is answered, and what was said so far is kept. -/
structure Converting (protocol : Protocol) (past : List (Message Json)) (state : Conversion Json) : Prop where
  unsettled : Unsettled (state.pending.map Prod.snd) (events state.items)
  spoken : state.items.flatMap Item.spoken = past.flatMap (Message.spoken protocol)

section

variable (protocol : Protocol) (content : Content) (pending : List (Name × String)) (items : List (Item Json))
include protocol content pending items

theorem answerAll_unsettled (unsettled : Unsettled (pending.map Prod.snd) (events items)) :
  Unsettled [] (events (pending.foldl (fun items call => answer protocol items call.2 content) items)) := by
  induction pending generalizing items with
  | nil => exact unsettled
  | cons call rest ih =>
    apply ih
    have answered := unsettled.result (mem_cons_self : call.2 ∈ (call :: rest).map Prod.snd)
    rw [map_cons, erase_cons_head] at answered
    rw [answer_events]
    exact answered

theorem answerAll_spoken :
  (pending.foldl (fun items call => answer protocol items call.2 content) items).flatMap spoken =
    items.flatMap spoken := by
  induction pending generalizing items with
  | nil => rfl
  | cons call rest ih =>
    rw [foldl_cons, ih, answer_spoken]

end

variable {past : List (Message Json)} {state : Conversion Json}

theorem Converting.answerPending {protocol : Protocol}
  (converting : Converting protocol past state) : Converting protocol past (state.answerPending protocol) where
  unsettled := answerAll_unsettled protocol _ _ _ converting.unsettled
  spoken := (answerAll_spoken protocol _ _ _).trans converting.spoken

theorem map_erase_pending {pending : List (Name × String)} (distinct : (pending.map Prod.snd).Nodup) {found : Name × String}
  (mem : found ∈ pending) : (pending.erase found).map Prod.snd = (pending.map Prod.snd).erase found.2 := by
  induction pending with
  | nil => cases mem
  | cons call rest ih =>
    rw [map_cons, nodup_cons] at distinct
    by_cases same : call = found
    · rw [same, erase_cons_head, map_cons, erase_cons_head]
    · have later : found ∈ rest := by
        rcases mem_cons.mp mem with isCall | isLater
        · exact absurd isCall.symm same
        · exact isLater
      have otherId : call.2 ≠ found.2 := by
        intro sameId
        exact distinct.1 (sameId ▸ mem_map_of_mem later)
      rw [erase_cons_tail (by simpa using same), map_cons, map_cons,
        erase_cons_tail (by simpa using otherId), ih distinct.2 later]

theorem Converting.addResult {protocol : Protocol}
  (converting : Converting protocol past state) (name : Name) (content : Content) :
  Converting protocol past (state.addResult protocol name content) := by
  unfold Conversion.addResult
  split
  · rename_i found isFound
    have mem := mem_of_find?_eq_some isFound
    refine ⟨?_, (answer_spoken protocol _ _ _).trans converting.spoken⟩
    rw [answer_events, map_erase_pending converting.unsettled.nodup mem]
    exact converting.unsettled.result (mem_map_of_mem mem)
  · exact converting

theorem callId_injective (index : ℕ) {first second : ℕ} (same : callId index first = callId index second) :
  first = second := by
  have digits : toString first = toString second := (String.append_right_inj _).mp same
  have lists : toDigits 10 first = toDigits 10 second := by
    have both := congrArg String.toList digits
    rwa [toString_eq_repr, toString_eq_repr, toList_repr, toList_repr] at both
  rw [<- @Nat.ofDigitChars_ten_toDigits first, lists, ofDigitChars_ten_toDigits]

variable {index : ℕ} {named : List (String × Name × Call Json)} {protocol : Protocol} {library : Library Json}
  {message : Message Json}

theorem nameCalls_ids {position : ℕ} {calls : List (Call Json)} (isNamed : nameCalls index position calls = .ok named) :
  named.map Prod.fst = (range' position calls.length).map (callId index) := by
  induction calls generalizing position named with
  | nil =>
    cases isNamed
    rfl
  | cons call rest ih =>
    unfold nameCalls at isNamed
    split at isNamed
    · rename_i name later hasName restNamed
      cases isNamed
      rw [map_cons, ih restNamed, length_cons, range'_succ, map_cons]
    · cases isNamed
    · cases isNamed

theorem nameCalls_nodup {position : ℕ} {calls : List (Call Json)} (isNamed : nameCalls index position calls = .ok named) :
  (named.map Prod.fst).Nodup := by
  rw [nameCalls_ids isNamed]
  exact List.Nodup.map (fun _ _ same => callId_injective index same) nodup_range'

def Record.ids (record : Record Json) : List String := (((record.content.getD []).filterMap Block.call).map Prod.snd)

theorem imageParts_texts {images : List Image} {parts : List Part} (converted : imageParts protocol images = .ok parts) :
  (parts.map (Block.part : Part -> Block Json)).filterMap Block.text = [] := by
  induction images generalizing parts with
  | nil =>
    cases converted
    rfl
  | cons image rest ih =>
    unfold imageParts at converted
    split at converted
    · rename_i part later isPart restParts
      cases converted
      have noText : Block.text (Block.part part : Block Json) = none := by
        unfold imagePart at isPart
        split at isPart
        · cases isPart
        · split at isPart
          · cases isPart
            rfl
          · cases isPart
            rfl
      rw [map_cons, filterMap_cons_none noText]
      exact ih restParts
    · cases converted
    · cases converted

theorem spokenTexts_empty (role : Role) : spokenTexts role [[]] = spokenTexts role [] := by
  cases role <;> rfl

theorem contentOf_spoken {text : Text} {images : List Image} {plain : Content}
  (converted : contentOf protocol text images = .ok plain) (role : Role) :
  spokenTexts role (Body.ofContent plain : Body Json).texts = spokenTexts role [text] := by
  unfold contentOf at converted
  split at converted
  · cases converted
    rfl
  · split at converted
    · cases converted
    · rename_i parts isParts
      cases converted
      change spokenTexts role ((map (Block.part : Part -> Block Json) (_ ++ parts)).filterMap Block.text) = _
      rw [map_append, filterMap_append, imageParts_texts isParts, append_nil]
      split
      · rfl
      · rename_i nothing
        have empty : text = [] := by
          by_contra some
          exact nothing (.inl some)
        rw [empty]
        exact (spokenTexts_empty role).symm

theorem ofContent_blocks (content : Content) :
  (Body.ofContent content : Body Json).blockList.filterMap call = [] /\
    (Body.ofContent content : Body Json).blockList.filterMap resultId = [] /\
    ((Body.ofContent content : Body Json).blockList.isEmpty ||
      !(Body.ofContent content : Body Json).blockList.all isToolResult) = true := by
  cases content with
  | text value => exact ⟨rfl, rfl, rfl⟩
  | parts list =>
    change (list.map part).filterMap call = [] /\ (list.map part).filterMap resultId = [] /\ _
    rw [filterMap_map, filterMap_map]
    refine ⟨filterMap_eq_nil_iff.mpr (fun _ _ => rfl), filterMap_eq_nil_iff.mpr (fun _ _ => rfl), ?_⟩
    cases list <;> rfl

structure Turn.Fits (protocol : Protocol) (message : Message Json) (turn : Turn Json) : Prop where
  noResults : turn.item.results = []
  isTurn : turn.item.isAnswer = false
  pending : turn.pending.map Prod.snd = turn.item.calls
  distinct : turn.item.calls.Nodup
  spoken : turn.item.spoken = message.spoken protocol
  empty : protocol = .anthropic -> turn.item.content.isEmpty -> turn.item.calls = [] /\ turn.item.spoken = []

variable {turn : Turn Json}

theorem Turn.Fits.events (fits : turn.Fits protocol message) : turn.item.events = [.turn turn.item.calls] := by
  unfold Item.events
  rw [fits.noResults, fits.isTurn]
  rfl

theorem Converting.addTurn (converting : Converting protocol past state) (settled : state.pending = [])
  (fits : turn.Fits protocol message) : Converting protocol (past ++ [message]) (state.addTurn protocol turn) := by
  have unsettled := converting.unsettled
  rw [settled] at unsettled
  have said : (past ++ [message]).flatMap (Message.spoken protocol) =
      past.flatMap (Message.spoken protocol) ++ turn.item.spoken := by
    rw [flatMap_append, flatMap_singleton, fits.spoken]
  unfold Conversion.addTurn
  split
  · rename_i skipped
    rcases fits.empty skipped.1 skipped.2 with ⟨noCalls, nothingSaid⟩
    refine ⟨?_, ?_⟩
    · rw [fits.pending, noCalls]
      exact unsettled
    · rw [said, nothingSaid, append_nil]
      exact converting.spoken
  · refine ⟨?_, ?_⟩
    · rw [fits.pending, events_append, events_singleton, fits.events]
      exact unsettled.turn fits.distinct
    · rw [said, flatMap_append, flatMap_singleton, converting.spoken]

theorem isTurn_ofContent {role : Role} (notTool : role ≠ .tool) (content : Content) (calls : List FunctionCall) :
  (⟨role, .ofContent content, calls, none⟩ : Item Json).isAnswer = false := by
  have someOther := (@ofContent_blocks Json content).2.2
  unfold isAnswer onlyResults
  rw [decide_eq_false notTool, Bool.false_or]
  cases empty : (Body.ofContent content : Body Json).blockList.isEmpty with
  | true => rw [Bool.not_true, Bool.and_false, Bool.false_and]
  | false =>
    rw [empty, Bool.false_or, Bool.not_eq_true'] at someOther
    rw [someOther, Bool.and_false]

theorem askingTurn_fits {text : Text} {plain : Content} (some : named ≠ []) (distinct : (named.map Prod.fst).Nodup)
  (said : message.spoken protocol = spokenTexts .assistant [text])
  (converted : spokenTexts .assistant (Body.ofContent plain : Body Json).texts = spokenTexts .assistant [text]) :
  (askingTurn library protocol text plain named).Fits protocol message := by
  have pendingIds : (named.map fun entry => (entry.2.1, entry.1)).map Prod.snd = named.map Prod.fst := by
    rw [map_map]
    rfl
  cases protocol with
  | openai =>
    have calls : (askingTurn library .openai text plain named).item.calls = named.map Prod.fst := by
      unfold askingTurn calls
      rw [(ofContent_blocks plain).1, map_nil, append_nil, map_map]
      rfl
    refine ⟨?_, isTurn_ofContent (by decide) plain _, pendingIds.trans calls.symm, calls ▸ distinct, ?_, ?_⟩
    · unfold askingTurn results
      rw [(ofContent_blocks plain).2.1]
      rfl
    · exact converted.trans said.symm
    · intro clash
      cases clash
  | anthropic =>
    let uses := named.map (fun entry =>
      Block.toolUse entry.1 entry.2.1 ((entry.2.2.argumentsOf library).input library))
    let opening : List (Block Json) := if text ≠ [] then [.part (.text text)] else []
    have openingCalls : opening.filterMap Block.call = [] := by
      unfold opening
      split <;> rfl
    have openingResults : opening.filterMap Block.resultId = [] := by
      unfold opening
      split <;> rfl
    have useResults : uses.filterMap Block.resultId = [] := by
      rw [filterMap_map]
      exact filterMap_eq_nil_iff.mpr (fun _ _ => rfl)
    have useTexts : uses.filterMap Block.text = [] := by
      rw [filterMap_map]
      exact filterMap_eq_nil_iff.mpr (fun _ _ => rfl)
    have useCalls : uses.filterMap Block.call = named.map (fun entry => (entry.2.1, entry.1)) := by
      unfold uses
      rw [filterMap_map]
      exact filterMap_eq_map_iff_forall_eq_some.mpr (fun _ _ => rfl)
    have calls : (askingTurn library .anthropic text plain named).item.calls = named.map Prod.fst := by
      change [] ++ ((opening ++ uses).filterMap Block.call).map Prod.snd = _
      rw [filterMap_append, openingCalls, nil_append, nil_append, useCalls, pendingIds]
    refine ⟨?_, rfl, pendingIds.trans calls.symm, calls ▸ distinct, ?_, ?_⟩
    · change [] ++ (opening ++ uses).filterMap Block.resultId = []
      rw [filterMap_append, openingResults, useResults]
      rfl
    · rw [said]
      change spokenTexts .assistant ((opening ++ uses).filterMap Block.text) = _
      rw [filterMap_append, useTexts, append_nil]
      unfold opening
      split
      · rfl
      · rename_i nothing
        rw [not_not.mp nothing]
        exact (spokenTexts_empty _).symm
    · intro _ isEmpty
      have nothing : opening ++ uses = [] := isEmpty_iff.mp isEmpty
      have noUses : uses = [] := (append_eq_nil_iff.mp nothing).2
      exact absurd (map_eq_nil_iff.mp noUses) some

variable {blocks : List (Block Json)}

theorem replayed_facts {record : Record Json} (replayed : message.replayed protocol = some (record, blocks)) :
  message.role = some .assistant /\ message.replay = some record /\ record.content = some blocks /\
    blocks.all isReplayable /\
    (blocks.filterMap call).map Prod.fst = message.toolCalls.map (·.name.join) := by
  unfold Message.replayed at replayed
  split at replayed
  · rename_i isClaude
    split at replayed
    · cases replayed
    · rename_i found isFound
      split at replayed
      · rename_i fits
        rcases Option.map_eq_some_iff.mp replayed with ⟨_, hasContent, same⟩
        cases same
        unfold Record.fits at fits
        rw [hasContent] at fits
        simp only [and_eq_true, decide_eq_true_eq] at fits
        exact ⟨isClaude.2, isFound, hasContent, fits.2.1, fits.2.2⟩
      · cases replayed
  · cases replayed

theorem replayable_noResults (replayable : blocks.all isReplayable) : blocks.filterMap resultId = [] := by
  rw [filterMap_eq_nil_iff]
  intro block mem
  have allowed := all_eq_true.mp replayable block mem
  cases block with
  | toolResult id content => cases allowed
  | part _ | toolUse _ _ _ | thinking _ => rfl

theorem turnOf_fits {role : Role} {text : Text} {plain : Content} (isRole : message.role = some role)
  (isText : message.content = some text) (notTool : role ≠ .tool)
  (converted : contentOf protocol text message.images = .ok plain)
  (distinct : ∀ record, message.replay = some record -> record.ids.Nodup)
  (isTurn : turnOf library protocol index role text plain message = .ok turn) : turn.Fits protocol message := by
  have saysText := @contentOf_spoken Json _ _ _ _ converted role
  unfold turnOf at isTurn
  split at isTurn
  · rename_i record blocks replayed
    cases isTurn
    rcases replayed_facts replayed with ⟨isAssistant, hasRecord, hasContent, replayable, sameNames⟩
    have roleIs : role = .assistant := Option.some.inj (isRole.symm.trans isAssistant)
    subst roleIs
    have said : message.spoken protocol = spokenTexts .assistant (blocks.filterMap Block.text) := by
      unfold Message.spoken
      rw [isRole, isText]
      rw [replayed]
    have ids : record.ids = (blocks.filterMap Block.call).map Prod.snd := by
      unfold Record.ids
      rw [hasContent]
      rfl
    refine ⟨?_, rfl, ?_, ?_, said.symm, ?_⟩
    · change [] ++ blocks.filterMap Block.resultId = []
      rw [replayable_noResults replayable]
      rfl
    · change _ = [] ++ (blocks.filterMap Block.call).map Prod.snd
      rw [nil_append]
      split
      · rfl
      · rename_i noCalls
        rw [not_not.mp noCalls, map_nil] at sameNames
        rw [map_eq_nil_iff.mp sameNames]
    · change ([] ++ (blocks.filterMap Block.call).map Prod.snd).Nodup
      rw [nil_append, <- ids]
      exact distinct record hasRecord
    · intro _ isEmpty
      have nothing : blocks = [] := isEmpty_iff.mp isEmpty
      subst nothing
      exact ⟨rfl, rfl⟩
  · rename_i notReplayed
    have said : message.spoken protocol = spokenTexts role [text] := by
      unfold Message.spoken
      rw [isRole, isText]
      rw [notReplayed]
    split at isTurn
    · rename_i asks
      split at isTurn
      · cases isTurn
      · rename_i named isNamed
        cases isTurn
        rw [asks.1] at said saysText
        refine askingTurn_fits ?_ (nameCalls_nodup isNamed) said saysText
        intro nothing
        have lengths := congrArg length (nameCalls_ids isNamed)
        rw [nothing, map_nil, length_nil, length_map, length_range'] at lengths
        exact asks.2 (length_eq_zero_iff.mp lengths.symm)
    · cases isTurn
      refine ⟨?_, isTurn_ofContent notTool plain _, ?_, ?_, saysText.trans said.symm, ?_⟩
      · change [] ++ (Body.ofContent plain).blockList.filterMap Block.resultId = []
        rw [(ofContent_blocks plain).2.1]
        rfl
      · change [] = [] ++ ((Body.ofContent plain).blockList.filterMap Block.call).map Prod.snd
        rw [(ofContent_blocks plain).1]
        rfl
      · change ([] ++ ((Body.ofContent plain).blockList.filterMap Block.call).map Prod.snd).Nodup
        rw [(ofContent_blocks plain).1]
        exact nodup_nil
      · intro _ isEmpty
        refine ⟨?_, ?_⟩
        · change [] ++ ((Body.ofContent plain).blockList.filterMap Block.call).map Prod.snd = []
          rw [(ofContent_blocks plain).1]
          rfl
        · change spokenTexts role (Body.ofContent plain : Body Json).texts = []
          cases plain with
          | text value =>
            have nothing : value = [] := isEmpty_iff.mp isEmpty
            rw [nothing]
            change spokenTexts role [[]] = []
            rw [spokenTexts_empty]
            cases role <;> rfl
          | parts list =>
            have nothing : list = [] := map_eq_nil_iff.mp (isEmpty_iff.mp isEmpty)
            rw [nothing]
            cases role <;> rfl

theorem Converting.step {next : Conversion Json} (converting : Converting protocol past state)
  (distinct : ∀ record, message.replay = some record -> record.ids.Nodup)
  (stepped : convertMessage library protocol index message state = .ok next) :
  Converting protocol (past ++ [message]) next := by
  unfold convertMessage at stepped
  split at stepped
  · rename_i role text isRole isText
    have silent (saysNothing : message.spoken protocol = []) {state : Conversion Json}
        (kept : Converting protocol past state) : Converting protocol (past ++ [message]) state := by
      refine ⟨kept.unsettled, ?_⟩
      rw [flatMap_append, flatMap_singleton, saysNothing, append_nil]
      exact kept.spoken
    have unspoken (other : role = .system \/ role = .tool) : message.spoken protocol = [] := by
      have notReplayed : message.replayed protocol = none := by
        unfold Message.replayed
        rw [isRole, if_neg]
        rintro ⟨_, isAssistant⟩
        rcases other with isSystem | isTool
        · rw [isSystem] at isAssistant
          cases isAssistant
        · rw [isTool] at isAssistant
          cases isAssistant
      unfold Message.spoken
      rw [isRole, isText]
      rw [notReplayed]
      rcases other with isSystem | isTool
      · rw [isSystem]
        rfl
      · rw [isTool]
        rfl
    dsimp only at stepped
    split at stepped
    · rename_i isSystem
      cases stepped
      refine silent (unspoken (.inl isSystem.2)) ?_
      rw [if_neg (by rw [isSystem.2]; decide)]
      exact ⟨converting.answerPending.unsettled, converting.answerPending.spoken⟩
    · split at stepped
      · cases stepped
      · rename_i plain converted
        split at stepped
        · rename_i isTool
          cases stepped
          exact silent (unspoken (.inr isTool)) (converting.addResult message.toolName plain)
        · rename_i notTool
          split at stepped
          · cases stepped
          · rename_i turn isTurn
            cases stepped
            exact converting.answerPending.addTurn rfl (turnOf_fits isRole isText notTool converted distinct isTurn)
  · cases stepped

variable {messages : List (Message Json)}

theorem Converting.run {last : Conversion Json} (converting : Converting protocol past state)
  (distinct : ∀ message ∈ messages, ∀ record, message.replay = some record -> record.ids.Nodup)
  (ran : convertFrom library protocol index messages state = .ok last) :
  Converting protocol (past ++ messages) last := by
  induction messages generalizing index past state with
  | nil =>
    cases ran
    rw [append_nil]
    exact converting
  | cons message rest ih =>
    unfold convertFrom at ran
    split at ran
    · cases ran
    · rename_i next stepped
      have further := converting.step (distinct message mem_cons_self) stepped
      have all := ih further (fun other mem => distinct other (mem_cons_of_mem _ mem)) ran
      rw [append_assoc] at all
      exact all

theorem converting_start (protocol : Protocol) : Converting protocol [] (Conversion.start : Conversion Json) :=
  ⟨.idle rfl .nil, rfl⟩

/-- Where a history comes from: the messages of a request, or any history whose streamed turns
carry the distinct identifiers that the provider gave their calls. -/
inductive Source (messages : List (Message Json)) : Prop
  | request (limits : RequestLimits) (body : Option (List (Option RawMessage)))
      (parsed : parseRequestMessages limits body = .ok messages)
  | history (distinct : ∀ message ∈ messages, ∀ record, message.replay = some record -> record.ids.Nodup)

theorem Source.distinct (source : Source messages) :
  ∀ message ∈ messages, ∀ record, message.replay = some record -> record.ids.Nodup := by
  cases source with
  | history distinct => exact distinct
  | request limits body parsed =>
    intro message mem _ hasRecord
    rw [(parseRequestMessages_plain parsed message mem).noRecord] at hasRecord
    cases hasRecord

/-- A converted history consists of rounds, and keeps what users and assistants say, in order. -/
theorem converted_wellFormed {library : Library Json} {protocol : Protocol} {messages : List (Message Json)}
  {conversation : Conversion Json} (source : Source messages) (converted : convert library protocol messages = .ok conversation) :
  Rounds (events conversation.items) /\
    conversation.items.flatMap Item.spoken = messages.flatMap (Message.spoken protocol) := by
  unfold convert at converted
  split at converted
  · cases converted
  · rename_i state ran
    cases converted
    have kept := ((converting_start protocol).run source.distinct ran).answerPending
    exact ⟨kept.unsettled.settled, kept.spoken⟩

def interrupted : List (Message Unit) :=
  let call : Call Unit := ⟨some (some "shell"), none⟩
  [⟨some .tool, some (Text.ofString "late"), [], [], some "shell", none⟩,
    ⟨some .assistant, some [], [], [call, call], none, none⟩,
    ⟨some .tool, some (Text.ofString "done"), [], [], some "shell", none⟩,
    ⟨some .user, some (Text.ofString "go on"), [], [], none, none⟩]

theorem converted_wellFormed_interrupted : ∃ conversation : Conversion Unit,
    convert ⟨(), fun _ => none, fun _ => "\x7b\x7d"⟩ .anthropic interrupted = .ok conversation /\
      Rounds (events conversation.items) /\
      conversation.items.flatMap Item.spoken = interrupted.flatMap (Message.spoken .anthropic) := by
  have noRecords : ∀ message ∈ interrupted, message.replay = none := by decide +kernel
  refine ⟨_, rfl, converted_wellFormed (.history ?_) rfl⟩
  intro message mem record hasRecord
  rw [noRecords message mem] at hasRecord
  cases hasRecord

end BananaChat.Providers

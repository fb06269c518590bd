import Mathlib.Data.List.Sort
import BananaChat.Providers.Json

namespace BananaChat.Providers

open Foundation Prod Dictionary

/-!
# Streams of providers

`sse` cuts the lines of a response into events; `openai` and `claude` read events of the two
protocols and yield chunks.
-/

def maxRecord : ℕ := 1024 * 1024

def maxTokens : ℤ := 1000000000

inductive StreamFailure
  | message (text : String)
  /-- `_stream_error` of what the provider reports. -/
  | reported (error : Json)
  /-- Another exception of the language, such as `AttributeError`. -/
  | crashed

/-- What `_sse` yields: a dictionary, `None` at the end, or an exception. -/
inductive Event
  | item (item : Json)
  | done
  | failed (message : String)

def doneMarker : List UInt8 := [0x5B, 0x44, 0x4F, 0x4E, 0x45, 0x5D]

def dataField : List UInt8 := [0x64, 0x61, 0x74, 0x61, 0x3A]

/-- `rstrip` of carriage returns and line feeds. -/
def stripLine (line : List UInt8) : List UInt8 :=
  (line.reverse.dropWhile fun byte => byte = 0x0D \/ byte = 0x0A).reverse

def joinParts (parts : List (List UInt8)) : List UInt8 := List.intercalate [0x0A] parts

def eventOf (library : JsonLibrary) (data : List UInt8) : Event :=
  if data = doneMarker then .done
  else
    match library.loadBytes data with
    | none => .failed "The provider sent invalid event JSON."
    | some item => if item.isObject then .item item else .failed "The provider sent an invalid event."

/-- `_sse`, from the lines that the response gives; a line is not empty before its end. -/
def sse (library : JsonLibrary) : List (List UInt8) -> ℕ -> List (List UInt8) -> List Event
  | parts, _, [] =>
    if parts ≠ [] /\ joinParts parts ≠ doneMarker then [.failed "The provider stopped inside an event."]
    else if parts ≠ [] then [.done]
    else []
  | parts, size, line :: later =>
    let line := stripLine line
    if line = [] then
      if parts ≠ [] then eventOf library (joinParts parts) :: sse library [] 0 later else sse library parts size later
    else if dataField.isPrefixOf line then
      let part := (line.drop 5).dropWhile (· = 0x20)
      if maxRecord < size + part.length then [.failed "The provider event exceeded its size limit."]
      else sse library (parts ++ [part]) (size + part.length) later
    else sse library parts size later

inductive Finish
  | length
  | contentFilter
  | stop

/-- An entry of `tool_calls`. -/
structure ToolCall where
  name : Text
  arguments : Json
  error : Option String

/-- A `Chunk`; `replay` is its `extra`. -/
structure Chunk where
  content : Text
  thinking : Text
  done : Bool
  finishReason : Option Finish
  promptTokens : Option ℕ
  completionTokens : Option ℕ
  toolCalls : List ToolCall
  replay : Option (List Json)

def Chunk.part (content thinking : Text) (promptTokens completionTokens : Option ℕ) : Chunk :=
  ⟨content, thinking, false, none, promptTokens, completionTokens, [], none⟩

def Chunk.last (finish : Finish) (promptTokens completionTokens : Option ℕ) (toolCalls : List ToolCall)
  (replay : Option (List Json)) : Chunk :=
  ⟨[], [], true, some finish, promptTokens, completionTokens, toolCalls, replay⟩

def tokens : Json -> Except StreamFailure ℕ
  | .int value =>
    if 0 <= value /\ value <= maxTokens then .ok value.toNat else .error (.message "The provider returned invalid token usage.")
  | _ => .error (.message "The provider returned invalid token usage.")

/-- `_finish`. -/
def finishOf (reason : Text) : Finish :=
  if reason ∈ ["length", "max_tokens", "model_length", "model_context_window_exceeded"].map Text.ofString then .length
  else if reason ∈ ["content_filter", "refusal"].map Text.ofString then .contentFilter
  else .stop

structure Collected where
  name : Text
  arguments : Text

def tooDeepMessage : String := "The arguments are nested too deeply."

/-- A collected call as `_tool_calls` returns it; one without a name is left out. -/
def toolCall (library : JsonLibrary) (call : Collected) : Option ToolCall :=
  if call.name = [] then none
  else
    match (if isBlank call.arguments then some (.object []) else library.loads call.arguments) with
    | some (.object entries) =>
      if (Json.object entries).nestingTooDeep then some ⟨call.name, .object [], some tooDeepMessage⟩
      else some ⟨call.name, .object entries, none⟩
    | _ => some ⟨call.name, .text call.arguments, none⟩

def maxCalls : ℕ := 32

/-- `_tool_calls`, in the order of the indices. -/
def toolCalls (library : JsonLibrary) (calls : List (ℕ × Collected)) : List ToolCall :=
  (List.range maxCalls).filterMap (fun index => (get? index calls).bind (toolCall library))

def callIndex : Json -> Except StreamFailure ℕ
  | .int value =>
    if 0 <= value /\ value < maxCalls then .ok value.toNat else .error (.message "Invalid tool call index.")
  | _ => .error (.message "Invalid tool call index.")

def deltaFailure : StreamFailure := .message "Invalid completion delta."

def pieceTexts (inner : Json) : Text :=
  match inner with
  | .array pieces => pieces.flatMap (fun piece => ((piece.get "text").text?).getD [])
  | other => (other.text?).getD []

def partText (part : Json) : Except StreamFailure (Text × Text) :=
  if part.isObject then
    match (part.get "type").isText "text", (part.get "text").text? with
    | true, some text => .ok (text, [])
    | _, _ => if (part.get "type").isText "thinking" then .ok ([], pieceTexts (part.get "thinking")) else .ok ([], [])
  else .error deltaFailure

def partTexts : List Json -> Except StreamFailure (Text × Text)
  | [] => .ok ([], [])
  | part :: rest => do
      let first <- partText part
      let others <- partTexts rest
      return (first.1 ++ others.1, first.2 ++ others.2)

def detailText (detail : Json) : Text :=
  if (detail.get "type").isText "reasoning.text" then ((detail.get "text").text?).getD []
  else if (detail.get "type").isText "reasoning.summary" then ((detail.get "summary").text?).getD []
  else []

def deltaReasoning (delta : Json) : Except StreamFailure Text :=
  let plain := delta.get "reasoning_content"
  let reasoning := if plain.truth then plain else delta.get "reasoning"
  if reasoning.truth then
    match reasoning.text? with
    | some text => .ok text
    | none => .error deltaFailure
  else
    match delta.get "reasoning_details" with
    | .array details => .ok (details.flatMap detailText)
    | _ => .ok []

/-- `_delta_text`: the text and the thinking. -/
def deltaText (delta : Json) : Except StreamFailure (Text × Text) := do
  let content <-
    match delta.get "content" with
    | .text text => .ok (text, [])
    | .array parts => partTexts parts
    | .null => .ok ([], [])
    | _ => .error deltaFailure
  let reasoning <- deltaReasoning delta
  return (content.1, content.2 ++ reasoning)

def choiceOf (item : Json) : Except StreamFailure (Option (Json × Json)) :=
  if (item.get "choices").truth then
    match item.get "choices" with
    | .array [choice] =>
      if choice.isObject then
        let delta := choice.get "delta"
        if delta.isNull then .ok (some (choice, .object []))
        else if delta.isObject then .ok (some (choice, delta))
        else .error deltaFailure
      else .error deltaFailure
    | _ => .error (.message "Unexpected completion choices.")
  else .ok none

/-- What `_openai` holds between two events. -/
structure OpenaiState where
  prompt : Option ℕ
  completion : Option ℕ
  finish : Option Finish
  calls : List (ℕ × Collected)

def OpenaiState.start : OpenaiState := ⟨none, none, none, []⟩

def countOf (usage : Json) (key : String) : Except StreamFailure (Option ℕ) :=
  if (usage.get key).isNull then .ok none else (tokens (usage.get key)).map some

/-- `_usage`. -/
def usageOf (usage : Json) (prompt completion : Option ℕ) : Except StreamFailure (Option ℕ × Option ℕ) := do
  let promptTokens <- countOf usage "prompt_tokens"
  let completionTokens <- countOf usage "completion_tokens"
  let total <- countOf usage "total_tokens"
  let prompt := promptTokens.or prompt
  let completion := completionTokens.or completion
  return (prompt, match total, prompt with
    | some total, some prompt => if prompt + completion.getD 0 < total then some (total - prompt) else completion
    | _, _ => completion)

def reportedUsage (item : Json) (state : OpenaiState) : Except StreamFailure (Option (Option ℕ × Option ℕ)) :=
  let own := item.get "usage"
  let usage := if own.isNull then (item.get "x_groq").get "usage" else own
  if usage.isNull then .ok none
  else if usage.isObject then (usageOf usage state.prompt state.completion).map some
  else .error (.message "Invalid usage record.")

def fragmentOf (function : Json) (key : String) : Except StreamFailure Text :=
  match (function.get key).orEmpty.text? with
  | some text => .ok text
  | none => .error (.message "Invalid tool delta.")

def grown (stored fragment : Text) : Except StreamFailure Text :=
  if maxRecord < (stored ++ fragment).length then .error (.message "Tool call exceeds size limit.")
  else .ok (stored ++ fragment)

/-- One entry of the `tool_calls` of a delta. -/
def addFragment (calls : List (ℕ × Collected)) (call : Json) : Except StreamFailure (List (ℕ × Collected)) := do
  let index <- callIndex (call.get "index")
  let function := call.get "function"
  if function.truth && !function.isObject then .error .crashed
  else do
    let stored := (get? index calls).getD ⟨[], []⟩
    let nameFragment <- fragmentOf function "name"
    let name <- grown stored.name nameFragment
    let fragment <- fragmentOf function "arguments"
    let arguments <- grown stored.arguments fragment
    return put index ⟨name, arguments⟩ calls

def addFragments : List (ℕ × Collected) -> List Json -> Except StreamFailure (List (ℕ × Collected))
  | calls, [] => .ok calls
  | calls, call :: rest => do
      let next <- addFragment calls call
      addFragments next rest

/-- The entries of the `tool_calls` of a delta; what else can be gone through has no calls in it. -/
def deltaCalls (delta : Json) : Except StreamFailure (List Json) :=
  let calls := delta.get "tool_calls"
  if calls.truth then
    match calls with
    | .array list => .ok list
    | .text _ => .error (.message "Invalid tool call index.")
    | .object _ => .error (.message "Invalid tool call index.")
    | _ => .error .crashed
  else .ok []

def reasonOf (choice : Json) : Except StreamFailure (Option Finish) :=
  match choice.get "finish_reason" with
  | .null => .ok none
  | .text reason => .ok (some (finishOf reason))
  | _ => .error (.message "Unsupported provider finish reason.")

def readChoice (state : OpenaiState) (choice : Option (Json × Json)) :
  Except StreamFailure ((Text × Text) × List (ℕ × Collected) × Option Finish) :=
  match choice with
  | none => .ok (([], []), state.calls, state.finish)
  | some (choice, delta) => do
      let said <- deltaText delta
      if state.finish.isSome /\ (said.1 ≠ [] \/ said.2 ≠ []) then
        .error (.message "Output followed the provider finish marker.")
      else do
        let entries <- deltaCalls delta
        let calls <- addFragments state.calls entries
        let reason <- reasonOf choice
        return (said, calls, reason.or state.finish)

/-- The loop of `_openai` for one item. -/
def openaiStep (state : OpenaiState) (item : Json) : Except StreamFailure (OpenaiState × List Chunk) :=
  if (item.get "error").truth then .error (.reported (item.get "error"))
  else do
    let usage <- reportedUsage item state
    let choice <- choiceOf item
    let read <- readChoice state choice
    let counts := usage.getD (state.prompt, state.completion)
    let next : OpenaiState := ⟨counts.1, counts.2, read.2.2, read.2.1⟩
    if read.1.1 ≠ [] \/ read.1.2 ≠ [] \/ usage.isSome then
      return (next, [.part read.1.1 read.1.2 (usage.bind fst) (usage.bind snd)])
    else
      return (next, [])

/-- The loop of `_openai`, with what is yielded for each item. -/
def openaiSteps : OpenaiState -> List Event -> Except StreamFailure (OpenaiState × List (Json × List Chunk))
  | state, [] => .ok (state, [])
  | state, .done :: _ => .ok (state, [])
  | _, .failed message :: _ => .error (.message message)
  | state, .item item :: later => do
      let stepped <- openaiStep state item
      let rest <- openaiSteps stepped.1 later
      return (rest.1, (item, stepped.2) :: rest.2)

/-- `_openai`: all that it yields. -/
def openai (library : JsonLibrary) (events : List Event) : Except StreamFailure (List Chunk) := do
  let (state, steps) <- openaiSteps .start events
  match state.finish with
  | none => .error (.message "The provider stopped without a finish reason.")
  | some finish =>
    return steps.flatMap snd ++ [.last finish state.prompt state.completion (toolCalls library state.calls) none]

/-- A block of `_Turn`. -/
inductive TurnBlock
  | thinking (thinking signature : Json)
  | redacted (data : Json)
  | text (text : Json)
  | toolUse (id name : Json)

/-- `_Turn`. -/
structure Streamed where
  blocks : List (ℤ × TurnBlock)
  thinking : ℕ
  usable : Bool

namespace Streamed

def start : Streamed := ⟨[], 0, true⟩

/-- `REPLAY_THINKING_CHARS`. -/
def maxThinking : ℕ := 300000

def drop (turn : Streamed) : Streamed := { turn with blocks := [], usable := false }

def textLength (value : Json) : ℕ := ((value.text?).getD []).length

def grow (size : ℕ) (turn : Streamed) : Streamed :=
  let turn := { turn with thinking := turn.thinking + size }
  if maxThinking < turn.thinking then turn.drop else turn

def blockOf (block : Json) : Option (TurnBlock × ℕ) :=
  let kind := block.get "type"
  if kind.isText "thinking" then
    let thinking := (block.get "thinking").orEmpty
    let signature := (block.get "signature").orEmpty
    some (.thinking thinking signature, textLength thinking + textLength signature)
  else if kind.isText "redacted_thinking" then some (.redacted (block.get "data"), textLength (block.get "data"))
  else if kind.isText "text" && !(block.get "citations").truth then some (.text (block.get "text").orEmpty, 0)
  else if kind.isText "tool_use" then some (.toolUse (block.get "id") (block.get "name"), 0)
  else none

/-- `start`. -/
def begin (index block : Json) (turn : Streamed) : Streamed :=
  if turn.usable then
    match index, block.isObject with
    | .int place, true =>
      if (get? place turn.blocks).isSome then turn.drop
      else
        match blockOf block with
        | none => turn.drop
        | some (begun, size) => ({ turn with blocks := turn.blocks ++ [(place, begun)] } : Streamed).grow size
    | _, _ => turn.drop
  else turn

def joined (stored value : Json) : Option Json :=
  match stored.text?, value.text? with
  | some before, some fragment => some (.text (before ++ fragment))
  | _, _ => none

def extend (delta : Json) (block : TurnBlock) : Option (TurnBlock × ℕ) :=
  let kind := delta.get "type"
  match block with
  | .toolUse id name => if kind.isText "input_json_delta" then some (.toolUse id name, 0) else none
  | .thinking thinking signature =>
    if kind.isText "thinking_delta" then
      (joined thinking (delta.get "thinking")).map
        (fun longer => (.thinking longer signature, textLength (delta.get "thinking")))
    else if kind.isText "signature_delta" then
      (joined signature (delta.get "signature")).map
        (fun longer => (.thinking thinking longer, textLength (delta.get "signature")))
    else none
  | .text text =>
    if kind.isText "text_delta" then (joined text (delta.get "text")).map (fun longer => (.text longer, 0)) else none
  | .redacted _ => none

def delta (index delta : Json) (turn : Streamed) : Streamed :=
  if turn.usable then
    match index with
    | .int place =>
      match (get? place turn.blocks).bind (extend delta) with
      | none => turn.drop
      | some (longer, size) => ({ turn with blocks := put place longer turn.blocks } : Streamed).grow size
    | _ => turn.drop
  else turn

/-- `_TOOL_USE_ID`. -/
def isToolUseId (id : Text) : Bool :=
  (1 <= id.length /\ id.length <= 200) && id.all (fun point =>
      match point with
      | .scalar char => char.isAlphanum || char = '_' || char = '-'
      | .surrogate _ => false)

def recordBlock (library : JsonLibrary) (calls : List (ℕ × Collected)) (place : ℤ) (block : TurnBlock) :
  Option (Option Json) :=
  match block with
  | .thinking thinking signature =>
    if signature.truth && thinking.text?.isSome then
      some (some (.object [("type", .text (Text.ofString "thinking")), ("thinking", thinking), ("signature", signature)]))
    else none
  | .redacted data =>
    match data.text? with
    | some (_ :: _) => some (some (.object [("type", .text (Text.ofString "redacted_thinking")), ("data", data)]))
    | _ => none
  | .text value =>
    match value.text? with
    | none => none
    | some text =>
      if isBlank text then some none
      else some (some (.object [("type", .text (Text.ofString "text")), ("text", value)]))
  | .toolUse id name =>
    let raw := if 0 <= place then ((get? place.toNat calls).map Collected.arguments).getD [] else []
    match (if isBlank raw then some (.object []) else library.loads raw), id.text? with
    | some input, some idText =>
      if isToolUseId idText && name.truth && input.isObject && !input.nestingTooDeep then
        some (some (.object [("type", .text (Text.ofString "tool_use")), ("id", id), ("name", name), ("input", input)]))
      else none
    | _, _ => none

def recordBlocks (library : JsonLibrary) (calls : List (ℕ × Collected)) : List (ℤ × TurnBlock) -> Option (List Json)
  | [] => some []
  | (place, block) :: rest => do
      let first <- recordBlock library calls place block
      let others <- recordBlocks library calls rest
      return first.toList ++ others

/-- The `content` of `record`, in the order of the indices. -/
def record (library : JsonLibrary) (calls : List (ℕ × Collected)) (turn : Streamed) : Option (List Json) :=
  if turn.usable then
    recordBlocks library calls (turn.blocks.insertionSort fun first second => first.1 <= second.1)
  else none

end Streamed

structure ClaudeCall where
  name : Text
  arguments : Text
  input : Json

/-- What `_anthropic` holds between two events. -/
structure ClaudeState where
  inputs : List (String × ℕ)
  completion : Option ℕ
  finish : Option Finish
  calls : List (ℕ × ClaudeCall)
  turn : Streamed

def ClaudeState.start : ClaudeState := ⟨[], none, none, [], Streamed.start⟩

/-- `sum(inputs.values())`. -/
def inputSum (inputs : List (String × ℕ)) : ℕ := (inputs.map snd).sum

def inputKeys : List String := ["input_tokens", "cache_creation_input_tokens", "cache_read_input_tokens"]

/-- `inputs.update` with the counts of a usage. -/
def updateInputs (usage : Json) : List String -> List (String × ℕ) -> Except StreamFailure (List (String × ℕ))
  | [], inputs => .ok inputs
  | key :: rest, inputs => do
      let count <- countOf usage key
      updateInputs usage rest (match count with | none => inputs | some count => put key count inputs)

section

variable (state : ClaudeState)

def ClaudeState.messageStart (item : Json) : Except StreamFailure (ClaudeState × List Chunk) :=
  let usage := (item.get "message").get "usage"
  if usage.isObject && usage.has "input_tokens" then do
    let inputs <- updateInputs usage inputKeys []
    let output := usage.get "output_tokens"
    let completion <- tokens (if output.truth then output else .int 0)
    if maxTokens < inputSum inputs then .error (.message "Input usage exceeds its limit.")
    else return ({ state with inputs := inputs, completion := some completion },
      [.part [] [] (some (inputSum inputs)) none])
  else .error (.message "The provider omitted input usage.")

def startedCall (item : Json) : Except StreamFailure (Option (ℕ × ClaudeCall)) :=
  let block := item.get "content_block"
  if (block.get "type").isText "tool_use" then do
    let index <- callIndex (item.get "index")
    match (block.get "name").text? with
    | some name => return some (index, ⟨name, [], block.get "input"⟩)
    | none => .error (.message "Invalid tool call.")
  else .ok none

def ClaudeState.blockStart (item : Json) : Except StreamFailure (ClaudeState × List Chunk) := do
  let started <- startedCall item
  let calls :=
    match started with
    | some (index, call) => put index call state.calls
    | none => state.calls
  return ({ state with calls := calls, turn := state.turn.begin (item.get "index") (item.get "content_block") }, [])

/-- `delta.get(key, '')`, where the delta is of this kind. -/
def deltaField (delta : Json) (kind key : String) : Except StreamFailure Text :=
  if (delta.get "type").isText kind && delta.has key then
    match (delta.get key).text? with
    | some text => .ok text
    | none => .error (.message "Invalid message delta.")
  else .ok []

def callKey (index : Json) : Except StreamFailure (Option ℕ) :=
  match index with
  | .array _ => .error .crashed
  | .object _ => .error .crashed
  | other =>
    match other.integer? with
    | some (.ofNat place) => .ok (some place)
    | _ => .ok none

/-- `delta.get('partial_json', '')`, where it is a text. -/
def partialJson (delta : Json) : Option Text :=
  if delta.has "partial_json" then (delta.get "partial_json").text? else some []

def ClaudeState.addInput (item delta : Json) : Except StreamFailure (List (ℕ × ClaudeCall)) :=
  if (delta.get "type").isText "input_json_delta" then do
    let key <- callKey (item.get "index")
    match key.bind (fun place => (get? place state.calls).map fun call => (place, call)), partialJson delta with
    | some (place, call), some fragment =>
      if maxRecord < (call.arguments ++ fragment).length then .error (.message "Tool call exceeds size limit.")
      else .ok (put place { call with arguments := call.arguments ++ fragment } state.calls)
    | _, _ => .error (.message "Invalid tool call delta.")
  else .ok state.calls

def ClaudeState.blockDelta (item : Json) : Except StreamFailure (ClaudeState × List Chunk) :=
  if state.finish.isSome then .error (.message "Output followed the provider finish marker.")
  else
    let delta := item.get "delta"
    if delta.isObject then do
      let text <- deltaField delta "text_delta" "text"
      let thinking <- deltaField delta "thinking_delta" "thinking"
      let calls <- state.addInput item delta
      return ({ state with calls := calls, turn := state.turn.delta (item.get "index") delta },
        if text ≠ [] \/ thinking ≠ [] then [.part text thinking none none] else [])
    else .error (.message "Invalid message delta.")

def stopReason (item : Json) : Except StreamFailure (Option Finish) :=
  match (item.get "delta").get "stop_reason" with
  | .null => .ok none
  | .text reason => .ok (some (finishOf reason))
  | _ => .error (.message "Invalid provider stop reason.")

def ClaudeState.messageDelta (item : Json) : Except StreamFailure (ClaudeState × List Chunk) := do
  let reason <- stopReason item
  let usage := item.get "usage"
  if usage.isObject then do
    let inputs <- updateInputs usage inputKeys state.inputs
    let output <- countOf usage "output_tokens"
    let completion := output.or state.completion
    return ({ state with inputs := inputs, completion := completion, finish := reason.or state.finish },
      [.part [] [] (if inputs = [] then none else some (inputSum inputs)) completion])
  else return ({ state with finish := reason.or state.finish }, [])

def ClaudeCall.collected (library : JsonLibrary) (call : ClaudeCall) : Collected :=
  if call.arguments = [] /\ call.input.isObject /\ call.input.truth then ⟨call.name, library.dumps call.input⟩
  else ⟨call.name, call.arguments⟩

/-- The loop of `_anthropic` for one item other than the terminal one. -/
def claudeStep (item : Json) : Except StreamFailure (ClaudeState × List Chunk) :=
  let kind := item.get "type"
  if kind.isText "error" then .error (.reported (item.get "error"))
  else if kind.isText "message_start" then state.messageStart item
  else if kind.isText "content_block_start" then state.blockStart item
  else if kind.isText "content_block_delta" then state.blockDelta item
  else if kind.isText "message_delta" then state.messageDelta item
  else .ok (state, [])

end

/-- The loop of `_anthropic` up to the terminal item, with what is yielded for each item before it. -/
def claudeSteps : ClaudeState -> List Event -> Except StreamFailure (ClaudeState × List (Json × List Chunk))
  | _, [] => .error (.message "The provider stopped without its terminal event.")
  | _, .done :: _ => .error (.message "The provider stopped without its terminal event.")
  | _, .failed message :: _ => .error (.message message)
  | state, .item item :: later =>
    if (item.get "type").isText "message_stop" then .ok (state, [])
    else do
      let stepped <- claudeStep state item
      let rest <- claudeSteps stepped.1 later
      return (rest.1, (item, stepped.2) :: rest.2)

/-- `_anthropic`: all that it yields. -/
def claude (library : JsonLibrary) (events : List Event) : Except StreamFailure (List Chunk) := do
  let (state, steps) <- claudeSteps .start events
  match state.finish, state.inputs with
  | some finish, _ :: _ =>
    let calls := state.calls.map (fun entry => (entry.1, entry.2.collected library))
    return steps.flatMap snd ++ [.last finish (some (inputSum state.inputs)) state.completion
      (toolCalls library calls) (state.turn.record library calls)]
  | _, _ => .error (.message "The provider omitted terminal status or usage.")

end BananaChat.Providers

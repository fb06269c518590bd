import BananaChat.Foundation.Text
import BananaChat.Queue.Slots
import BananaChat.Runs.ChatRuns

namespace BananaChat.Generation

open Foundation

/-!
# Generating an answer

`generate` waits for a place in the queue and then tries the requested model and its fallbacks in
turn.
-/

/-- The columns of `ai_models` that a generation reads.  `isText` is
`is_text_model` of the row. -/
structure AiModel where
  id : ℕ
  ollamaName : String
  displayName : String
  backend : Queue.Backend
  missing : Bool
  isText : Bool
  isRolledOut : Bool

inductive FinishState
  | completed
  | stopped
  | failed

/-- `Finished`, less its durations. -/
structure Finished where
  state : FinishState
  model : AiModel
  finishReason : String
  promptTokens : ℕ
  completionTokens : ℕ
  usageEstimated : Bool
  error : String
  viaWorker : Bool
  truncated : Bool
  toolCalls : List String
  errorStatus : Option ℕ
  errorCode : String
  retryAfter : Option ℕ
  usageReported : Bool
  billable : Bool
  replay : Option String

inductive Event
  | queued (position : ℕ)
  | started (model : AiModel) (viaWorker : Bool) (notice : String)
  | delta (text : Text) (thinking : Bool)
  | finished (finished : Finished)

structure Message where
  content : String
  images : ℕ

/-- What a generation reads of a `TextRequest` and of the configuration. -/
structure Request where
  model : AiModel
  messages : List Message
  numPredict : ℕ
  maxResponseBytes : Option ℕ
  chatMaxResponseBytes : ℕ
  tools : Bool

structure UpstreamError where
  message : String
  status : Option ℕ
  code : Option String
  kind : Option String
  retryAfter : Option ℕ
  sent : Bool

inductive Problem
  | cancelled (reason : String)
  | generatorExit
  | upstream (error : UpstreamError)
  | osError (message : String)
  | queueFull
  | queueTimeout
  | other

inductive Outcome
  | returned
  | raised (problem : Problem)

structure Chunk where
  content : Text
  thinking : Text
  done : Bool
  finishReason : String
  promptTokens : Option ℕ
  completionTokens : Option ℕ
  toolCalls : List String
  replay : Option String

def imageTokenEstimate : ℕ := 765

/-- `estimate_tokens` of a text. -/
def estimateTokens (text : Text) : ℕ :=
  let wide := text.countP (fun point => match point with
    | .scalar char => Runs.isWide char
    | .surrogate _ => false)
  wide + (text.length - wide + 3) / 4

def estimatePrompt (messages : List Message) : ℕ :=
  (messages.map fun message => Runs.estimateTokens message.content + imageTokenEstimate * message.images).sum

/-- `request.attempt` and `request.reported`: what is known of the attempt. -/
structure Notes where
  external : Bool
  reasoning : Bool
  opened : Option ℚ
  output : Option ℚ
  ended : Option ℚ
  interrupted : Bool
  prompt : Option ℕ
  completion : Option ℕ

def Notes.billable (notes : Notes) : Bool :=
  notes.prompt.isSome || notes.completion.isSome || (notes.interrupted && notes.external && notes.opened.isSome)

def hiddenReasoningTokensPerSecond : ℚ := 20

def hiddenReasoning (numPredict : ℕ) (notes : Notes) (now : ℚ) (visible : ℕ) : ℕ :=
  match notes.reasoning, notes.opened with
  | true, some opened =>
    let silent := ((notes.output.or notes.ended).getD now) - opened
    let hidden := ⌈max 0 silent * hiddenReasoningTokensPerSecond⌉.toNat
    if numPredict = 0 then hidden else min hidden (numPredict - visible)
  | _, _ => 0

def interruptedUsage (request : Request) (notes : Notes) (now : ℚ) (produced : Text) : ℕ × ℕ :=
  let prompt := notes.prompt.getD (estimatePrompt request.messages)
  let visible := estimateTokens produced
  match notes.completion with
  | some completion => (prompt, max visible completion)
  | none => (prompt, visible + hiddenReasoning request.numPredict notes now visible)

structure Pull where
  next : Except Problem Chunk
  now : ℚ
  closesThinking : Bool
  closesContent : Bool

structure Attempt where
  running : Bool
  place : Option Problem
  raises : Option Problem
  fresh : Option AiModel
  refusal : Option String
  prepared : Option (List Message)
  routes : Bool
  closesStarted : Bool
  cancelledBefore : Option String
  opened : ℚ
  reasoning : Bool
  stream : Option Problem
  pulls : List Pull
  cancelled : Option String
  recordsSuccess : Option Problem
  recordsFailure : Option Problem
  ended : ℚ
  closesFinished : Bool

def maxToolCalls : ℕ := 32

structure Reading where
  produced : ℕ
  text : Text
  toolCalls : List String
  notes : Notes

inductive Ending
  | exhausted
  | truncated
  | completed (chunk : Chunk)
  | threw (problem : Problem)

/-- Give one piece of an answer, cut to what is left of the limit.  A text that
cannot be encoded raises. -/
def givePiece (limit : ℕ) (now : ℚ) (closes thinking : Bool) (text : Text) (reading : Reading) :
  List Event × Reading × Option Ending :=
  if text.isEmpty then
    ([], reading, none)
  else
    match text.encode with
    | none => ([], reading, some (.threw .other))
    | some bytes =>
      let truncated := decide (limit < reading.produced + bytes.length)
      let piece := if truncated then Text.decodeIgnore (bytes.take (limit - reading.produced)) else text
      let size := (piece.encode.getD []).length
      let counted := { reading with produced := reading.produced + size }
      if piece.isEmpty then
        ([], counted, if truncated then some .truncated else none)
      else
        let given := { counted with
          text := counted.text ++ piece, notes := { counted.notes with output := counted.notes.output.or (some now) } }
        ([.delta piece thinking], given,
          if closes then some (.threw .generatorExit) else if truncated then some .truncated else none)

def noteChunk (request : Request) (chunk : Chunk) (reading : Reading) : Reading :=
  let reported := if chunk.done then reading.notes else { reading.notes with
    prompt := chunk.promptTokens.or reading.notes.prompt, completion := chunk.completionTokens.or reading.notes.completion }
  if (request.tools && !chunk.toolCalls.isEmpty) then
    { reading with
      notes := reported,
      toolCalls := reading.toolCalls ++ chunk.toolCalls.take (maxToolCalls - reading.toolCalls.length),
      produced := reading.produced + 1 }
  else
    { reading with notes := reported }

def giveChunk (request : Request) (limit : ℕ) (pull : Pull) (chunk : Chunk) (reading : Reading) :
  List Event × Reading × Option Ending :=
  match givePiece limit pull.now pull.closesThinking true chunk.thinking (noteChunk request chunk reading) with
  | (events, thought, some ending) => (events, thought, some ending)
  | (events, thought, none) =>
    let given := givePiece limit pull.now pull.closesContent false chunk.content thought
    (events ++ given.1, given.2)

def readStream (request : Request) (limit : ℕ) : List Pull -> Reading -> List Event × Reading × Ending
  | [], reading => ([], reading, .exhausted)
  | pull :: rest, reading =>
    match pull.next with
    | .error problem => ([], reading, .threw problem)
    | .ok chunk =>
      match giveChunk request limit pull chunk reading with
      | (events, given, some ending) => (events, given, ending)
      | (events, given, none) =>
        if chunk.done then
          (events, { given with notes := { given.notes with ended := given.notes.ended.or (some pull.now) } },
            .completed chunk)
        else
          let later := readStream request limit rest given
          (events ++ later.1, later.2)

def finish (closes : Bool) (finished : Finished) : List Event × Outcome :=
  ([.finished finished], if closes then .raised .generatorExit else .returned)

def refused (model : AiModel) (error : String) : Finished :=
  { state := .failed, model, finishReason := "stop", promptTokens := 0, completionTokens := 0, usageEstimated := false, error,
    viaWorker := false, truncated := false, toolCalls := [], errorStatus := none, errorCode := "", retryAfter := none,
    usageReported := false, billable := false, replay := none }

/-- `_partial`. -/
def partialAnswer (request : Request) (model : AiModel) (reading : Reading) (now : ℚ) (viaWorker : Bool) (state : FinishState)
  (error : String) : Finished :=
  let usage := interruptedUsage request reading.notes now reading.text
  { state, model, finishReason := "stop", promptTokens := usage.1, completionTokens := usage.2, usageEstimated := true, error,
    viaWorker, truncated := false, toolCalls := [], errorStatus := none, errorCode := "", retryAfter := none,
    usageReported := reading.notes.prompt.isSome || reading.notes.completion.isSome, billable := reading.notes.billable,
    replay := none }

structure Progress where
  lastError : String
  lastErrorStatus : Option ℕ
  lastRetryAfter : Option ℕ
  lastErrorCode : String
  tried : AiModel
  failedBefore : Bool
  messages : List Message

inductive Verdict
  | next (progress : Progress)
  | stop (outcome : Outcome)

def stopWith (events : List Event × Outcome) : List Event × Verdict := (events.1, .stop events.2)

/-- `provider_...` codes are explained to the consumer. -/
def providerCode (model : AiModel) (error : UpstreamError) : String :=
  match error.code with
  | some code => if model.backend = .external /\ ("provider_".toList <+: code.toList) then code else ""
  | none => ""

section

variable (request : Request) (model : AiModel)

section

variable (attempt : Attempt)

def handleFailure (viaWorker isLast : Bool) (progress : Progress)
  (reading : Reading) (message : String) (error : Option UpstreamError) : List Event × Verdict :=
  let sent := (error.map UpstreamError.sent).getD false
  let interrupted := attempt.cancelled.isSome || sent
  let noted := if interrupted then
      { reading with notes := { reading.notes with interrupted := true, ended := some attempt.ended } }
    else reading
  let lastError := if message = "" then "The model failed." else message
  let capacityUnavailable := decide ((error.bind UpstreamError.kind) = some "capacity")
  let code := (error.map (providerCode model)).getD ""
  let failed := { progress with
    lastError, failedBefore := true,
    lastErrorStatus := if capacityUnavailable then some 503 else none,
    lastErrorCode := if code ≠ "" then code else if capacityUnavailable then "provider_capacity_unavailable" else "",
    lastRetryAfter := if capacityUnavailable then
        some (match error.bind UpstreamError.retryAfter with | some wait => if wait = 0 then 30 else wait | none => 30)
      else none }
  match attempt.recordsFailure with
  | some problem => ([], .stop (.raised problem))
  | none =>
    if (decide (reading.produced = 0) && !interrupted && !isLast) then
      ([], .next failed)
    else
      let finished := partialAnswer request model noted attempt.ended viaWorker .failed lastError
      stopWith (finish attempt.closesFinished
        (if reading.produced = 0 then
          { finished with
            errorStatus := failed.lastErrorStatus, errorCode := failed.lastErrorCode, retryAfter := failed.lastRetryAfter }
        else finished))

/-- What follows the `try` statement, when no answer was completed. -/
def concludeUnfinished (viaWorker truncated : Bool) (reading : Reading) :
  List Event × Outcome :=
  let cancelled := if truncated then some (attempt.cancelled.getD "limit") else attempt.cancelled
  let noted := if cancelled.isSome then
      { reading with notes := { reading.notes with
          ended := reading.notes.ended.or (some attempt.ended), interrupted := true } }
    else reading
  let part := partialAnswer request model noted attempt.ended viaWorker
  if truncated then
    finish attempt.closesFinished { part .stopped "" with finishReason := "length", truncated := true }
  else
    match cancelled with
    | none => finish attempt.closesFinished (part .failed "The model stopped before finishing its answer.")
    | some reason =>
      if reason = "stopped" then finish attempt.closesFinished (part .stopped "")
      else if reason = "deadline" then
        finish attempt.closesFinished (part (if reading.text.isEmpty then .failed else .stopped)
          "The answer took too long and was stopped.")
      else if reason = "" then
        finish attempt.closesFinished (part .failed "The model stopped before finishing its answer.")
      else finish attempt.closesFinished (part .failed "The request was interrupted.")

/-- `Finished("completed", ...)`. -/
def completedAnswer (viaWorker : Bool) (now : ℚ) (chunk : Chunk) (reading : Reading) :
  Finished :=
  let estimated := chunk.promptTokens.isNone || chunk.completionTokens.isNone
  let guessed := interruptedUsage request reading.notes now reading.text
  { state := .completed, model, finishReason := if chunk.finishReason = "" then "stop" else chunk.finishReason,
    promptTokens := chunk.promptTokens.getD guessed.1, completionTokens := chunk.completionTokens.getD guessed.2,
    usageEstimated := estimated, error := "", viaWorker, truncated := false, toolCalls := reading.toolCalls,
    errorStatus := none, errorCode := "", retryAfter := none, usageReported := !estimated, billable := true,
    replay := if request.tools then chunk.replay else none }

def handle (viaWorker isLast : Bool) (progress : Progress)
    (reading : Reading) : Problem -> List Event × Verdict
  | .cancelled _ => stopWith (concludeUnfinished request model attempt viaWorker false
      { reading with notes := { reading.notes with interrupted := true, ended := some attempt.ended } })
  | .upstream error => handleFailure request model attempt viaWorker isLast progress reading error.message (some error)
  | .osError message => handleFailure request model attempt viaWorker isLast progress reading message none
  | problem => ([], .stop (.raised problem))

/-- The `try` statement of one attempt and what follows it. -/
def concludeStream (viaWorker isLast : Bool) (progress : Progress)
    (reading : Reading) : Ending -> List Event × Verdict
  | .completed chunk =>
    match attempt.recordsSuccess with
    | some problem => handle request model attempt viaWorker isLast progress reading problem
    | none => stopWith (finish attempt.closesFinished (completedAnswer request model viaWorker attempt.ended chunk reading))
  | .exhausted => stopWith (concludeUnfinished request model attempt viaWorker false reading)
  | .truncated => stopWith (concludeUnfinished request model attempt viaWorker true reading)
  | .threw problem => handle request model attempt viaWorker isLast progress reading problem

end

end

/-- From the `Started` event on: open the stream, read it and conclude. -/
def runStarted (request : Request) (limit : ℕ) (model : AiModel) (attempt : Attempt) (viaWorker isLast : Bool) (progress : Progress) :
  List Event × Verdict :=
  let blank : Reading :=
    { produced := 0, text := [], toolCalls := [],
      notes := { external := decide (model.backend = .external \/ model.backend = .claude \/ model.backend = .codex),
                 reasoning := attempt.reasoning, opened := some attempt.opened, output := none, ended := none,
                 interrupted := false, prompt := none, completion := none } }
  match attempt.cancelledBefore with
  | some reason => concludeStream request model attempt viaWorker isLast progress
      { blank with notes := { blank.notes with opened := none } } (.threw (.cancelled reason))
  | none =>
    match attempt.stream with
    | some problem => concludeStream request model attempt viaWorker isLast progress blank (.threw problem)
    | none =>
      let read := readStream request limit attempt.pulls blank
      let concluded := concludeStream request model attempt viaWorker isLast progress read.2.1 read.2.2
      (read.1 ++ concluded.1, concluded.2)

def takePlace (attempt : Attempt) (sameLane isLast : Bool) : Except Problem Bool :=
  if (sameLane && attempt.running) then
    match attempt.place with
    | none => .ok true
    | some problem => .error problem
  else match attempt.place with
    | none => .ok true
    | some .queueFull => if isLast = true then .error .queueFull else .ok false
    | some .queueTimeout => if isLast = true then .error .queueTimeout else .ok false
    | some problem => .error problem

def runModel (request : Request) (limit : ℕ) (isFirst isLast : Bool) (candidate : AiModel) (attempt : Attempt)
  (progress : Progress) : List Event × Verdict :=
  match attempt.raises with
  | some problem => ([], .stop (.raised problem))
  | none =>
  match attempt.fresh.filter (fun fresh => !fresh.missing && fresh.isText) with
  | none =>
    if isFirst then
      stopWith (finish attempt.closesFinished
        (refused candidate ("The model '" ++ candidate.ollamaName ++ "' is no longer available on the model server.")))
    else ([], .next progress)
  | some model =>
    if (!isFirst && !model.isRolledOut) then ([], .next progress)
    else match attempt.refusal with
      | some problem =>
        let told := { progress with
          lastError := problem, lastErrorStatus := none, lastRetryAfter := none, lastErrorCode := "", tried := model }
        if isFirst then stopWith (finish attempt.closesFinished (refused model problem)) else ([], .next told)
      | none =>
        let prepared := { progress with messages := attempt.prepared.getD progress.messages }
        let viaWorker := !request.tools && decide (model.backend = .ollama) && attempt.routes
        let notice := if isFirst then "" else
          progress.tried.displayName ++ " failed, so " ++ model.displayName ++ " is answering instead."
        if attempt.closesStarted then
          ([.started model viaWorker notice], .stop (.raised .generatorExit))
        else
          let ran := runStarted { request with messages := prepared.messages } limit model attempt viaWorker isLast
            { prepared with tried := model }
          (.started model viaWorker notice :: ran.1, ran.2)

/-- `limit`. -/
def outputLimit (request : Request) : ℕ :=
  match request.maxResponseBytes with
  | none => request.chatMaxResponseBytes
  | some limit => if limit = 0 then request.chatMaxResponseBytes else limit

def laneFor (model : AiModel) : Queue.Lane := if model.backend.hosted then .hostedLane else .localLane

/-- The loop of `_run_admitted`, over the models that are left, and its end. -/
def runModels (request : Request) (closesLast : Bool) :
    Bool -> Queue.Lane -> List (AiModel × Attempt) -> Progress -> List Event × Outcome
  | _, _, [], progress =>
    finish closesLast
      { refused progress.tried (if progress.lastError = "" then "No model could answer." else progress.lastError) with
        errorStatus := progress.lastErrorStatus, errorCode := progress.lastErrorCode, retryAfter := progress.lastRetryAfter }
  | isFirst, lane, (candidate, attempt) :: rest, progress =>
    match if isFirst then .ok true else takePlace attempt (decide (laneFor candidate = lane)) rest.isEmpty with
    | .error problem => ([], .raised problem)
    | .ok false => runModels request closesLast false (laneFor candidate) rest progress
    | .ok true =>
      match runModel request (outputLimit request) isFirst rest.isEmpty candidate attempt progress with
      | (events, .stop outcome) => (events, outcome)
      | (events, .next told) =>
        let later := runModels request closesLast false (laneFor candidate) rest told
        (events ++ later.1, later.2)

structure Wait where
  enters : Option Problem
  positions : List (ℕ × Bool)
  problem : Option Problem

def givePositions : List (ℕ × Bool) -> List Event × Bool
  | [] => ([], false)
  | (position, closes) :: rest =>
    if closes then ([.queued position], true)
    else
      let later := givePositions rest
      (.queued position :: later.1, later.2)

/-- `generate`: its log and its end.  The first attempt is the requested model's. -/
def generate (request : Request) (wait : Wait) (first : Attempt) (fallbacks : List (AiModel × Attempt)) (closesLast : Bool) :
  List Event × Outcome :=
  match wait.enters with
  | some problem => ([], .raised problem)
  | none =>
    match givePositions wait.positions with
    | (events, true) => (events, .raised .generatorExit)
    | (events, false) =>
      match wait.problem with
      | some problem => (events, .raised problem)
      | none =>
        let ran := runModels request closesLast true (laneFor request.model) ((request.model, first) :: fallbacks)
          { lastError := "", lastErrorStatus := none, lastRetryAfter := none, lastErrorCode := "",
            tried := request.model, failedBefore := false, messages := request.messages }
        (events ++ ran.1, ran.2)

end BananaChat.Generation

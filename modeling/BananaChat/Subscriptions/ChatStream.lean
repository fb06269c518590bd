import BananaChat.Foundation.Text
import BananaChat.Runs.ChatRuns
import BananaChat.Subscriptions.Accounts

namespace BananaChat.Subscriptions

open Foundation

/-!
# The stream of a subscription answer

`chat_stream` answers one request through one leased account at a time.
-/

def tokensMax : ℕ := 1000000000

def maxStreamBytes : ℕ := 8 * 1024 * 1024

def maxStreamRecords : ℕ := 200000

inductive Value
  | none
  | bool (value : Bool)
  | int (value : ℤ)
  | str (text : Text)
  | other (truth : Bool)
deriving DecidableEq

/-- `bool(value)`. -/
def Value.truth : Value -> Bool
  | .none => false
  | .bool value => value
  | .int value => value ≠ 0
  | .str text => !text.isEmpty
  | .other truth => truth

/-- The keys of a record that `_chunk` reads, each missing or with some value. -/
structure Raw where
  text : Option Value
  thinking : Option Value
  tokensIn : Option Value
  tokensOut : Option Value
  done : Option Value
  finishReason : Option Value
  error : Option Value

inductive FinishReason
  | unset
  | stop
  | length
  | contentFilter
deriving DecidableEq

/-- A record that `_chunk` accepted. -/
structure Item where
  text : Text
  thinking : Text
  tokensIn : Option ℕ
  tokensOut : Option ℕ
  done : Bool
  finishReason : FinishReason
deriving DecidableEq

/-- `item.get(key, "")`, which must be a string. -/
def chunkText : Option Value -> Except String Text
  | .none => .ok []
  | .some (.str text) => .ok text
  | .some _ => .error "The adapter returned invalid text."

/-- `item.get(key)`, which must be a count within bounds when there is one. -/
def chunkTokens : Option Value -> Except String (Option ℕ)
  | .none => .ok Option.none
  | .some .none => .ok Option.none
  | .some (.int value) =>
    if 0 <= value /\ value <= tokensMax then .ok (some value.toNat) else .error "The adapter returned invalid token usage."
  | .some _ => .error "The adapter returned invalid token usage."

def chunkFinish : Option Value -> Except String FinishReason
  | .none => .ok .unset
  | .some value =>
    if value = .str (Text.ofString "") then .ok .unset
    else if value = .str (Text.ofString "stop") then .ok .stop
    else if value = .str (Text.ofString "length") then .ok .length
    else if value = .str (Text.ofString "content_filter") then .ok .contentFilter
    else .error "The adapter returned an invalid finish reason."

/-- `_chunk`: the record, or the text of its `_StreamError`. -/
def chunk : Option Raw -> Except String Item
  | .none => .error "The adapter returned an invalid stream record."
  | .some raw => do
      let text <- chunkText raw.text
      let thinking <- chunkText raw.thinking
      let tokensIn <- chunkTokens raw.tokensIn
      let tokensOut <- chunkTokens raw.tokensOut
      let done <- match raw.done with
        | .none => .ok false
        | .some (.bool done) => .ok done
        | .some _ => .error "The adapter returned an invalid terminal marker."
      let finishReason <- chunkFinish raw.finishReason
      if (raw.error.map Value.truth).getD false then .error "The adapter reported a failed response."
      else .ok { text, thinking, tokensIn, tokensOut, done, finishReason }

def Item.produces (item : Item) : Bool := !(item.text ++ item.thinking).isEmpty

def Item.uses (item : Item) : Bool := item.produces || item.tokensIn.isSome || item.tokensOut.isSome

inductive Failure
  | cancelled (reason : String)
  | requestRejected (message : String) (spent : Bool)
  | admissionChanged
  | quotaExhausted (resetsAt : Option ℚ)
  | streamError (message : String)
  | other (timedOut requiresQuarantine : Bool)

/-- What ends `chat_stream` other than its return. -/
inductive Raised
  | capacityUnavailable (message : String)
  | runtimeError (message : String)
  | streamError (message : String)
  | rejectedAfterSending (message : String)
  | cancelled (reason : String)
  | storage
  | generatorExit
deriving DecidableEq

inductive Outcome
  | returned
  | raised (problem : Raised)
deriving DecidableEq

structure Holder where
  accountId : ℕ
  leaseId : ℕ
deriving DecidableEq

inductive Event
  | claimed (holder : Holder)
  | opened (holder : Holder) (closable : Bool)
  | yielded (holder : Holder) (item : Item)
  | recorded (holder : Holder) (tokensIn tokensOut : ℕ)
  | rested (holder : Holder) (cooldownUntil : ℚ) (error : String)
  | quarantined (holder : Holder)
  | closed (holder : Holder)
  | released (holder : Holder)
deriving DecidableEq

structure Descriptor where
  name : String
  family : String
  reasoning : List String
  accountIds : Option (List ℕ)

/-- What `pooled_quota` answers. -/
structure PooledQuota where
  reporterError : Bool
  windowLeft : Option ℚ
  weeklyLeft : Option ℚ
  stale : Bool

/-- The arguments of `chat_stream`, and what its checks read before the first claim. -/
structure Request where
  provider : Provider
  modelName : String
  messages : List String
  effort : Option String
  accountId : Option ℕ
  cancelled : Option String
  connected : Bool
  reportsStart : Bool
  discoveryOk : Bool
  models : List Descriptor
  quota : PooledQuota

/-- `LABELS`. -/
def Provider.label : Provider -> String
  | .claude => "Claude"
  | .codex => "Codex"

/-- `_AccountUsage`, less its lease and its request. -/
structure Usage where
  tokensIn : ℕ
  tokensOut : ℕ
  charsOut : ℕ
  bytesOut : ℕ
  records : ℕ
  promptKnown : Bool
  completionKnown : Bool
  produced : Bool
  interrupted : Bool
  settled : Bool

def Usage.empty : Usage :=
  { tokensIn := 0, tokensOut := 0, charsOut := 0, bytesOut := 0, records := 0, promptKnown := false,
    completionKnown := false, produced := false, interrupted := false, settled := false }

/-- `observe`: what it leaves, and what it raises.  A text that cannot be encoded
raises an error of Python's own. -/
def Usage.observe (usage : Usage) (item : Item) : Usage × Option Failure :=
  let counted := { usage with
    records := usage.records + 1,
    tokensIn := usage.tokensIn + item.tokensIn.getD 0,
    tokensOut := usage.tokensOut + item.tokensOut.getD 0,
    promptKnown := usage.promptKnown || item.tokensIn.isSome,
    completionKnown := usage.completionKnown || item.tokensOut.isSome }
  if tokensMax < counted.tokensIn \/ tokensMax < counted.tokensOut then
    (counted, some (.streamError "The adapter exceeded its token accounting bound."))
  else
    match (item.text ++ item.thinking).encode with
    | none => (counted, some (.other false false))
    | some bytes =>
      let measured := { counted with
        bytesOut := counted.bytesOut + bytes.length,
        charsOut := counted.charsOut + (item.text ++ item.thinking).length }
      if maxStreamBytes < measured.bytesOut \/ maxStreamRecords < measured.records then
        (measured, some (.streamError "The response exceeded the output limit."))
      else
        ({ measured with produced := measured.produced || item.produces }, none)

def Usage.due (usage : Usage) : Bool :=
  usage.produced || usage.promptKnown || usage.completionKnown || usage.interrupted

/-- `settle`: what it logs and leaves, and what it raises.  `saves` is whether
`record_usage` succeeds. -/
def Usage.settle (messages : List String) (holder : Holder) (saves : Bool) (usage : Usage) :
  List Event × Usage × Option Failure :=
  if usage.settled then
    ([], usage, none)
  else if usage.due then
    let prompt := if usage.promptKnown then usage.tokensIn else (messages.map Runs.estimateTokens).sum
    let completion := if usage.completionKnown then usage.tokensOut else (usage.charsOut + 3) / 4
    if saves then
      ([.recorded holder prompt completion], { usage with settled := true }, none)
    else
      ([], usage, some (.streamError "Usage could not be recorded. Try again later."))
  else
    ([], { usage with settled := true }, none)

/-- What an update of the account answers: done, refused because the lease is
lost (the request is then cancelled, for this or an earlier reason), or an error. -/
inductive Answer
  | done
  | lost (reason : String)
  | raised

/-- One turn of the loop over the stream: what the stream gives, whether the
request turns out cancelled or its lease lost, and whether the consumer closes the
generator when it is given the record. -/
structure Pull where
  next : Except Failure (Option Raw)
  lost : Option String
  closes : Bool

structure Attempt where
  cancelled : Option String
  stream : Except Failure Bool
  pulls : List Pull
  started : Bool
  lost : Option String
  now : ℚ
  reportedReset : Option ℚ
  quarantines : Answer
  rests : Answer
  mayRest : Bool
  closes : Bool
  quarantinesUnclosed : Answer
  savesBeforeEnd : Bool
  savesAtEnd : Bool

/-- One turn of `_claim_waiting`: what the request's cancellation or the storage
raises, the usable accounts in order, the claims that succeed with their lease ids,
whether waiting ends here, and what a cancellation during the wait raises. -/
structure Poll where
  raises : Option Raised
  rows : List Account
  granted : List (ℕ × ℕ)
  last : Bool
  raisesWaiting : Option Raised

structure Round where
  polls : List Poll
  attempt : Attempt

def claimAccount (descriptor : Descriptor) (accountId : Option ℕ) (tried : List ℕ) (poll : Poll) : Option (Account × ℕ) :=
  let eligible := fun account : Account =>
    (account.id ∉ tried) && (accountId = none \/ accountId = some account.id) && (match descriptor.accountIds with
        | none => true
        | some ids => account.id ∈ ids)
  (poll.rows.filter eligible).findSome? (fun account =>
    (poll.granted.lookup account.id).map fun leaseId => (account, leaseId))

def claimWaiting (descriptor : Descriptor) (accountId : Option ℕ) (tried : List ℕ) : List Poll -> Except Raised (Option (Account × ℕ))
  | [] => .ok none
  | poll :: rest =>
    match poll.raises with
    | some problem => .error problem
    | none =>
      match claimAccount descriptor accountId tried poll with
      | some claimed => .ok (some claimed)
      | none =>
        if poll.last then .ok none
        else match poll.raisesWaiting with
          | some problem => .error problem
          | none => claimWaiting descriptor accountId tried rest

/-- How the body of the `try` statement ends. -/
inductive Ending
  | returned
  | closed
  | threw (failure : Failure)

def readStream (messages : List String) (holder : Holder) (saves : Bool) : List Pull -> Usage -> List Event × Usage × Ending
  | [], usage => ([], usage, .threw (.streamError "The model stopped before finishing its answer."))
  | pull :: rest, usage =>
    match pull.next with
    | .error failure => ([], usage, .threw failure)
    | .ok raw =>
      match pull.lost with
      | some reason => ([], usage, .threw (.cancelled reason))
      | none =>
        match chunk raw with
        | .error message => ([], usage, .threw (.streamError message))
        | .ok item =>
          match usage.observe item with
          | (observed, some failure) => ([], observed, .threw failure)
          | (observed, none) =>
            if item.done then
              match observed.settle messages holder saves with
              | (events, settled, some failure) => (events, settled, .threw failure)
              | (events, settled, none) =>
                (events ++ [.yielded holder item], settled, if pull.closes then .closed else .returned)
            else if pull.closes then
              ([.yielded holder item], observed, .closed)
            else
              let later := readStream messages holder saves rest observed
              (.yielded holder item :: later.1, later.2)

structure Progress where
  tried : List ℕ
  lastError : String
  capacityUnavailable : Bool
  restedForFailure : Bool

inductive Verdict
  | retry (progress : Progress)
  | stop (outcome : Outcome)

def cooldownError : ℚ := 5 * 60

def quotaReturns (resetsAt reportedReset : Option ℚ) (windowEnd : Option ℤ) (now : ℚ) : ℚ :=
  let ahead := match windowEnd with
    | none => now + 3600
    | some reset => if now < reset then (reset : ℚ) else now + 3600
  max ((resetsAt.or reportedReset).getD ahead) (now + 60)

def conclude (progress : Progress) (usage : Usage) (message : String) (timedOut spent rested : Bool) (events : List Event) :
  List Event × Usage × Verdict :=
  if spent then
    (events, { usage with interrupted := true }, .stop (.raised (.rejectedAfterSending message)))
  else if (usage.produced || usage.settled || timedOut) then
    (events, usage, .stop (.raised (.runtimeError message)))
  else
    (events, usage, .retry { progress with capacityUnavailable := false, lastError := message, restedForFailure := rested })

section

variable (request : Request)

def handleOther (holder : Holder) (attempt : Attempt) (progress : Progress) (usage : Usage)
  (message : String) (timedOut requiresQuarantine : Bool) : List Event × Usage × Verdict :=
  let started := attempt.started || !request.reportsStart
  let spent := timedOut && attempt.started && !usage.produced
  if requiresQuarantine then
    match attempt.quarantines with
    | .done => conclude progress usage message timedOut spent progress.restedForFailure [.quarantined holder]
    | .lost reason => ([], usage, .stop (.raised (.cancelled reason)))
    | .raised => ([], usage, .stop (.raised .storage))
  else if started = false \/ (timedOut && usage.produced) then
    conclude progress usage message timedOut spent progress.restedForFailure []
  else if progress.restedForFailure \/ attempt.mayRest = false then
    if spent then
      ([], { usage with interrupted := true }, .stop (.raised (.rejectedAfterSending "The adapter could not answer.")))
    else
      ([], usage, .stop (.raised (.runtimeError "The adapter could not answer.")))
  else
    match attempt.rests with
    | .done => conclude progress usage message timedOut spent true
        [.rested holder (attempt.now + cooldownError) "The adapter request failed."]
    | .lost reason => ([], usage, .stop (.raised (.cancelled reason)))
    | .raised => ([], usage, .stop (.raised .storage))

section

variable (account : Account) (holder : Holder) (attempt : Attempt)

/-- The handlers of the `try` statement, with the lease still held.  A
cancellation does not come here. -/
def handleHeld (progress : Progress)
    (usage : Usage) : Failure -> List Event × Usage × Verdict
  | .cancelled reason => ([], usage, .stop (.raised (.cancelled reason)))
  | .requestRejected message spent =>
    if (spent && attempt.started) then
      ([], { usage with interrupted := true }, .stop (.raised (.rejectedAfterSending message)))
    else
      ([], usage, .stop (.raised (.runtimeError message)))
  | .admissionChanged =>
    let lastError := "The account's availability changed. Try again."
    if (usage.produced || usage.settled) then ([], usage, .stop (.raised (.streamError lastError)))
    else ([], usage, .retry { progress with lastError })
  | .quotaExhausted resetsAt =>
    let returns := quotaReturns resetsAt attempt.reportedReset account.windowResetsAt attempt.now
    let lastError := request.provider.label ++ " has no available quota right now. Try again later."
    match attempt.rests with
    | .lost reason => ([], usage, .stop (.raised (.cancelled reason)))
    | .raised => ([], usage, .stop (.raised .storage))
    | .done =>
      let events := [Event.rested holder returns "Provider quota is exhausted."]
      if usage.produced then (events, usage, .stop (.raised (.runtimeError lastError)))
      else (events, usage, .retry { progress with lastError })
  | .streamError message => handleOther request holder attempt progress usage message false false
  | .other timedOut requiresQuarantine =>
    handleOther request holder attempt progress usage "The adapter could not answer." timedOut requiresQuarantine

/-- The handlers of the `try` statement.  Each but that of a cancellation first
requires the lease. -/
def handle (opened : Bool) (progress : Progress)
    (usage : Usage) : Ending -> List Event × Usage × Verdict
  | .returned => ([], usage, .stop .returned)
  | .closed => ([], usage, .stop (.raised .generatorExit))
  | .threw failure =>
    match failure, attempt.lost with
    | .cancelled reason, _ => ([], { usage with interrupted := opened }, .stop (.raised (.cancelled reason)))
    | _, some reason => ([], usage, .stop (.raised (.cancelled reason)))
    | failure, none => handleHeld request account holder attempt progress usage failure

end

/-- The usage is settled and the lease released; a usage that cannot be recorded
replaces the verdict. -/
def settleAndRelease (holder : Holder) (saves : Bool) (usage : Usage) (verdict : Verdict)
  (events : List Event) : List Event × Verdict :=
  match usage.settle request.messages holder saves with
  | (saved, _, none) => (events ++ saved ++ [.released holder], verdict)
  | (saved, _, some _) =>
    (events ++ saved ++ [.released holder], .stop (.raised (.streamError "Usage could not be recorded. Try again later.")))

/-- The `finally` clause, and the end of the `with` statement.  An account whose
stream cannot be closed is quarantined. -/
def cleanUp (holder : Holder) (attempt : Attempt) (closable : Bool) (usage : Usage) (verdict : Verdict) :
  List Event × Verdict :=
  if closable = false then
    settleAndRelease request holder attempt.savesAtEnd usage verdict []
  else if attempt.closes then
    settleAndRelease request holder attempt.savesAtEnd usage verdict [.closed holder]
  else
    match attempt.quarantinesUnclosed with
    | .done => settleAndRelease request holder attempt.savesAtEnd usage verdict [.closed holder, .quarantined holder]
    | .lost _ => settleAndRelease request holder attempt.savesAtEnd usage verdict [.closed holder]
    | .raised => ([.closed holder, .released holder], .stop (.raised .storage))

/-- The body of the `try` statement. -/
def runStream (holder : Holder) (attempt : Attempt) : List Event × Usage × Ending :=
  match attempt.cancelled with
  | some reason => ([], Usage.empty, .threw (.cancelled reason))
  | none =>
    match attempt.stream with
    | .error failure => ([], Usage.empty, .threw failure)
    | .ok closable =>
      let read := readStream request.messages holder attempt.savesBeforeEnd attempt.pulls Usage.empty
      (.opened holder closable :: read.1, read.2)

end

def Attempt.opens (attempt : Attempt) : Option Bool :=
  match attempt.cancelled, attempt.stream with
  | none, .ok closable => some closable
  | _, _ => none

def attemptAccount (request : Request) (account : Account) (holder : Holder) (attempt : Attempt) (progress : Progress) :
  List Event × Verdict :=
  let ran := runStream request holder attempt
  let handled := handle request account holder attempt attempt.opens.isSome progress ran.2.1 ran.2.2
  let cleaned := cleanUp request holder attempt (attempt.opens.getD false) handled.2.1 handled.2.2
  (.claimed holder :: ran.1 ++ handled.1 ++ cleaned.1, cleaned.2)

def exhausted (progress : Progress) : Outcome :=
  if progress.capacityUnavailable then .raised (.capacityUnavailable progress.lastError)
  else .raised (.runtimeError progress.lastError)

def tryAccounts (request : Request) (descriptor : Descriptor) : List Round -> Progress -> List Event × Outcome
  | [], progress => ([], exhausted progress)
  | round :: rest, progress =>
    match claimWaiting descriptor request.accountId progress.tried round.polls with
    | .error problem => ([], .raised problem)
    | .ok none => ([], exhausted progress)
    | .ok (some (account, leaseId)) =>
      let holder := { accountId := account.id, leaseId }
      let tried := { progress with tried := account.id :: progress.tried }
      match attemptAccount request account holder round.attempt tried with
      | (events, .stop outcome) => (events, outcome)
      | (events, .retry after) =>
        if request.accountId.isSome then (events, exhausted after)
        else
          let later := tryAccounts request descriptor rest after
          (events ++ later.1, later.2)

def checkRequest (request : Request) : Except Raised Descriptor :=
  match request.cancelled with
  | some reason => .error (.cancelled reason)
  | none =>
    if request.connected = false then
      .error (.runtimeError (request.provider.label ++ " is not connected. Configure an authorized adapter before using it."))
    else
      match request.discoveryOk, request.models.find? (·.name = request.modelName) with
      | true, some descriptor =>
        let level := if request.effort = some "xhigh" then some "extra" else request.effort
        let supported := match level with
          | none => true
          | some level => (level ∈ descriptor.reasoning) || ((level = "off") && descriptor.reasoning.isEmpty)
        let spent := fun left : Option ℚ => match left with
          | none => false
          | some left => left <= 0
        if supported = false then
          .error (.runtimeError "The configured model does not support this reasoning level.")
        else if (request.quota.reporterError || spent request.quota.windowLeft || spent request.quota.weeklyLeft) then
          if (request.quota.reporterError || request.quota.stale) then
            .error (.capacityUnavailable (request.provider.label ++ " usage is unavailable. Try again shortly."))
          else
            .error (.capacityUnavailable (request.provider.label ++ " has no available quota right now. Try again later."))
        else
          .ok descriptor
      | _, _ => .error (.runtimeError "The configured adapter has not reported this model as available.")

/-- `chat_stream`: its log and its end. -/
def chatStream (request : Request) (rounds : List Round) : List Event × Outcome :=
  match checkRequest request with
  | .error problem => ([], .raised problem)
  | .ok descriptor =>
    tryAccounts request descriptor rounds
      { tried := [], lastError := request.provider.label ++ " is currently at capacity. Try again shortly.",
        capacityUnavailable := true, restedForFailure := false }

end BananaChat.Subscriptions

import BananaChat.Runs.Completions

namespace BananaChat.Runs

open Foundation Credits Rows

/-!
# Chat runs

A chat run takes the one row of `active_streams` its session may have.
-/

/-- The `generation_state` of a chat or a message. -/
inductive GenerationState
  | idle
  | queued
  | running
  | completed
  | stopped
  | failed
  | interrupted

/-- `TERMINAL_STATES`. -/
def GenerationState.terminal : GenerationState -> Bool
  | .completed => true
  | .stopped => true
  | .failed => true
  | .interrupted => true
  | _ => false

def GenerationState.status : GenerationState -> MetricStatus
  | .stopped => .stopped
  | .failed => .failed
  | .interrupted => .interrupted
  | _ => .ok

inductive Role
  | user
  | assistant
deriving DecidableEq

structure ChatSession where
  id : ℕ
  userId : ℕ
  title : String
  isIncognito : Bool
  deleted : Bool
  generationState : GenerationState
  generationError : String
  generationMessageId : Option ℕ

structure ChatMessage where
  id : ℕ
  sessionId : ℕ
  role : Role
  content : String
  modelId : Option ℕ
  tokensIn : ℤ
  tokensOut : ℤ
  generationState : GenerationState
  usageEstimated : Bool
  createdAt : ℤ
  attachments : List ℕ

/-- A row of `incognito_audit`, the copy of a message of a no-history chat. -/
structure AuditCopy where
  id : ℕ
  sessionId : ℕ
  userId : ℕ
  role : Role
  content : String
  modelId : Option ℕ
  tokensIn : ℤ
  tokensOut : ℤ
  createdAt : ℤ

/-- A row of `active_streams`, whose key is the session. -/
structure ActiveStream where
  sessionId : ℕ
  ownerToken : ℕ
  stopRequested : Bool
  heartbeatAt : ℚ
  startedAt : ℚ
  userMessageId : ℕ
  userId : Option ℕ
  isIncognito : Bool
  modelId : Option ℕ
  partialContent : String
  tokensIn : ℕ
  tokensOut : ℕ
deriving DecidableEq

structure ChatStore where
  sessions : List ChatSession
  messages : List ChatMessage
  nextMessage : ℕ
  audit : List AuditCopy
  nextAudit : ℕ
  streams : List ActiveStream
  nextToken : ℕ
  books : Books
  metrics : List RequestMetric

namespace ChatStore

def session (store : ChatStore) (sessionId : ℕ) : Option ChatSession := store.sessions.find? (·.id = sessionId)

def message (store : ChatStore) (messageId : ℕ) : Option ChatMessage := store.messages.find? (·.id = messageId)

/-- `UPDATE chat_sessions SET ... WHERE id=sessionId`. -/
def updateSession (store : ChatStore) (sessionId : ℕ) (change : ChatSession -> ChatSession) : ChatStore :=
  { store with sessions := updateWhere (·.id = sessionId) change store.sessions }

end ChatStore

/-- `add_message` and `add_attachments`: the tables, and the new message's id. -/
def addMessage (now : ℚ) (message : ChatMessage) (userId : ℕ) (incognito : Bool) (store : ChatStore) : ChatStore × ℕ :=
  let stored := { message with id := store.nextMessage, createdAt := ⌊now⌋ }
  let copy : AuditCopy :=
    { id := store.nextAudit
      sessionId := message.sessionId
      userId := userId
      role := message.role
      content := message.content
      modelId := message.modelId
      tokensIn := message.tokensIn
      tokensOut := message.tokensOut
      createdAt := ⌊now⌋ }
  ({ store with
      messages := store.messages ++ [stored]
      nextMessage := store.nextMessage + 1
      audit := if incognito then store.audit ++ [copy] else store.audit
      nextAudit := if incognito then store.nextAudit + 1 else store.nextAudit },
    store.nextMessage)

def defaultTitle : String := "New Chat"

def maxTitle : ℕ := 100

/-- `set_title_if_untitled`: the tables, and whether the chat had no title. -/
def setTitleIfUntitled (sessionId : ℕ) (title : String) (store : ChatStore) : ChatStore × Bool :=
  let untitled := fun session : ChatSession =>
    decide (session.id = sessionId /\ (session.title = defaultTitle \/ session.title.toList.all (· = ' ')))
  ({ store with
      sessions := updateWhere untitled (fun session => { session with title := String.ofList (title.toList.take maxTitle) })
        store.sessions },
    (affected untitled store.sessions = 1))

/-- `_WIDE`: characters that take about one token each. -/
def isWide (letter : Char) : Bool :=
  [(0x1100, 0x11ff), (0x2e80, 0x9fff), (0xa960, 0xa97f), (0xac00, 0xd7ff), (0xf900, 0xfaff), (0xff00, 0xffef),
    (0x20000, 0x3ffff)].any (fun range => range.1 <= letter.toNat /\ letter.toNat <= range.2)

def estimateTokens (text : String) : ℕ :=
  let wide := text.toList.countP isWide
  wide + (text.length - wide + 3) / 4

/-- The arguments of `finish` and `_commit`. -/
structure Outcome where
  userId : ℕ
  content : String
  state : GenerationState
  error : String
  modelId : Option ℕ
  tokensIn : ℤ
  tokensOut : ℤ
  usageEstimated : Bool
  durationMs : ℤ
  queueWaitMs : ℤ
  charge : Bool

def storeAnswer (site : Credits.Site) (now : ℚ) (sessionId : ℕ) (outcome : Outcome) (incognito : Bool) (store : ChatStore) :
  ChatStore :=
  match store.session sessionId with
  | none => store
  | some session =>
    if session.deleted then store
    else
      let answer : ChatMessage :=
        { id := 0
          sessionId := sessionId
          role := .assistant
          content := outcome.content
          modelId := site.existingModel outcome.modelId
          tokensIn := outcome.tokensIn
          tokensOut := outcome.tokensOut
          generationState := outcome.state
          usageEstimated := outcome.usageEstimated
          createdAt := 0
          attachments := [] }
      let added := addMessage now answer session.userId incognito store
      let stored := if outcome.content = "" then (store, none) else (added.1, some added.2)
      stored.1.updateSession sessionId fun session =>
        { session with
          generationState := outcome.state
          generationError := String.ofList (outcome.error.toList.take 500)
          generationMessageId := stored.2 }

section

variable (outcome : Outcome) (site : Credits.Site)

def Outcome.chargeRequest (incognito : Bool) (token : ℕ) : ChargeRequest where
  userId := outcome.userId
  tokensIn := outcome.tokensIn
  tokensOut := outcome.tokensOut
  requestType := if incognito then .chatIncognito else .chat
  modelId := site.existingModel outcome.modelId
  tokenId := none
  usageEstimated := outcome.usageEstimated
  origin := some token

def Outcome.metric (now : ℚ) (incognito : Bool) : RequestMetric where
  requestType := if incognito then .chatIncognito else .chat
  modelId := site.existingModel outcome.modelId
  userId := (site.user outcome.userId).map User.id
  tokensIn := if outcome.charge then outcome.tokensIn.toNat else 0
  tokensOut := if outcome.charge then outcome.tokensOut.toNat else 0
  durationMs := outcome.durationMs.toNat
  queueWaitMs := outcome.queueWaitMs.toNat
  status := outcome.state.status
  createdAt := ⌊now⌋
  usageEstimated := outcome.usageEstimated

/-- Whether `_commit` charges. -/
def Outcome.charged : Bool :=
  outcome.charge && (site.user outcome.userId).isSome && (outcome.tokensIn ≠ 0 \/ outcome.tokensOut ≠ 0)

end

section

variable (site : Credits.Site)

/-- `_commit`.  The table has no column for the run's token; the charge keeps it
to tell whose it is. -/
def commit (now : ℚ) (sessionId : ℕ) (token : ℕ) (outcome : Outcome) (leaseIncognito : Bool)
  (store : ChatStore) : ChatStore :=
  let incognito := ((store.session sessionId).map ChatSession.isIncognito).getD leaseIncognito
  let answered := storeAnswer site now sessionId outcome incognito store
  { answered with
    books :=
      if outcome.charged site then (charge site now (outcome.chargeRequest site incognito token) answered.books).1
      else answered.books
    metrics := answered.metrics ++ [outcome.metric site now incognito]
    streams := deleteWhere (·.sessionId = sessionId) answered.streams }

def ActiveStream.owned (sessionId token : ℕ) (row : ActiveStream) : Bool :=
  row.sessionId = sessionId /\ row.ownerToken = token

/-- `finish`; none when the state is not a terminal one or the lease was lost. -/
def finish (now : ℚ) (sessionId token : ℕ) (outcome : Outcome) (store : ChatStore) : Option ChatStore :=
  if outcome.state.terminal then
    match store.streams.find? (ActiveStream.owned sessionId token) with
    | none => none
    | some lease => some (commit site now sessionId token outcome lease.isIncognito store)
  else none

def ActiveStream.stale (now : ℚ) (row : ActiveStream) : Bool := row.heartbeatAt < now - leaseSeconds

def ActiveStream.outcome (row : ActiveStream) (userId : ℕ) (store : ChatStore) : Outcome :=
  let prompt := ((store.message row.userMessageId).map (·.content.length)).getD 0
  let charge := (row.partialContent ≠ "") || (row.tokensOut ≠ 0)
  { userId := userId
    content := row.partialContent
    state := .interrupted
    error := ""
    modelId := row.modelId
    tokensIn := if charge then (max row.tokensIn ((prompt + 3) / 4) : ℕ) else 0
    tokensOut := (max row.tokensOut (estimateTokens row.partialContent) : ℕ)
    usageEstimated := true
    durationMs := ⌊max 0 (row.heartbeatAt - row.startedAt) * 1000⌋
    queueWaitMs := 0
    charge := charge }

/-- One turn of the loop of `_recover`. -/
def recoverStream (now : ℚ) (store : ChatStore) (row : ActiveStream) : ChatStore :=
  let account := ((store.session row.sessionId).map ChatSession.userId).or row.userId
  match account with
  | none =>
    { store with streams := deleteWhere (·.sessionId = row.sessionId) store.streams }
  | some userId =>
    commit site now row.sessionId row.ownerToken (row.outcome userId store) row.isIncognito store

/-- `_recover`. -/
def recoverStreams (now : ℚ) (rows : List ActiveStream) (store : ChatStore) : ChatStore :=
  rows.foldl (recoverStream site now) store

structure Begun where
  token : ℕ
  messageId : ℕ
  title : Option String
  previousTitle : String

def userBusy (now : ℚ) (userId : ℕ) (store : ChatStore) : Bool :=
  store.streams.any fun row =>
    (row.userId.or ((store.session row.sessionId).map ChatSession.userId) = some userId) && !row.stale now

/-- The arguments of `begin`. -/
structure Question where
  sessionId : ℕ
  userId : ℕ
  content : String
  attachments : List ℕ
  title : Option String
  onePerUser : Bool

/-- The part of `begin` after its checks. -/
def beginRun (now : ℚ) (question : Question) (session : ChatSession) (store : ChatStore) : ChatStore × Begun :=
  let asked : ChatMessage :=
    { id := 0
      sessionId := question.sessionId
      role := .user
      content := question.content
      modelId := none
      tokensIn := 0
      tokensOut := 0
      generationState := .completed
      usageEstimated := false
      createdAt := 0
      attachments := question.attachments }
  let added := addMessage now asked question.userId session.isIncognito store
  let titled :=
    match question.title with
    | none => (added.1, none)
    | some title =>
      let set := setTitleIfUntitled question.sessionId title added.1
      if title ≠ "" /\ set.2 then (set.1, some title) else (added.1, none)
  let row : ActiveStream :=
    { sessionId := question.sessionId
      ownerToken := store.nextToken
      stopRequested := false
      heartbeatAt := now
      startedAt := now
      userMessageId := added.2
      userId := some question.userId
      isIncognito := session.isIncognito
      modelId := none
      partialContent := ""
      tokensIn := 0
      tokensOut := 0 }
  let begun : Begun :=
    { token := store.nextToken
      messageId := added.2
      title := titled.2
      previousTitle := session.title }
  (({ titled.1 with streams := titled.1.streams ++ [row], nextToken := store.nextToken + 1 } : ChatStore).updateSession
      question.sessionId
      (fun session =>
        { session with
          generationState := .queued
          generationError := ""
          generationMessageId := none }),
    begun)

/-- `begin`, on the stale rows its query answered; none when it raises, which
undoes the whole transaction. -/
def begin (now : ℚ) (rows : List ActiveStream) (question : Question) (store : ChatStore) :
  Option (ChatStore × Begun) :=
  let recovered := recoverStreams site now rows store
  if recovered.streams.any (·.sessionId = question.sessionId) then none
  else if question.onePerUser && userBusy now question.userId recovered then none
  else
    match (recovered.session question.sessionId).filter (!·.deleted) with
    | none => none
    | some session => some (beginRun now question session recovered)

/-- The audit copy that `abort` deletes: the last one of the message. -/
def auditCopyOf (messageId : ℕ) (store : ChatStore) : Option ℕ :=
  match store.message messageId with
  | none => none
  | some message =>
    (store.audit.filter (fun copy =>
      decide (copy.sessionId = message.sessionId /\ copy.role = message.role /\ copy.content = message.content /\
        copy.createdAt = message.createdAt))).map AuditCopy.id |>.max?

/-- `abort`: the tables, and whether the run still had its lease. -/
def abort (sessionId : ℕ) (begun : Begun) (store : ChatStore) : ChatStore × Bool :=
  let selected := ActiveStream.owned sessionId begun.token
  if affected selected store.streams = 0 then (store, false)
  else
    let taken :=
      { store with
        streams := deleteWhere selected store.streams
        audit := deleteWhere (auditCopyOf begun.messageId store = some ·.id) store.audit
        messages := deleteWhere (·.id = begun.messageId) store.messages }
    let retitled :=
      match begun.title with
      | none => taken
      | some title =>
        if title = "" then taken
        else
          { taken with
            sessions := updateWhere (fun session => session.id = sessionId /\ session.title = title)
              (fun session => { session with title := begun.previousTitle }) taken.sessions }
    (retitled.updateSession sessionId
      (fun session =>
        { session with
          generationState := .idle
          generationError := "" }),
      true)

/-- `UPDATE active_streams SET ... WHERE session_id=? AND owner_token=?`. -/
def updateStream (sessionId token : ℕ) (change : ActiveStream -> ActiveStream) (store : ChatStore) : ChatStore :=
  { store with streams := updateWhere (ActiveStream.owned sessionId token) change store.streams }

/-- `mark_running`: the tables, and whether the run still had its lease. -/
def markRunning (sessionId token : ℕ) (modelId : Option ℕ) (store : ChatStore) : ChatStore × Bool :=
  let updated := affected (ActiveStream.owned sessionId token) store.streams
  let marked := updateStream sessionId token (fun row => { row with modelId := site.existingModel modelId }) store
  (if updated = 0 then marked
    else marked.updateSession sessionId (fun session => { session with generationState := .running }),
    (updated = 1))

/-- `checkpoint`: the tables, and whether the run still had its lease. -/
def checkpoint (sessionId token : ℕ) (content : String) (modelId : Option ℕ) (tokensIn tokensOut : ℤ)
  (store : ChatStore) : ChatStore × Bool :=
  (updateStream sessionId token
      (fun row =>
        { row with
          partialContent := content
          modelId := site.existingModel modelId
          tokensIn := tokensIn.toNat
          tokensOut := tokensOut.toNat })
      store,
    (affected (ActiveStream.owned sessionId token) store.streams = 1))

end

def expire (sessionId token : ℕ) (store : ChatStore) : ChatStore × Bool :=
  (updateStream sessionId token (fun row => { row with heartbeatAt := 0 }) store,
    (affected (ActiveStream.owned sessionId token) store.streams = 1))

def renewStream (now : ℚ) (sessionId token : ℕ) (store : ChatStore) : ChatStore :=
  updateStream sessionId token (fun row => { row with heartbeatAt := now }) store

section

variable (sessionId : ℕ) (store : ChatStore)

def requestStop : ChatStore :=
  { store with
    streams := updateWhere (·.sessionId = sessionId) (fun row => { row with stopRequested := true })
      store.streams }

def softDelete : ChatStore :=
  (requestStop sessionId store).updateSession sessionId (fun session => { session with deleted := true })

/-- `hard_delete`, with the messages that go with their chat. -/
def hardDelete : ChatStore :=
  let stopped := requestStop sessionId store
  { stopped with
    sessions := deleteWhere (·.id = sessionId) stopped.sessions
    messages := deleteWhere (·.sessionId = sessionId) stopped.messages }

end

/-- The steps of any number of sessions and processes.  A process keeps nothing
that the tables depend on, so a crash is only that its steps no longer come.
`chargeElsewhere` is any charge that is not of a chat run. -/
inductive ChatAction
  | begin (site : Credits.Site) (now : ℚ) (rows : List ActiveStream) (question : Question)
  | abort (sessionId : ℕ) (begun : Begun)
  | markRunning (site : Credits.Site) (sessionId token : ℕ) (modelId : Option ℕ)
  | checkpoint (site : Credits.Site) (sessionId token : ℕ) (content : String) (modelId : Option ℕ) (tokensIn tokensOut : ℤ)
  | renew (now : ℚ) (sessionId token : ℕ)
  | expire (sessionId token : ℕ)
  | finish (site : Credits.Site) (now : ℚ) (sessionId token : ℕ) (outcome : Outcome)
  | recoverStale (site : Credits.Site) (now : ℚ) (rows : List ActiveStream)
  | requestStop (sessionId : ℕ)
  | softDelete (sessionId : ℕ)
  | hardDelete (sessionId : ℕ)
  | chargeElsewhere (site : Credits.Site) (now : ℚ) (request : ChargeRequest)

def chatNext (store : ChatStore) : ChatAction -> ChatStore
  | .begin site now rows question => ((begin site now rows question store).map Prod.fst).getD store
  | .abort sessionId begun => (abort sessionId begun store).1
  | .markRunning site sessionId token modelId => (markRunning site sessionId token modelId store).1
  | .checkpoint site sessionId token content modelId tokensIn tokensOut =>
    (checkpoint site sessionId token content modelId tokensIn tokensOut store).1
  | .renew now sessionId token => renewStream now sessionId token store
  | .expire sessionId token => (expire sessionId token store).1
  | .finish site now sessionId token outcome => (finish site now sessionId token outcome store).getD store
  | .recoverStale site now rows => recoverStreams site now rows store
  | .requestStop sessionId => requestStop sessionId store
  | .softDelete sessionId => softDelete sessionId store
  | .hardDelete sessionId => hardDelete sessionId store
  | .chargeElsewhere site now request => { store with books := (charge site now request store.books).1 }

/-- An answer of a recovery query: stale rows of the table, none twice, in any
order. -/
structure RecoverableStreams (now : ℚ) (streams rows : List ActiveStream) : Prop where
  distinct : rows.Nodup
  stored : ∀ row ∈ rows, row ∈ streams
  stale : ∀ row ∈ rows, row.stale now

/-- `begin` recovers every stale row, `recover_stale` those of its session or at
most `recoverLimit`. -/
def chatEnabled (store : ChatStore) : ChatAction -> Prop
  | .begin _ now rows _ => RecoverableStreams now store.streams rows /\
      ∀ row ∈ store.streams, row.stale now -> row ∈ rows
  | .recoverStale _ now rows => RecoverableStreams now store.streams rows /\ rows.length <= recoverLimit
  | .chargeElsewhere _ _ request => request.origin = none
  | _ => True

def chatMachine : Machine ChatStore ChatAction where
  initial := fun store => store.streams = [] /\ store.books = ⟨[], []⟩
  enabled := chatEnabled
  next := chatNext

end BananaChat.Runs

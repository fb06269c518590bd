import BananaChat.Agents.Tasks
import BananaChat.Foundation.Paging
import BananaChat.Runs.ChatRuns

namespace BananaChat.Chats

open Foundation

/-!
# Messages and steps by pages

A page is cut by a number of rows and by the bytes of their texts.
-/

inductive Role
  | user
  | assistant
  | system

/-- A row of `chat_messages`. -/
structure MessageRow where
  id : ℕ
  sessionId : ℕ
  role : Role
  content : Text
  modelId : Option ℕ
  modelLabel : Option String
  tokensIn : ℤ
  tokensOut : ℤ
  createdAt : ℤ
  generationState : Runs.GenerationState
  usageEstimated : Bool

/-- What a page reads of a row of `ai_models`. -/
structure ModelNames where
  id : ℕ
  displayName : String
  ollamaName : String

structure ChatTables where
  messages : List MessageRow
  models : List ModelNames
  rising : messages.Pairwise (fun one other => one.id < other.id)
  /-- `AUTOINCREMENT` starts at 1. -/
  positive : ∀ row ∈ messages, 0 < row.id

/-- `MESSAGE_COLUMNS`. -/
structure PageMessage where
  row : MessageRow
  modelName : Option String
  model : Option String

def PageMessage.id (message : PageMessage) : ℕ := message.row.id

def textBytes (text : Text) : ℕ := ((Text.encode text).getD []).length

def chosenIds {Row : Type} (id size : Row -> ℕ) (maxBytes : ℤ) (sizes : List Row) : List ℕ :=
  (fitting size maxBytes false 0 sizes).map id

namespace ChatTables

variable (tables : ChatTables)

def joined (row : MessageRow) : PageMessage :=
  let model := tables.models.find? (some ·.id = row.modelId)
  ⟨row, (model.map ModelNames.displayName).or row.modelLabel, model.map ModelNames.ollamaName⟩

def ofSession (sessionId : ℕ) : List MessageRow := tables.messages.filter (·.sessionId = sessionId)

/-- `WHERE id IN (...)`. -/
def named (chosen : List ℕ) : List PageMessage := (tables.messages.filter (·.id ∈ chosen)).map tables.joined

def messagePage (sessionId limit : ℕ) (maxBytes : Option ℤ) (before : Option ℕ) : List PageMessage × Bool :=
  let newest := ((tables.ofSession sessionId).filter (olderThan before ·.id)).reverse
  match maxBytes with
  | none =>
    let rows := newest.take (limit + 1)
    ((rows.take limit).reverse.map tables.joined, (limit < rows.length))
  | some bound =>
    let sizes := newest.take (limit + 1)
    let chosen := chosenIds MessageRow.id (textBytes ·.content) bound (sizes.take limit)
    if chosen = [] then ([], false)
    else (tables.named chosen, (chosen.length < sizes.length))

def messagesAfter (sessionId limit : ℕ) (maxBytes : Option ℤ) (after : ℕ) : List PageMessage :=
  let sizes := ((tables.ofSession sessionId).filter (after < ·.id)).take limit
  match maxBytes with
  | none => sizes.map tables.joined
  | some bound =>
    let chosen := chosenIds MessageRow.id (textBytes ·.content) bound sizes
    if chosen = [] then [] else tables.named chosen

def lastId (sessionId : ℕ) : ℕ := (((tables.ofSession sessionId).map MessageRow.id).max?).getD 0

/-- The rows of one turn of `iter_message_batches`. -/
def messageBatch (sessionId batch : ℕ) (maxBytes : Option ℤ) (last cursor : ℕ) : List PageMessage :=
  let sizes := ((tables.ofSession sessionId).filter fun row => (cursor < row.id) && (row.id <= last)).take batch
  match maxBytes with
  | none => sizes.map tables.joined
  | some bound =>
    let chosen := chosenIds MessageRow.id (textBytes ·.content) bound sizes
    if chosen = [] then [] else tables.named chosen

/-- The loop of `iter_message_batches`; none where the turns do not suffice. -/
def batchesFrom (sessionId batch : ℕ) (maxBytes : Option ℤ) (last : ℕ) : ℕ -> ℕ -> Option (List (List PageMessage))
  | 0, _ => none
  | turns + 1, cursor =>
    if cursor < last then
      let rows := tables.messageBatch sessionId batch maxBytes last cursor
      match rows.getLast? with
      | none => some []
      | some row => (batchesFrom sessionId batch maxBytes last turns row.id).map (rows :: ·)
    else some []

def iterMessageBatches (sessionId batch : ℕ) (maxBytes : Option ℤ) (turns : ℕ) : Option (List (List PageMessage)) :=
  tables.batchesFrom sessionId batch maxBytes (tables.lastId sessionId) turns 0

def readBack (sessionId limit : ℕ) (maxBytes : Option ℤ) : ℕ -> Option ℕ -> Option (List (List PageMessage))
  | 0, _ => none
  | requests + 1, before =>
    let page := tables.messagePage sessionId limit maxBytes before
    match page.1.head? with
    | none => some [page.1]
    | some first =>
      if page.2 then (readBack sessionId limit maxBytes requests (some first.id)).map (page.1 :: ·)
      else some [page.1]

def readOn (sessionId limit : ℕ) (maxBytes : Option ℤ) : ℕ -> ℕ -> Option (List (List PageMessage))
  | 0, _ => none
  | requests + 1, after =>
    let rows := tables.messagesAfter sessionId limit maxBytes after
    match rows.getLast? with
    | none => some []
    | some row => (readOn sessionId limit maxBytes requests row.id).map (rows :: ·)

end ChatTables

structure StepTable where
  steps : List Agents.StepRow
  rising : steps.Pairwise (fun one other => one.id < other.id)
  positive : ∀ row ∈ steps, 0 < row.id

/-- The sizes of `STEP_TEXT_COLUMNS` together. -/
def stepBytes (row : Agents.StepRow) : ℕ :=
  textBytes row.content + textBytes row.detail.thinking + (row.detail.toolArgs.map textBytes).getD 0 +
    (row.detail.toolCalls.map textBytes).getD 0 + (row.detail.toolResult.map textBytes).getD 0

namespace StepTable

variable (table : StepTable)

def ofTask (taskId : ℕ) : List Agents.StepRow := table.steps.filter (·.taskId = taskId)

def stepPage (taskId limit : ℕ) (maxBytes : ℤ) (after : ℕ) : List Agents.StepRow × Bool :=
  let sizes := ((table.ofTask taskId).filter (after < ·.id)).take (limit + 1)
  let chosen := chosenIds Agents.StepRow.id stepBytes maxBytes (sizes.take limit)
  if chosen = [] then ([], false)
  else (table.steps.filter (·.id ∈ chosen), (chosen.length < sizes.length))

def readSteps (taskId limit : ℕ) (maxBytes : ℤ) : ℕ -> ℕ -> Option (List (List Agents.StepRow))
  | 0, _ => none
  | requests + 1, after =>
    let page := table.stepPage taskId limit maxBytes after
    match page.1.getLast? with
    | none => some [page.1]
    | some row =>
      if page.2 then (readSteps taskId limit maxBytes requests row.id).map (page.1 :: ·)
      else some [page.1]

end StepTable

end BananaChat.Chats

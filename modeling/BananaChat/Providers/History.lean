import Mathlib
import BananaChat.Foundation.Text

namespace BananaChat.Providers

open Foundation

/-!
# Histories in the terms of a provider

`_convert` of the external API: a history of system, user, assistant and tool messages becomes the
messages of a request.
-/

inductive Protocol
  | openai
  | anthropic
deriving DecidableEq

inductive Role
  | system
  | user
  | assistant
  | tool
deriving DecidableEq

/-- The name of a function; `None` is a name like any other. -/
abbrev Name := Option String

def toolNotRun : Text := Text.ofString "Not run: the run stopped before this call."

/-- A base64 text, with the bytes it stands for where it is valid. -/
structure Image where
  data : String
  decoded : Option (List UInt8)

inductive Arguments (Json : Type)
  | object (value : Json)
  | text (raw : String)
  | other (value : Json)

/-- `json` of the standard library, as far as calls need it. -/
structure Library (Json : Type) where
  empty : Json
  /-- The object that a text which is not blank holds. -/
  loadObject : String -> Option Json
  dump : Json -> String

structure Call (Json : Type) where
  /-- The key may be missing. -/
  name : Option Name
  arguments : Option (Arguments Json)

/-- What a message consists of, besides calls and results. -/
inductive Part
  | text (text : Text)
  /-- An image of Claude's API. -/
  | image (mime data : String)
  | imageUrl (url : String)

inductive Content
  | text (text : Text)
  | parts (parts : List Part)

inductive Block (Json : Type)
  | part (part : Part)
  | toolUse (id : String) (name : Name) (input : Json)
  | toolResult (id : String) (content : Content)
  /-- A thinking block, signed or redacted. -/
  | thinking (block : Json)

/-- The `replay` record of a streamed turn. -/
structure Record (Json : Type) where
  protocol : Option String
  /-- `prefix`. -/
  digest : Option String
  /-- The blocks, where it is a list of blocks. -/
  content : Option (List (Block Json))

structure Message (Json : Type) where
  /-- None for any other value. -/
  role : Option Role
  /-- None for a value that is neither a text nor empty. -/
  content : Option Text
  images : List Image
  toolCalls : List (Call Json)
  toolName : Name
  replay : Option (Record Json)

structure FunctionCall where
  id : String
  name : Name
  arguments : String

inductive Body (Json : Type)
  | text (text : Text)
  | blocks (blocks : List (Block Json))

structure Item (Json : Type) where
  role : Role
  content : Body Json
  toolCalls : List FunctionCall
  toolCallId : Option String

inductive Failure
  /-- "Unsupported conversation format." -/
  | unsupportedConversation
  /-- "Invalid context image." -/
  | invalidImage
  /-- "Unsupported context image format." -/
  | unsupportedImage
  /-- A call without a name: `KeyError`. -/
  | missingName

variable {Json : Type}

def Body.isEmpty : Body Json -> Bool
  | .text value => value.isEmpty
  | .blocks list => list.isEmpty

def Body.ofContent : Content -> Body Json
  | .text value => .text value
  | .parts list => .blocks (list.map .part)

def Body.blockList : Body Json -> List (Block Json)
  | .text _ => []
  | .blocks list => list

def Block.isToolResult : Block Json -> Bool
  | .toolResult _ _ => true
  | _ => false

def Block.isReplayable : Block Json -> Bool
  | .part (.text _) => true
  | .toolUse _ _ _ => true
  | .thinking _ => true
  | _ => false

def Block.call : Block Json -> Option (Name × String)
  | .toolUse id name _ => some (name, id)
  | _ => none

def mimeOf (raw : List UInt8) : Option String :=
  if [0x89, 0x50, 0x4E, 0x47].isPrefixOf raw then some "image/png"
  else if [0xFF, 0xD8].isPrefixOf raw then some "image/jpeg"
  else if [0x52, 0x49, 0x46, 0x46].isPrefixOf raw /\ (raw.drop 8).take 4 = [0x57, 0x45, 0x42, 0x50] then some "image/webp"
  else if [0x47, 0x49, 0x46, 0x38, 0x37, 0x61].isPrefixOf raw \/ [0x47, 0x49, 0x46, 0x38, 0x39, 0x61].isPrefixOf raw then
    some "image/gif"
  else none

/-- `_image`. -/
def imageMime (image : Image) : Except Failure String :=
  match image.decoded with
  | none => .error .invalidImage
  | some raw =>
    match mimeOf raw with
    | some mime => .ok mime
    | none => .error .unsupportedImage

def imagePart (protocol : Protocol) (image : Image) : Except Failure Part :=
  match imageMime image with
  | .error failure => .error failure
  | .ok mime =>
    match protocol with
    | .anthropic => .ok (.image mime image.data)
    | .openai => .ok (.imageUrl ("data:" ++ mime ++ ";base64," ++ image.data))

def imageParts (protocol : Protocol) : List Image -> Except Failure (List Part)
  | [] => .ok []
  | image :: rest =>
    match imagePart protocol image, imageParts protocol rest with
    | .ok part, .ok parts => .ok (part :: parts)
    | .error failure, _ => .error failure
    | _, .error failure => .error failure

def contentOf (protocol : Protocol) (text : Text) (images : List Image) : Except Failure Content :=
  match images with
  | [] => .ok (.text text)
  | _ :: _ =>
    match imageParts protocol images with
    | .error failure => .error failure
    | .ok parts => .ok (.parts ((if text ≠ [] \/ protocol ≠ .anthropic then [.text text] else []) ++ parts))

section

variable (library : Library Json)

/-- `_arguments`. -/
def Arguments.input : Arguments Json -> Json
  | .object value => value
  | .text raw => (library.loadObject raw).getD library.empty
  | .other _ => library.empty

def Arguments.dumped : Arguments Json -> String
  | .text raw => raw
  | .object value => library.dump value
  | .other value => library.dump value

def Call.argumentsOf (call : Call Json) : Arguments Json := call.arguments.getD (.object library.empty)

end

def Item.onlyResults (item : Item Json) : Bool :=
  (item.role = .user) && !item.content.blockList.isEmpty && item.content.blockList.all Block.isToolResult

section

variable (protocol : Protocol)

/-- `answer`: parallel results belong in one turn of the user. -/
def answer (items : List (Item Json)) (callId : String) (content : Content) : List (Item Json) :=
  match protocol with
  | .openai => items ++ [⟨.tool, .ofContent content, [], some callId⟩]
  | .anthropic =>
    match items.getLast? with
    | some previous =>
      if previous.onlyResults then
        items.dropLast ++ [{ previous with content := .blocks (previous.content.blockList ++ [.toolResult callId content]) }]
      else items ++ [⟨.user, .blocks [.toolResult callId content], [], none⟩]
    | none => items ++ [⟨.user, .blocks [.toolResult callId content], [], none⟩]

/-- The loop of `_convert` between two messages. -/
structure Conversion (Json : Type) where
  items : List (Item Json)
  system : List Text
  /-- The calls without a result, by name and identifier. -/
  pending : List (Name × String)
  records : List (ℕ × Record Json)
  roundStart : ℕ

def Conversion.start : Conversion Json := ⟨[], [], [], [], 0⟩

def Conversion.answerPending (state : Conversion Json) : Conversion Json :=
  { state with
    items := state.pending.foldl (fun items call => answer protocol items call.2 (.text toolNotRun)) state.items
    pending := [] }

def Conversion.addResult (name : Name) (content : Content) (state : Conversion Json) : Conversion Json :=
  match state.pending.find? (·.1 = name) with
  | some found =>
    { state with
      items := answer protocol state.items found.2 content
      pending := state.pending.erase found }
  | none => state

def callId (index position : ℕ) : String := "bc_call_" ++ toString index ++ "_" ++ toString position

/-- `_replay_matches`. -/
def Record.fits (record : Record Json) (calls : List (Call Json)) : Bool :=
  (record.protocol = some "anthropic") && record.digest.isSome && match record.content with
    | none => false
    | some blocks =>
      blocks.all Block.isReplayable && ((blocks.filterMap Block.call).map Prod.fst = calls.map (·.name.join))

def Message.replayed (message : Message Json) : Option (Record Json × List (Block Json)) :=
  if protocol = .anthropic /\ message.role = some .assistant then
    match message.replay with
    | none => none
    | some record => if record.fits message.toolCalls then record.content.map (fun blocks => (record, blocks)) else none
  else none

end

def nameCalls (index : ℕ) : ℕ -> List (Call Json) -> Except Failure (List (String × Name × Call Json))
  | _, [] => .ok []
  | position, call :: rest =>
    match call.name, nameCalls index (position + 1) rest with
    | some name, .ok named => .ok ((callId index position, name, call) :: named)
    | none, _ => .error .missingName
    | _, .error failure => .error failure

/-- What a turn of a user, an assistant or the system becomes. -/
structure Turn (Json : Type) where
  item : Item Json
  pending : List (Name × String)
  record : Option (Record Json)

section

variable (library : Library Json)

def askingTurn (protocol : Protocol) (text : Text) (plain : Content)
  (named : List (String × Name × Call Json)) : Turn Json :=
  let pending := named.map (fun entry => (entry.2.1, entry.1))
  match protocol with
  | .anthropic =>
    let uses := named.map (fun entry => Block.toolUse entry.1 entry.2.1 ((entry.2.2.argumentsOf library).input library))
    ⟨⟨.assistant, .blocks ((if text ≠ [] then [.part (.text text)] else []) ++ uses), [], none⟩, pending, none⟩
  | .openai =>
    let calls := named.map (fun entry => FunctionCall.mk entry.1 entry.2.1 ((entry.2.2.argumentsOf library).dumped library))
    ⟨⟨.assistant, .ofContent plain, calls, none⟩, pending, none⟩

def turnOf (protocol : Protocol) (index : ℕ) (role : Role) (text : Text) (plain : Content)
  (message : Message Json) : Except Failure (Turn Json) :=
  match message.replayed protocol with
  | some (record, blocks) =>
    .ok ⟨⟨role, .blocks blocks, [], none⟩, if message.toolCalls ≠ [] then blocks.filterMap Block.call else [], some record⟩
  | none =>
    if role = .assistant /\ message.toolCalls ≠ [] then
      match nameCalls index 0 message.toolCalls with
      | .error failure => .error failure
      | .ok named => .ok (askingTurn library protocol text plain named)
    else .ok ⟨⟨role, .ofContent plain, [], none⟩, [], none⟩

def Conversion.addTurn (protocol : Protocol) (turn : Turn Json) (state : Conversion Json) : Conversion Json :=
  if protocol = .anthropic /\ turn.item.content.isEmpty then { state with pending := turn.pending }
  else
    { state with
      items := state.items ++ [turn.item]
      pending := turn.pending
      records :=
        match turn.record with
        | some record => state.records ++ [(state.items.length, record)]
        | none => state.records
      roundStart :=
        match turn.record with
        | some _ => state.roundStart
        | none => if turn.item.role = .user then state.items.length + 1 else state.roundStart }

/-- The loop of `_convert` for one message. -/
def convertMessage (protocol : Protocol) (index : ℕ) (message : Message Json)
  (state : Conversion Json) : Except Failure (Conversion Json) :=
  match message.role, message.content with
  | some role, some text =>
    let settled := if role = .tool then state else state.answerPending protocol
    if protocol = .anthropic /\ role = .system then
      .ok { settled with system := if text = [] then settled.system else settled.system ++ [text] }
    else
      match contentOf protocol text message.images with
      | .error failure => .error failure
      | .ok plain =>
        if role = .tool then .ok (settled.addResult protocol message.toolName plain)
        else
          match turnOf library protocol index role text plain message with
          | .error failure => .error failure
          | .ok turn => .ok (settled.addTurn protocol turn)
  | _, _ => .error .unsupportedConversation

end

def convertFrom (library : Library Json) (protocol : Protocol) :
    ℕ -> List (Message Json) -> Conversion Json -> Except Failure (Conversion Json)
  | _, [], state => .ok state
  | index, message :: rest, state =>
    match convertMessage library protocol index message state with
    | .error failure => .error failure
    | .ok next => convertFrom library protocol (index + 1) rest next

def convert (library : Library Json) (protocol : Protocol) (messages : List (Message Json)) :
  Except Failure (Conversion Json) :=
  match convertFrom library protocol 0 messages .start with
  | .error failure => .error failure
  | .ok state => .ok (state.answerPending protocol)

end BananaChat.Providers

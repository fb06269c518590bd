import BananaChat.Foundation.Lists
import BananaChat.Providers.History

namespace BananaChat.Providers

open Foundation List

/-!
# The messages of a chat request

The part of `parse_chat_request` that turns the messages of a request's body into a history.
-/

structure RequestLimits where
  maxMessages : ℕ
  /-- `chat_max_context_images`. -/
  maxImages : ℕ
  /-- `chat_max_image_bytes`. -/
  maxImageBytes : ℕ
  /-- `MAX_CONTEXT_IMAGE_BYTES`. -/
  maxImagesBytes : ℕ
  /-- `chat_max_context_chars`. -/
  maxCharacters : ℕ
  /-- `chat_max_image_pixels`. -/
  maxImagePixels : ℕ

inductive Opened
  | fine
  | tooManyPixels
  | busy
  | unreadable

/-- The `url` of an image part. -/
inductive ImageUrl
  | notText
  /-- A text that is no data URL of an allowed type. -/
  | unsupported
  | data (declared encoded : String) (decoded : Option (List UInt8)) (opened : Opened)

inductive RawPart
  | notObject
  /-- None for a `text` that is no text. -/
  | text (text : Option Text)
  | image (url : ImageUrl)
  | other (kind : String)

inductive RawContent
  | text (text : Text)
  | null
  | parts (parts : List RawPart)
  | other

structure RawMessage where
  /-- None for anything but a text. -/
  role : Option String
  hasToolCalls : Bool
  hasFunctionCall : Bool
  content : RawContent

/-- A `CompletionError`. -/
structure Refusal where
  message : String
  status : ℕ
  code : String
  param : Option String
  retryAfter : Option ℕ

/-- `_bad` with a code. -/
def badCode (message param code : String) : Refusal := ⟨message, 400, code, some param, none⟩

def bad (message param : String) : Refusal := badCode message param "invalid_value"

def groupDigits : List Char -> List Char
  | first :: second :: third :: next :: rest => first :: second :: third :: ',' :: groupDigits (next :: rest)
  | short => short

/-- A number in the format `,`. -/
def grouped (number : ℕ) : String := String.ofList (groupDigits (toString number).toList.reverse).reverse

/-- `_text`. -/
def checkedText (text : Text) (param : String) : Except Refusal Text :=
  match text.encode with
  | some _ => .ok text
  | none => .error (badCode "Text must be valid Unicode (it contains a lone surrogate)." param "invalid_text")

def isSigned (declared : String) (bytes : List UInt8) : Bool :=
  if declared = "image/png" then [0x89, 0x50, 0x4E, 0x47, 0x0D, 0x0A, 0x1A, 0x0A].isPrefixOf bytes
  else if declared = "image/jpeg" then [0xFF, 0xD8, 0xFF].isPrefixOf bytes
  else [0x52, 0x49, 0x46, 0x46].isPrefixOf bytes && ((bytes.drop 8).take 4 = [0x57, 0x45, 0x42, 0x50])

def decodeImage (limits : RequestLimits) (url : ImageUrl) (param : String) : Except Refusal Image :=
  match url with
  | .notText => .error (bad "'image_url.url' must be a string." param)
  | .unsupported =>
    .error (badCode "Images must be data: URLs with base64 PNG, JPEG or WebP data; remote URLs are not fetched." param
      "unsupported_image")
  | .data declared encoded decoded opened =>
    if limits.maxImageBytes * 4 / 3 + 4 < encoded.length then
      .error (badCode ("An image is larger than " ++ toString (limits.maxImageBytes / (1024 * 1024)) ++ " MB.") param
        "image_too_large")
    else
      match decoded with
      | none => .error (badCode "An image is not valid base64 data." param "invalid_image")
      | some bytes =>
        if bytes = [] \/ limits.maxImageBytes < bytes.length then
          .error (badCode "An image is empty or too large." param "invalid_image")
        else if ¬ isSigned declared bytes /\
            ¬ (isSigned "image/png" bytes \/ isSigned "image/jpeg" bytes \/ isSigned "image/webp" bytes) then
          .error (badCode "An image is not a PNG, JPEG or WebP file." param "invalid_image")
        else
          match opened with
          | .fine => .ok ⟨encoded, some bytes⟩
          | .tooManyPixels =>
            .error (badCode ("An image has more than " ++ grouped limits.maxImagePixels ++ " pixels.") param "image_too_large")
          | .busy => .error ⟨"The server is busy processing other images. Try again shortly.", 503, "busy", none, some 10⟩
          | .unreadable => .error (badCode "An image is not a valid PNG, JPEG or WebP file." param "invalid_image")

def tooManyImages (limits : RequestLimits) (param : String) : Refusal :=
  badCode ("A request can contain at most " ++ toString limits.maxImages ++ " images.") param "too_many_images"

/-- The loop of `_content` over the parts: the texts and the images so far. -/
def contentParts (limits : RequestLimits) (role : Role) (param : String) :
    ℕ -> List RawPart -> List Text -> List Image -> Except Refusal (List Text × List Image)
  | _, [], texts, images => .ok (texts, images)
  | position, part :: rest, texts, images =>
    let partParam := param ++ "[" ++ toString position ++ "]"
    match part with
    | .notObject => .error (bad "Content parts must be objects." partParam)
    | .text none => .error (bad "A text part needs a 'text' string." partParam)
    | .text (some text) =>
      match checkedText text partParam with
      | .error refusal => .error refusal
      | .ok checked => contentParts limits role param (position + 1) rest (texts ++ [checked]) images
    | .image url =>
      if role ≠ .user then .error (bad "Only user messages can contain images." partParam)
      else if limits.maxImages <= images.length then .error (tooManyImages limits partParam)
      else
        match decodeImage limits url partParam with
        | .error refusal => .error refusal
        | .ok image => contentParts limits role param (position + 1) rest texts (images ++ [image])
    | .other kind =>
      .error (badCode ("Content parts of type '" ++ kind ++ "' are not supported.") partParam "unsupported_content")

def newline : Text := Text.ofString "\n"

/-- `_content`. -/
def parseContent (limits : RequestLimits) (role : Role) (index : ℕ) (content : RawContent) :
  Except Refusal (Text × List Image) :=
  let param := "messages[" ++ toString index ++ "].content"
  match content with
  | .text text =>
    match checkedText text param with
    | .error refusal => .error refusal
    | .ok checked => .ok (checked, [])
  | .null =>
    if role = .assistant then .ok ([], [])
    else .error (bad "'content' must be a string or an array of content parts." param)
  | .other => .error (bad "'content' must be a string or an array of content parts." param)
  | .parts parts =>
    match contentParts limits role param 0 parts [] [] with
    | .error refusal => .error refusal
    | .ok (texts, images) => .ok ((texts.intersperse newline).flatten, images)

def requestRole (role : Option String) : Option Role :=
  if role = some "developer" \/ role = some "system" then some .system
  else if role = some "user" then some .user
  else if role = some "assistant" then some .assistant
  else none

structure Counted where
  images : ℕ
  characters : ℕ
  imageBytes : ℕ

def Counted.add (counted : Counted) (text : Text) (images : List Image) : Counted where
  images := counted.images + images.length
  characters := counted.characters + text.length
  imageBytes := counted.imageBytes + (images.map (·.data.length * 3 / 4)).sum

def requestEntry {Json : Type} (role : Role) (text : Text) (images : List Image) : Message Json :=
  ⟨some role, some text, images, [], none, none⟩

def parseMessage (limits : RequestLimits) (index : ℕ) (raw : Option RawMessage) (counted : Counted) :
  Except Refusal (Role × Text × List Image) :=
  let param := "messages[" ++ toString index ++ "]"
  match raw with
  | none => .error (bad "Each message must be an object." param)
  | some message =>
    if message.role = some "tool" \/ message.role = some "function" \/ message.hasToolCalls \/ message.hasFunctionCall then
      .error (badCode "Tool and function calls are not supported." param "unsupported_parameter")
    else
      match requestRole message.role with
      | none => .error (bad "Message roles must be system, user or assistant." (param ++ ".role"))
      | some role =>
        match parseContent limits role index message.content with
        | .error refusal => .error refusal
        | .ok (text, images) =>
          if limits.maxImages < (counted.add text images).images then .error (tooManyImages limits param)
          else if limits.maxImagesBytes < (counted.add text images).imageBytes then
            .error (badCode ("The images of a request may total at most " ++ toString (limits.maxImagesBytes / 2 ^ 20) ++ " MB.")
              param "images_too_large")
          else .ok (role, text, images)

/-- The loop of `parse_chat_request` over the messages. -/
def parseMessages {Json : Type} (limits : RequestLimits) :
    ℕ -> List (Option RawMessage) -> Counted -> Except Refusal (List (Message Json) × Counted)
  | _, [], counted => .ok ([], counted)
  | index, raw :: rest, counted =>
    match parseMessage limits index raw counted with
    | .error refusal => .error refusal
    | .ok (role, text, images) =>
      match parseMessages limits (index + 1) rest (counted.add text images) with
      | .error refusal => .error refusal
      | .ok (messages, total) => .ok (requestEntry role text images :: messages, total)

/-- `messages` of a body; none is a value that is no list. -/
def parseRequestMessages {Json : Type} (limits : RequestLimits) (body : Option (List (Option RawMessage))) :
  Except Refusal (List (Message Json)) :=
  match body with
  | none => .error (bad "'messages' must be a non-empty array." "messages")
  | some [] => .error (bad "'messages' must be a non-empty array." "messages")
  | some raws =>
    if limits.maxMessages < raws.length then
      .error (badCode ("A request can contain at most " ++ toString limits.maxMessages ++ " messages.") "messages"
        "too_many_messages")
    else
      match parseMessages limits 0 raws ⟨0, 0, 0⟩ with
      | .error refusal => .error refusal
      | .ok (messages, total) =>
        if limits.maxCharacters < total.characters then
          .error (badCode ("The messages are too long (at most " ++ grouped limits.maxCharacters ++ " characters).") "messages"
            "context_too_long")
        else .ok messages

def Image.Known (image : Image) : Prop := ∃ mime, imageMime image = .ok mime

/-- The shape of a history that a request may hold. -/
structure Plain {Json : Type} (message : Message Json) : Prop where
  role : message.role = some .system \/ message.role = some .user \/ message.role = some .assistant
  content : message.content.isSome
  images : ∀ image ∈ message.images, image.Known
  noCalls : message.toolCalls = []
  noRecord : message.replay = none

theorem isSigned_mime {declared : String} {bytes : List UInt8} (signed : isSigned declared bytes) :
  ∃ mime, mimeOf bytes = some mime := by
  unfold isSigned at signed
  unfold mimeOf
  split at signed
  · have longer := isPrefixOf_iff_prefix.mp signed
    have shorter : [0x89, 0x50, 0x4E, 0x47] <+: bytes := List.IsPrefix.trans ⟨[0x0D, 0x0A, 0x1A, 0x0A], rfl⟩ longer
    rw [if_pos ( isPrefixOf_iff_prefix.mpr shorter)]
    exact ⟨_, rfl⟩
  · split at signed
    · have longer := isPrefixOf_iff_prefix.mp signed
      have shorter : [0xFF, 0xD8] <+: bytes := List.IsPrefix.trans ⟨[0xFF], rfl⟩ longer
      rw [if_pos ( isPrefixOf_iff_prefix.mpr shorter)]
      split
      · exact ⟨_, rfl⟩
      · exact ⟨_, rfl⟩
    · rw [Bool.and_eq_true, decide_eq_true_eq] at signed
      split
      · exact ⟨_, rfl⟩
      · split
        · exact ⟨_, rfl⟩
        · exact ⟨_, rfl⟩

variable {limits : RequestLimits} {images : List Image} {role : Role}

theorem decodeImage_known {url : ImageUrl} {param : String} {image : Image}
  (decoded : decodeImage limits url param = .ok image) : image.Known := by
  unfold decodeImage at decoded
  split at decoded
  · cases decoded
  · cases decoded
  · split at decoded
    · cases decoded
    split at decoded
    · cases decoded
    · rename_i bytes
      split at decoded
      · cases decoded
      split at decoded
      · cases decoded
      · rename_i signed
        split at decoded
        · cases decoded
          have someMime : ∃ mime, mimeOf bytes = some mime := by
            rcases Classical.not_and_iff_not_or_not.mp signed with isDeclared | isOther
            · exact isSigned_mime (not_not.mp isDeclared)
            · rcases not_not.mp isOther with isPng | isJpeg | isWebp
              · exact isSigned_mime isPng
              · exact isSigned_mime isJpeg
              · exact isSigned_mime isWebp
          rcases someMime with ⟨mime, isMime⟩
          refine ⟨mime, ?_⟩
          unfold imageMime
          dsimp only
          rw [isMime]
        · cases decoded
        · cases decoded
        · cases decoded

theorem contentParts_known {param : String} {position : ℕ} {parts : List RawPart} {texts found : List Text}
  {all : List Image} (parsed : contentParts limits role param position parts texts images = .ok (found, all))
  (known : ∀ image ∈ images, image.Known) : ∀ image ∈ all, image.Known := by
  induction parts generalizing position texts images with
  | nil =>
    cases parsed
    exact known
  | cons part rest ih =>
    unfold contentParts at parsed
    dsimp only at parsed
    split at parsed
    · cases parsed
    · cases parsed
    · split at parsed
      · cases parsed
      · exact ih parsed known
    · split at parsed
      · cases parsed
      split at parsed
      · cases parsed
      split at parsed
      · cases parsed
      · rename_i image decoded
        refine ih parsed ?_
        exact forall_mem_snoc known (decodeImage_known decoded)
    · cases parsed

variable {index : ℕ} {text : Text}

theorem parseContent_known {content : RawContent}
  (parsed : parseContent limits role index content = .ok (text, images)) : ∀ image ∈ images, image.Known := by
  unfold parseContent at parsed
  dsimp only at parsed
  split at parsed
  · split at parsed
    · cases parsed
    · cases parsed
      exact nofun
  · split at parsed
    · cases parsed
      exact nofun
    · cases parsed
  · cases parsed
  · split at parsed
    · cases parsed
    · rename_i texts found loop
      cases parsed
      exact contentParts_known loop nofun

theorem requestRole_plain {raw : Option String} (known : requestRole raw = some role) :
  role = .system \/ role = .user \/ role = .assistant := by
  unfold requestRole at known
  split at known
  · cases known
    exact .inl rfl
  split at known
  · cases known
    exact .inr (.inl rfl)
  split at known
  · cases known
    exact .inr (.inr rfl)
  · cases known

theorem parseMessage_facts {raw : Option RawMessage} {counted : Counted}
  (parsed : parseMessage limits index raw counted = .ok (role, text, images)) :
  (role = .system \/ role = .user \/ role = .assistant) /\ ∀ image ∈ images, image.Known := by
  unfold parseMessage at parsed
  cases raw with
  | none => cases parsed
  | some message =>
    dsimp only at parsed
    split at parsed
    · cases parsed
    cases known : requestRole message.role with
    | none =>
      rw [known] at parsed
      cases parsed
    | some found =>
      rw [known] at parsed
      dsimp only at parsed
      split at parsed
      · cases parsed
      · rename_i content
        split at parsed
        · cases parsed
        split at parsed
        · cases parsed
        · cases parsed
          exact ⟨requestRole_plain known, parseContent_known content⟩

theorem parseMessages_plain {Json : Type} {raws : List (Option RawMessage)} {counted total : Counted}
  {messages : List (Message Json)} (parsed : parseMessages limits index raws counted = .ok (messages, total)) :
  ∀ message ∈ messages, Plain message := by
  induction raws generalizing index counted messages with
  | nil =>
    cases parsed
    intro message clash
    cases clash
  | cons raw rest ih =>
    unfold parseMessages at parsed
    split at parsed
    · cases parsed
    · rename_i role text images first
      split at parsed
      · cases parsed
      · rename_i later more restParsed
        cases parsed
        intro message mem
        rcases mem_cons.mp mem with isFirst | isLater
        · rw [isFirst]
          rcases parseMessage_facts first with ⟨known, readable⟩
          refine ⟨?_, rfl, readable, rfl, rfl⟩
          rcases known with isSystem | isUser | isAssistant
          · exact .inl (congrArg some isSystem)
          · exact .inr (.inl (congrArg some isUser))
          · exact .inr (.inr (congrArg some isAssistant))
        · exact ih restParsed message isLater

theorem parseRequestMessages_plain {Json : Type} {body : Option (List (Option RawMessage))}
  {messages : List (Message Json)} (parsed : parseRequestMessages limits body = .ok messages) :
  ∀ message ∈ messages, Plain message := by
  unfold parseRequestMessages at parsed
  split at parsed
  · cases parsed
  · cases parsed
  · split at parsed
    · cases parsed
    split at parsed
    · cases parsed
    · rename_i found total loop
      split at parsed
      · cases parsed
      · cases parsed
        exact parseMessages_plain loop

end BananaChat.Providers

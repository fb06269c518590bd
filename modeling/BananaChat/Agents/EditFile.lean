import BananaChat.Foundation.Occurrences
import BananaChat.Providers.ChatRequest

namespace BananaChat.Agents

open Foundation List Text

/-!
# Edits of a file

`_edit_file` replaces one text in a file of the workspace by another.
-/

def maxWriteBytes : ℕ := 256 * 1024

def maxEditFileBytes : ℕ := 1024 * 1024

/-- `MAX_READ_BYTES` of the sandbox runner. -/
def maxReadBytes : ℕ := 1024 * 1024

def nul : CodePoint := .scalar (Char.ofNat 0)

/-- `_string`; no text is any other value. -/
def checkString (name : String) (value : Option Text) (low high : ℕ) : Except String Text :=
  match value with
  | none => .error (name ++ " must be a string.")
  | some text =>
    if nul ∈ text then .error (name ++ " must not contain NUL characters.")
    else if text.length < low then
      .error (if low = 1 then name ++ " must not be empty." else name ++ " is too short.")
    else if high < text.length then
      .error (name ++ " is longer than " ++ Providers.grouped high ++ " characters.")
    else .ok text

/-- The arguments of a call that `validate` let through. -/
structure EditArguments where
  path : String
  old : Text
  new : Text
  oldChecked : checkString "old" (some old) 1 100000 = .ok old
  newChecked : checkString "new" (some new) 0 maxWriteBytes = .ok new

variable {text : Text} {content : List UInt8} {arguments : EditArguments}

theorem checkString_length {name : String} {low high : ℕ} (checked : checkString name (some text) low high = .ok text) :
  low <= text.length := by
  unfold checkString at checked
  dsimp only at checked
  split at checked
  · cases checked
  split at checked
  · cases checked
  · rename_i long
    exact Nat.le_of_not_lt long

theorem EditArguments.nonempty (arguments : EditArguments) : arguments.old ≠ [] :=
  ne_nil_of_length_pos (checkString_length arguments.oldChecked)

inductive Entry
  | folder
  | file (content : List UInt8)

inductive FileRead
  | entries
  /-- Without content where it could not be decoded. -/
  | file (content : Option (List UInt8)) (truncated : Bool) (size : Option ℕ)

/-- `read_path` of the runner. -/
def Entry.read : Entry -> FileRead
  | .folder => .entries
  | .file content =>
    .file (some (content.take maxReadBytes)) (((content.take maxReadBytes).length < content.length))
      (some content.length)

def readText (path : String) (limitBytes : Option ℕ) (data : FileRead) : Except String Text :=
  match data with
  | .entries => .error (path ++ " is a folder; use list_files.")
  | .file none _ _ => .error (path ++ " could not be read.")
  | .file (some content) truncated stored =>
    let size := Providers.grouped (stored.getD content.length)
    if limitBytes.any (fun limit => truncated || (limit < content.length)) then
      .error (path ++ " is too large to edit (" ++ size ++ " bytes); use bash instead.")
    else if 0 ∈ content.take 8192 then .error (path ++ " is a binary file (" ++ size ++ " bytes).")
    else
      match Text.decode content with
      | none => .error (path ++ " is not UTF-8 text.")
      | some text =>
        .ok (if truncated then
          text ++ Text.ofString ("\n[the file has " ++ size ++
            " bytes; only the beginning could be read - use bash (sed, head) for the rest]")
        else text)

inductive EditOutcome
  /-- A `ToolError`. -/
  | refused (message : String)
  /-- The new text holds a lone surrogate, which has no bytes. -/
  | unencodable
  | edited (content : List UInt8) (message : String)

def editFile (arguments : EditArguments) (entry : Entry) : EditOutcome :=
  match readText arguments.path (some maxEditFileBytes) entry.read with
  | .error message => .refused message
  | .ok text =>
    if countApart arguments.old text = 0 then
      .refused ("`old` was not found in " ++ arguments.path ++ ". Read the file and copy the exact text.")
    else if 1 < countApart arguments.old text then
      .refused ("`old` appears " ++ toString (countApart arguments.old text) ++ " times in " ++ arguments.path ++
        "; include more surrounding text so it is unique.")
    else
      match Text.encode (replaceFirst arguments.old arguments.new text) with
      | none => .unencodable
      | some updated =>
        if maxEditFileBytes < updated.length then .refused "The edited file would be too large."
        else .edited updated ("Edited " ++ arguments.path ++ " (1 replacement).")

def EditOutcome.entry (before : Entry) : EditOutcome -> Entry
  | .refused _ => before
  | .unencodable => before
  | .edited content _ => .file content

def EditOutcome.succeeded : EditOutcome -> Bool
  | .edited _ _ => true
  | .refused _ => false
  | .unencodable => false

structure Editable (arguments : EditArguments) (content : List UInt8) : Prop where
  small : content.length <= maxEditFileBytes
  noNul : 0 ∉ content.take 8192
  staysSmall : ∃ old new, Text.encode arguments.old = some old /\
    Text.encode arguments.new = some new /\ content.length + new.length <= maxEditFileBytes + old.length

/-- All occurrences overlap the one at `first`, and none is before it. -/
def OverlapFirst (part whole : Text) (first : ℕ) : Prop :=
  OccursAt part whole first /\
    ∀ position, OccursAt part whole position -> first <= position /\ position < first + part.length

def OccursOnce (part whole : Text) : Prop :=
  ∃ place, OccursAt part whole place /\ ∀ position, OccursAt part whole position -> position = place

theorem readText_file {path : String} : readText path (some maxEditFileBytes) (Entry.file content).read = .ok text ↔
    decode content = some text /\ content.length <= maxEditFileBytes /\ 0 ∉ content.take 8192 := by
  have same : maxEditFileBytes = maxReadBytes := rfl
  by_cases small : content.length <= maxReadBytes
  · have whole : content.take maxReadBytes = content := take_of_length_le small
    unfold readText Entry.read
    dsimp only
    rw [whole, Option.any_some, decide_eq_false (Nat.lt_irrefl _), Bool.false_or, same,
      decide_eq_false (Nat.not_lt.mpr small), if_neg Bool.false_ne_true]
    by_cases binary : 0 ∈ content.take 8192
    · rw [if_pos binary]
      constructor
      · intro clash
        cases clash
      · intro fine
        exact absurd binary fine.2.2
    · rw [if_neg binary]
      cases decoded : decode content with
      | none =>
        constructor
        · intro clash
          cases clash
        · rintro ⟨clash, _⟩
          cases clash
      | some found =>
        dsimp only
        constructor
        · intro isText
          cases isText
          exact ⟨rfl, small, binary⟩
        · rintro ⟨isText, _⟩
          cases isText
          rfl
  · have cut : (content.take maxReadBytes).length < content.length := by
      rw [length_take]
      omega
    unfold readText Entry.read
    dsimp only
    rw [Option.any_some, decide_eq_true cut, Bool.true_or, if_pos rfl, same]
    constructor
    · intro clash
      cases clash
    · intro fine
      exact absurd fine.2.1 small

theorem encode_split {before part after : Text} (encoded : encode (before ++ part ++ after) = some content) :
  ∃ first middle last, encode before = some first /\
    encode part = some middle /\ encode after = some last /\ content = first ++ middle ++ last := by
  rcases chars_of_encode encoded with ⟨_, joined, rfl⟩
  rcases append_eq_map_iff.mp joined with ⟨_, last, rfl, isFront, rfl⟩
  rcases append_eq_map_iff.mp isFront.symm with ⟨first, middle, rfl, rfl, rfl⟩
  refine ⟨_, _, _, encode_chars first, encode_chars middle, encode_chars last, ?_⟩
  unfold encodeChars
  rw [flatMap_append, flatMap_append]

theorem replaceFirst_first {part whole : Text} (other : Text) {first : ℕ} (nonempty : part ≠ [])
  (overlap : OverlapFirst part whole first) : ∃ before after, whole = before ++ part ++ after /\
    replaceFirst part other whole = before ++ other ++ after := by
  rcases occursAt_iff.mp overlap.1 with ⟨before, after, rfl, rfl⟩
  exact ⟨before, after, rfl, replaceFirst_split nonempty fun position occurs => (overlap.2 position occurs).1⟩

theorem staysSmall_iff {before after : Text} (decoded : decode content = some (before ++ arguments.old ++ after)) :
  (∃ updated, encode (before ++ arguments.new ++ after) = some updated /\ updated.length <= maxEditFileBytes) ↔
    ∃ old new, encode arguments.old = some old /\ encode arguments.new = some new /\
      content.length + new.length <= maxEditFileBytes + old.length := by
  rcases encode_split (decode_eq_some.mp decoded) with ⟨_, old, _, isFirst, isOld, isLast, rfl⟩
  constructor
  · rintro ⟨_, encoded, small⟩
    rcases encode_split encoded with ⟨_, new, _, isFirst', isNew, isLast', rfl⟩
    cases isFirst.symm.trans isFirst'
    cases isLast.symm.trans isLast'
    refine ⟨old, new, isOld, isNew, ?_⟩
    simp only [length_append] at small ⊢
    omega
  · rintro ⟨_, _, isOld', isNew, small⟩
    cases isOld.symm.trans isOld'
    refine ⟨_, encode_append (encode_append isFirst isNew) isLast, ?_⟩
    simp only [length_append] at small ⊢
    omega

theorem editFile_edited_iff {updated : List UInt8} :
  (∃ message, editFile arguments (.file content) = .edited updated message) ↔
    ∃ text, decode content = some text /\ content.length <= maxEditFileBytes /\ 0 ∉ content.take 8192 /\
      (∃ first, OverlapFirst arguments.old text first) /\
      encode (replaceFirst arguments.old arguments.new text) = some updated /\ updated.length <= maxEditFileBytes := by
  have one (text : Text) : countApart arguments.old text = 1 ↔ ∃ first, OverlapFirst arguments.old text first := by
    unfold countApart
    rw [if_neg arguments.nonempty]
    exact countFrom_one arguments.nonempty text
  constructor
  · rintro ⟨_, isEdited⟩
    unfold editFile at isEdited
    split at isEdited
    · cases isEdited
    · rename_i text isRead
      rcases readText_file.mp isRead with ⟨decoded, small, noNul⟩
      split at isEdited
      · cases isEdited
      split at isEdited
      · cases isEdited
      · rename_i some more
        split at isEdited
        · cases isEdited
        · rename_i found encoded
          split at isEdited
          · cases isEdited
          · rename_i fits
            cases isEdited
            exact ⟨text, decoded, small, noNul, (one text).mp (by omega), encoded, Nat.le_of_not_lt fits⟩
  · rintro ⟨text, decoded, small, noNul, overlap, encoded, fits⟩
    unfold editFile
    rw [readText_file.mpr ⟨decoded, small, noNul⟩]
    dsimp only
    rw [(one text).mpr overlap, if_neg (by decide), if_neg (by decide), encoded]
    dsimp only
    rw [if_neg (Nat.not_lt.mpr fits)]
    exact ⟨_, rfl⟩

theorem succeeded_iff {outcome : EditOutcome} :
  outcome.succeeded ↔ ∃ updated message, outcome = .edited updated message := by
  cases outcome with
  | refused message | unencodable =>
    constructor
    · intro clash
      cases clash
    · rintro ⟨_, _, clash⟩
      cases clash
  | edited content message => exact ⟨fun _ => ⟨content, message, rfl⟩, fun _ => rfl⟩

theorem editFile_succeeded_iff (decoded : decode content = some text) :
  (editFile arguments (.file content)).succeeded ↔
    Editable arguments content /\ ∃ first, OverlapFirst arguments.old text first := by
  rw [succeeded_iff]
  constructor
  · rintro ⟨updated, isEdited⟩
    rcases editFile_edited_iff.mp isEdited with ⟨_, isFound, small, noNul, ⟨first, overlap⟩, encoded, fits⟩
    cases decoded.symm.trans isFound
    rcases replaceFirst_first arguments.new arguments.nonempty overlap with ⟨before, after, rfl, replaced⟩
    rw [replaced] at encoded
    exact ⟨⟨small, noNul, (staysSmall_iff decoded).mp ⟨updated, encoded, fits⟩⟩, first, overlap⟩
  · rintro ⟨editable, first, overlap⟩
    rcases replaceFirst_first arguments.new arguments.nonempty overlap with ⟨_, _, rfl, replaced⟩
    rcases (staysSmall_iff decoded).mpr editable.staysSmall with ⟨updated, encoded, fits⟩
    refine ⟨updated, editFile_edited_iff.mpr
      ⟨_, decoded, editable.small, editable.noNul, ⟨first, overlap⟩, ?_, fits⟩⟩
    rw [replaced]
    exact encoded

structure ReplacesOnePlace (arguments : EditArguments) (content : List UInt8) : Prop where
  succeeds : (editFile arguments (.file content)).succeeded ↔
    ∃ text, Text.decode content = some text /\ OccursOnce arguments.old text
  /-- What is written is the old content, with the new text in that place. -/
  replaced : ∀ updated message, editFile arguments (.file content) = .edited updated message ->
    ∃ before after, Text.decode content = some (before ++ arguments.old ++ after) /\
      Text.decode updated = some (before ++ arguments.new ++ after)
  /-- A refusal leaves the file as it is. -/
  unchanged : (editFile arguments (.file content)).succeeded = false ->
    (editFile arguments (.file content)).entry (.file content) = .file content

/-- Exactly the edits whose old text stands in one place only, or apart in several, of a file that
is small enough. -/
theorem edit_replaces_iff (arguments : EditArguments) (content : List UInt8) : ReplacesOnePlace arguments content ↔
    ∀ text, Text.decode content = some text ->
      (Editable arguments content -> ∀ first, OverlapFirst arguments.old text first -> OccursOnce arguments.old text) /\
        (OccursOnce arguments.old text -> Editable arguments content) := by
  have onlyOne {text : Text} (once : OccursOnce arguments.old text) :
      ∃ first, OverlapFirst arguments.old text first := by
    rcases once with ⟨place, occurs, only⟩
    refine ⟨place, occurs, ?_⟩
    intro position other
    rw [only position other]
    exact ⟨Nat.le_refl _, Nat.lt_add_of_pos_right (length_pos_of_ne_nil arguments.nonempty)⟩
  constructor
  · intro right text decoded
    constructor
    · intro editable first overlap
      rcases right.succeeds.mp ((editFile_succeeded_iff decoded).mpr ⟨editable, first, overlap⟩) with ⟨found, isFound, once⟩
      cases decoded.symm.trans isFound
      exact once
    · intro once
      exact ((editFile_succeeded_iff decoded).mp (right.succeeds.mpr ⟨text, decoded, once⟩)).1
  · intro condition
    refine ⟨?_, ?_, ?_⟩
    · constructor
      · intro succeeded
        rcases succeeded_iff.mp succeeded with ⟨updated, isEdited⟩
        rcases editFile_edited_iff.mp isEdited with ⟨text, decoded, _⟩
        rcases (editFile_succeeded_iff decoded).mp succeeded with ⟨editable, first, overlap⟩
        exact ⟨text, decoded, (condition text decoded).1 editable first overlap⟩
      · rintro ⟨text, decoded, once⟩
        exact (editFile_succeeded_iff decoded).mpr ⟨(condition text decoded).2 once, onlyOne once⟩
    · intro updated message isEdited
      rcases editFile_edited_iff.mp ⟨message, isEdited⟩ with ⟨text, decoded, _, _, ⟨first, overlap⟩, encoded, _⟩
      rcases replaceFirst_first arguments.new arguments.nonempty overlap with ⟨before, after, rfl, replaced⟩
      rw [replaced] at encoded
      exact ⟨before, after, decoded, Text.decode_eq_some.mpr encoded⟩
    · intro refused
      cases outcome : editFile arguments (.file content) with
      | refused message | unencodable => rfl
      | edited updated message =>
        rw [outcome] at refused
        cases refused

/-- `aa` is replaced by `b` in a file. -/
def overlappingEdit : EditArguments where
  path := "/workspace/a.txt"
  old := Text.ofString "aa"
  new := Text.ofString "b"
  oldChecked := by decide +kernel
  newChecked := by decide +kernel

/-- In `aaa` it stands at two positions, and the edit is made. -/
theorem overlapping_edited : ¬ ReplacesOnePlace overlappingEdit [0x61, 0x61, 0x61] := by
  intro right
  have decoded : Text.decode [0x61, 0x61, 0x61] = some (Text.ofString "aaa") := Text.decode_eq_some.mpr (by decide +kernel)
  have atFirst : OccursAt overlappingEdit.old (Text.ofString "aaa") 0 := ⟨by decide +kernel, by decide +kernel⟩
  have atSecond : OccursAt overlappingEdit.old (Text.ofString "aaa") 1 := ⟨by decide +kernel, by decide +kernel⟩
  have made : (editFile overlappingEdit (.file [0x61, 0x61, 0x61])).succeeded := by
    refine (editFile_succeeded_iff decoded).mpr ⟨⟨by decide, by decide, _, _, rfl, rfl, by decide +kernel⟩, 0, atFirst, ?_⟩
    rintro position ⟨begins, _⟩
    have short := begins.length_le
    rw [length_drop] at short
    refine ⟨Nat.zero_le _, ?_⟩
    have sizes : overlappingEdit.old.length = 2 /\ (Text.ofString "aaa").length = 3 := ⟨by decide +kernel, by decide +kernel⟩
    omega
  rcases right.succeeds.mp made with ⟨text, isText, place, _, only⟩
  cases decoded.symm.trans isText
  exact absurd ((only 0 atFirst).trans (only 1 atSecond).symm) (by decide)

end BananaChat.Agents

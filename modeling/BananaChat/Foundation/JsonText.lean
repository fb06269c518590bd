import BananaChat.Foundation.Text

namespace BananaChat.Foundation

open List

/-!
# JSON as it is written

What `json.dumps` writes with `ensure_ascii=False` and an indent of two spaces.
-/

def lineBreak : CodePoint := .scalar '\n'

/-- The spelling of a number. -/
structure Spelled where
  text : Text
  plain : lineBreak ∉ text

inductive Scalar
  | null
  | bool (value : Bool)
  | number (spelled : Spelled)
  | text (value : Text)

inductive Plain
  | scalar (value : Scalar)
  | list (items : List Plain)
  | dict (entries : List (Text × Plain))

/-- A character of a text, as `py_encode_basestring` writes it. -/
def escape : CodePoint -> Text
  | .surrogate value => [.surrogate value]
  | .scalar char =>
    if char = '"' then Text.ofString "\\\""
    else if char = '\\' then Text.ofString "\\\\"
    else if char = '\n' then Text.ofString "\\n"
    else if char = '\r' then Text.ofString "\\r"
    else if char = '\t' then Text.ofString "\\t"
    else if char.toNat = 12 then Text.ofString "\\f"
    else if char.toNat = 8 then Text.ofString "\\b"
    else if char.toNat < 32 then
      Text.ofString "\\u00" ++ [.scalar (Nat.digitChar (char.toNat / 16)), .scalar (Nat.digitChar (char.toNat % 16))]
    else [.scalar char]

def quoted (text : Text) : Text := Text.ofString "\"" ++ text.flatMap escape ++ Text.ofString "\""

def Scalar.written : Scalar -> Text
  | .null => Text.ofString "null"
  | .bool true => Text.ofString "true"
  | .bool false => Text.ofString "false"
  | .number spelled => spelled.text
  | .text value => quoted value

def margin (level : ℕ) : Text := replicate (2 * level) (.scalar ' ')

def newline (level : ℕ) : Text := lineBreak :: margin level

/-- The items of a value that is not empty, between its brackets. -/
def block (opening closing : Text) (level : ℕ) : List Text -> Text
  | [] => opening ++ closing
  | first :: rest =>
    opening ++ newline (level + 1) ++ first ++ rest.flatMap (fun item => Text.ofString "," ++ newline (level + 1) ++ item) ++
      newline level ++ closing

def openList : Text := Text.ofString "["
def closeList : Text := Text.ofString "]"
def openDict : Text := Text.ofString "\x7b"
def closeDict : Text := Text.ofString "\x7d"
def keyText (key : Text) : Text := quoted key ++ Text.ofString ": "

mutual

/-- A value at a level of a document. -/
def Plain.dumps (level : ℕ) : Plain -> Text
  | .scalar value => value.written
  | .list items => block openList closeList level (Plain.dumpsItems (level + 1) items)
  | .dict entries => block openDict closeDict level (Plain.dumpsEntries (level + 1) entries)

def Plain.dumpsItems (level : ℕ) : List Plain -> List Text
  | [] => []
  | item :: rest => item.dumps level :: Plain.dumpsItems level rest

def Plain.dumpsEntries (level : ℕ) : List (Text × Plain) -> List Text
  | [] => []
  | (key, value) :: rest => (keyText key ++ value.dumps level) :: Plain.dumpsEntries level rest

end

/-- `text.replace("\n", "\n" + "  " * level)`. -/
def shifted (level : ℕ) (text : Text) : Text := text.flatMap (fun point => if point = lineBreak then newline level else [point])

variable {level : ℕ}

theorem shifted_append (first second : Text) : shifted level (first ++ second) = shifted level first ++ shifted level second :=
  flatMap_append

theorem shifted_of_plain {text : Text} (plain : lineBreak ∉ text) : shifted level text = text := by
  unfold shifted
  induction text with
  | nil => rfl
  | cons point rest ih =>
    rw [mem_cons, not_or] at plain
    rw [flatMap_cons, ih plain.2, if_neg (plain.1 ·.symm)]
    rfl

theorem shifted_newline (level below : ℕ) : shifted level (newline below) = newline (level + below) := by
  have spaces : lineBreak ∉ margin below := by
    intro mem
    exact absurd (eq_of_mem_replicate mem) (by decide)
  change (if lineBreak = lineBreak then newline level else [lineBreak]) ++ shifted level (margin below) = newline (level + below)
  rw [if_pos rfl, shifted_of_plain spaces]
  unfold newline margin
  rw [cons_append, <- replicate_add, Nat.mul_add]

theorem digit_plain : ∀ digit, digit < 16 -> CodePoint.scalar (Nat.digitChar digit) ≠ lineBreak := by decide

theorem escape_plain (point : CodePoint) : lineBreak ∉ escape point := by
  cases point with
  | surrogate value =>
    intro mem
    cases mem_singleton.mp mem
  | scalar char =>
    unfold escape
    by_cases isBreak : char = '\n'
    · rw [isBreak]
      decide
    · have other : lineBreak ≠ CodePoint.scalar char := fun same => isBreak (CodePoint.scalar.inj same).symm
      dsimp only
      split_ifs with quote backslash return_ tab feed back control
      any_goals decide
      · intro mem
        rcases mem_append.mp mem with start | digits
        · exact absurd start (by decide)
        · rcases mem_cons.mp digits with same | last
          · exact digit_plain _ (by omega) same.symm
          · exact digit_plain _ (by omega) (mem_singleton.mp last).symm
      · exact fun mem => other (mem_singleton.mp mem)

theorem quoted_plain (text : Text) : lineBreak ∉ quoted text := by
  unfold quoted
  rw [mem_append, mem_append, mem_flatMap]
  rintro ((quote | ⟨point, _, mem⟩) | quote)
  · exact absurd quote (by decide)
  · exact escape_plain point mem
  · exact absurd quote (by decide)

theorem written_plain (value : Scalar) : lineBreak ∉ value.written := by
  cases value with
  | null => decide
  | bool value => cases value <;> decide
  | number spelled => exact spelled.plain
  | text value => exact quoted_plain value

theorem shifted_block {opening closing : Text} (opens : lineBreak ∉ opening) (closes : lineBreak ∉ closing) (below : ℕ)
  (items : List Text) :
  shifted level (block opening closing below items) = block opening closing (level + below) (items.map (shifted level)) := by
  cases items with
  | nil =>
    simp [block, shifted_append, shifted_of_plain opens, shifted_of_plain closes]
  | cons first rest =>
    have comma : lineBreak ∉ Text.ofString "," := by decide
    have later : shifted level (rest.flatMap fun item => Text.ofString "," ++ newline (below + 1) ++ item) =
        (rest.map (shifted level)).flatMap (fun item => Text.ofString "," ++ newline (level + below + 1) ++ item) := by
      induction rest with
      | nil => rfl
      | cons item rest ih =>
        rw [flatMap_cons, map_cons, flatMap_cons, shifted_append, ih, shifted_append, shifted_append,
          shifted_of_plain comma, shifted_newline, Nat.add_assoc]
    simp only [block, map_cons, shifted_append, shifted_of_plain opens, shifted_of_plain closes, shifted_newline, later,
      Nat.add_assoc]

mutual

theorem shifted_dumps (below : ℕ) : ∀ value : Plain, shifted level (value.dumps below) = value.dumps (level + below)
  | .scalar value => shifted_of_plain (written_plain value)
  | .list items => by
    unfold Plain.dumps
    rw [shifted_block (by decide) (by decide), shifted_dumpsItems (below + 1) items, Nat.add_assoc]
  | .dict entries => by
    unfold Plain.dumps
    rw [shifted_block (by decide) (by decide), shifted_dumpsEntries (below + 1) entries, Nat.add_assoc]

theorem shifted_dumpsItems (below : ℕ) : ∀ items : List Plain,
    (Plain.dumpsItems below items).map (shifted level) = Plain.dumpsItems (level + below) items
  | [] => rfl
  | item :: rest => by
    unfold Plain.dumpsItems
    rw [map_cons, shifted_dumps below item, shifted_dumpsItems below rest]

theorem shifted_dumpsEntries (below : ℕ) : ∀ entries : List (Text × Plain),
    (Plain.dumpsEntries below entries).map (shifted level) = Plain.dumpsEntries (level + below) entries
  | [] => rfl
  | (key, value) :: rest => by
    have plain : lineBreak ∉ keyText key := by
      unfold keyText
      rw [mem_append]
      rintro (isKey | colon)
      · exact quoted_plain key isKey
      · exact absurd colon (by decide)
    unfold Plain.dumpsEntries
    rw [map_cons, shifted_append, shifted_of_plain plain, shifted_dumps below value, shifted_dumpsEntries below rest]

end

end BananaChat.Foundation

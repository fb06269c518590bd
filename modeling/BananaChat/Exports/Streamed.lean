import BananaChat.Foundation.JsonText

namespace BananaChat.Exports

open Foundation List

/-!
# The streamed export

An export is written in pieces while its lazy lists are read.
-/

/-- A value of an export; lazy lists are below dictionaries and lazy lists only. -/
inductive Export
  | plain (value : Plain)
  | dict (entries : List (Text × Export))
  | lazy (items : List Export)

mutual

def Export.resolved : Export -> Plain
  | .plain value => value
  | .dict entries => .dict (Export.resolvedEntries entries)
  | .lazy items => .list (Export.resolvedItems items)

def Export.resolvedItems : List Export -> List Plain
  | [] => []
  | item :: rest => item.resolved :: Export.resolvedItems rest

def Export.resolvedEntries : List (Text × Export) -> List (Text × Plain)
  | [] => []
  | (key, value) :: rest => (key, value.resolved) :: Export.resolvedEntries rest

end

mutual

def Export.holdsLazy : Export -> Bool
  | .plain _ => false
  | .dict entries => Export.anyLazy entries
  | .lazy _ => true

def Export.anyLazy : List (Text × Export) -> Bool
  | [] => false
  | (_, value) :: rest => value.holdsLazy || Export.anyLazy rest

end

section Pieces

-- `str` of a lazy list.
variable (shown : Text)

mutual

/-- What `json.dumps` with `default=str` sees. -/
def Export.asIs : Export -> Plain
  | .plain value => value
  | .dict entries => .dict (Export.entriesAsIs entries)
  | .lazy _ => .scalar (.text shown)

def Export.entriesAsIs : List (Text × Export) -> List (Text × Plain)
  | [] => []
  | (key, value) :: rest => (key, value.asIs) :: Export.entriesAsIs rest

end

def opens (opening : Text) (empty : Bool) (level : ℕ) : Text := (if empty then opening else Text.ofString ",") ++ newline (level + 1)

def closes (opening closing : Text) (empty : Bool) (level : ℕ) : Text :=
  if empty then opening ++ closing else newline level ++ closing

mutual

def Export.pieces (level : ℕ) : Export -> List Text
  | .plain value => [shifted level (value.dumps 0)]
  | .dict entries =>
    if Export.anyLazy entries then Export.entryPieces level true entries
    else [shifted level ((Plain.dict (Export.entriesAsIs shown entries)).dumps 0)]
  | .lazy items => Export.itemPieces level true items

/-- The loop over a lazy list. -/
def Export.itemPieces (level : ℕ) (empty : Bool) : List Export -> List Text
  | [] => [closes openList closeList empty level]
  | item :: rest => opens openList empty level :: (item.pieces (level + 1) ++ Export.itemPieces level false rest)

/-- The loop over a dictionary. -/
def Export.entryPieces (level : ℕ) (empty : Bool) : List (Text × Export) -> List Text
  | [] => [closes openDict closeDict empty level]
  | (key, value) :: rest =>
    opens openDict empty level :: keyText key :: (value.pieces (level + 1) ++ Export.entryPieces level false rest)

end

/-- The loop of `stream`, with the pieces that wait and their size. -/
def chunks (bytes : ℕ) : List Text -> List Text -> ℕ -> List Text
  | [], pieces, _ => if pieces = [] then [] else [pieces.flatten]
  | piece :: rest, pieces, size =>
    if bytes <= size + piece.length then (pieces ++ [piece]).flatten :: chunks bytes rest [] 0
    else chunks bytes rest (pieces ++ [piece]) (size + piece.length)

/-- `stream` of a payload. -/
def stream (bytes : ℕ) (payload : Export) : List Text := chunks bytes (payload.pieces shown 0) [] 0

mutual

theorem asIs_of_plain : ∀ value : Export, value.holdsLazy = false -> value.asIs shown = value.resolved
  | .plain _, _ => rfl
  | .dict entries, plain => congrArg Plain.dict (entriesAsIs_of_plain entries plain)
  | .lazy _, plain => by cases plain

theorem entriesAsIs_of_plain : ∀ entries : List (Text × Export), Export.anyLazy entries = false ->
    Export.entriesAsIs shown entries = Export.resolvedEntries entries
  | [], _ => rfl
  | (key, value) :: rest, plain => by
    unfold Export.anyLazy at plain
    rw [Bool.or_eq_false_iff] at plain
    unfold Export.entriesAsIs Export.resolvedEntries
    rw [asIs_of_plain value plain.1, entriesAsIs_of_plain rest plain.2]

end

def ending (closing : Text) (level : ℕ) (items : List Text) : Text :=
  items.flatMap (fun item => Text.ofString "," ++ newline (level + 1) ++ item) ++ newline level ++ closing

theorem ending_nil (opening closing : Text) (level : ℕ) : closes opening closing false level = ending closing level [] := rfl

theorem ending_cons (opening closing : Text) (level : ℕ) (item : Text) (items : List Text) :
  opens opening false level ++ (item ++ ending closing level items) = ending closing level (item :: items) := by
  unfold opens ending
  simp

theorem block_cons (opening closing : Text) (level : ℕ) (item : Text) (items : List Text) :
  opens opening true level ++ (item ++ ending closing level items) = block opening closing level (item :: items) := by
  unfold opens ending block
  simp

mutual

theorem pieces_flatten (level : ℕ) : ∀ value : Export, (value.pieces shown level).flatten = value.resolved.dumps level
  | .plain value => by
    unfold Export.pieces
    rw [flatten_singleton, shifted_dumps]
    rfl
  | .dict entries => by
    unfold Export.pieces
    by_cases holds : Export.anyLazy entries
    · rw [if_pos holds]
      cases entries with
      | nil => rfl
      | cons entry rest =>
        rcases entry with ⟨key, value⟩
        unfold Export.entryPieces
        rw [flatten_cons, flatten_cons, flatten_append, pieces_flatten (level + 1) value,
          entryPieces_flatten level rest, <- append_assoc (keyText key), block_cons]
        rfl
    · rw [if_neg holds, flatten_singleton, shifted_dumps, entriesAsIs_of_plain shown entries (Bool.eq_false_iff.mpr holds)]
      rfl
  | .lazy items => by
    unfold Export.pieces
    cases items with
    | nil => rfl
    | cons item rest =>
      unfold Export.itemPieces
      rw [flatten_cons, flatten_append, pieces_flatten (level + 1) item, itemPieces_flatten level rest, block_cons]
      rfl

theorem itemPieces_flatten (level : ℕ) : ∀ items : List Export, (Export.itemPieces shown level false items).flatten =
      ending closeList level (Plain.dumpsItems (level + 1) (Export.resolvedItems items))
  | [] => by
    unfold Export.itemPieces
    rw [flatten_singleton, ending_nil]
    rfl
  | item :: rest => by
    unfold Export.itemPieces
    rw [flatten_cons, flatten_append, pieces_flatten (level + 1) item, itemPieces_flatten level rest, ending_cons]
    rfl

theorem entryPieces_flatten (level : ℕ) : ∀ entries : List (Text × Export),
    (Export.entryPieces shown level false entries).flatten =
      ending closeDict level (Plain.dumpsEntries (level + 1) (Export.resolvedEntries entries))
  | [] => by
    unfold Export.entryPieces
    rw [flatten_singleton, ending_nil]
    rfl
  | (key, value) :: rest => by
    unfold Export.entryPieces
    rw [flatten_cons, flatten_cons, flatten_append, pieces_flatten (level + 1) value,
      entryPieces_flatten level rest, <- append_assoc (keyText key), ending_cons]
    rfl

end

theorem chunks_flatten (bytes : ℕ) (later pieces : List Text) (size : ℕ) :
  (chunks bytes later pieces size).flatten = pieces.flatten ++ later.flatten := by
  induction later generalizing pieces size with
  | nil =>
    unfold chunks
    rw [flatten_nil, append_nil]
    split
    · rename_i nothing
      rw [nothing]
    · rw [flatten_singleton]
  | cons piece rest ih =>
    have joined : (pieces ++ [piece]).flatten ++ rest.flatten = pieces.flatten ++ (piece :: rest).flatten := by
      rw [flatten_append, flatten_singleton, flatten_cons, append_assoc]
    unfold chunks
    split
    · rw [flatten_cons, ih, flatten_nil, nil_append, joined]
    · rw [ih, joined]

/-- The download is one document, whatever the size of the chunks. -/
theorem export_streamed (payload : Export) (bytes : ℕ) : (payload.pieces shown 0).flatten = payload.resolved.dumps 0 /\
    (stream shown bytes payload).flatten = payload.resolved.dumps 0 := by
  have written := pieces_flatten shown 0 payload
  refine ⟨written, ?_⟩
  unfold stream
  rw [chunks_flatten, written]
  rfl

end Pieces

end BananaChat.Exports

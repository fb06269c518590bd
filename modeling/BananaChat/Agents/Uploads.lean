import BananaChat.Foundation.PosixPath
import Mathlib.Data.List.DropRight
import Mathlib.Data.List.Nodup
import Mathlib.Data.List.Perm.Subperm

namespace BananaChat.Agents.Uploads

open Foundation List

/-!
# Names of uploaded files

A file's name is reduced to safe characters and cut, and a counter is put before it while another
file has it.
-/

def maxFiles : ℕ := 20

def backslash : CodePoint := .scalar '\\'

def underscore : CodePoint := .scalar '_'

/-- `[A-Za-z0-9._-]`. -/
def isSafe : CodePoint -> Bool
  | .scalar char => 'A' <= char /\ char <= 'Z' \/ 'a' <= char /\ char <= 'z' \/ '0' <= char /\ char <= '9' \/ char ∈ ['.', '_', '-']
  | .surrogate _ => false

/-- What `strip("._")` takes away. -/
def isEnd (point : CodePoint) : Bool := point = dot \/ point = underscore

/-- One `_` for each run of unsafe characters. -/
def substitute (inRun : Bool) : Text -> Text
  | [] => []
  | point :: rest =>
    if isSafe point then
      point :: substitute false rest
    else if inRun then
      substitute true rest
    else
      underscore :: substitute true rest

def stripEnds (text : Text) : Text := (text.dropWhile isEnd).rdropWhile isEnd

def afterSlash (text : Text) : Text := text.rtakeWhile fun point => point ≠ slash

def safeName (name : Text) : Text :=
  let base := stripEnds (substitute false (afterSlash (name.map fun point => if point = backslash then slash else point)))
  (if base = [] then Text.ofString "file" else base).take 100

/-- What a stored file is to be extracted as; `file` where `archive_kind` gives none. -/
inductive Kind where
  | file
  | zip
  | tar
deriving DecidableEq

/-- `str.lower` of the letters that a safe name may have. -/
def lower : CodePoint -> CodePoint
  | .scalar char => .scalar char.toLower
  | .surrogate value => .surrogate value

def archiveKind (name : Text) : Kind :=
  if Text.ofString ".zip" <:+ name.map lower then
    .zip
  else if Text.ofString ".tar.gz" <:+ name.map lower \/ Text.ofString ".tgz" <:+ name.map lower then
    .tar
  else
    .file

structure File where
  filename : Text
  data : List UInt8

structure Item where
  name : Text
  kind : Kind
  data : List UInt8

inductive UploadError where
  | tooMany (max : ℕ)
  | tooLarge (size : ℕ)

def counterText (counter : ℕ) : Text := Text.ofString (toString counter ++ "-")

def prefixed (counter : ℕ) (stem : Text) : Text := (counterText counter ++ stem).take 100

/-- The renaming loop, for so many passes; none where it goes on. -/
def renamed (names : List Text) (stem : Text) : ℕ -> ℕ -> Text -> Option Text
  | 0, _, name => if names.contains name then none else some name
  | passes + 1, counter, name => if names.contains name then renamed names stem passes (counter + 1) (prefixed counter stem) else some name

def readFrom (maxBytes : ℕ) : List File -> ℕ -> List Text -> Option (Except UploadError (List Item))
  | [], _, _ => some (.ok [])
  | file :: rest, total, names =>
    let data := file.data.take (maxBytes - total + 1)
    let total := total + data.length
    if maxBytes < total then
      some (.error (.tooLarge (maxBytes / (1024 * 1024))))
    else
      let stem := safeName file.filename
      (renamed names stem maxFiles 2 stem).bind fun name =>
        (readFrom maxBytes rest total (name :: names)).map fun result => result.map fun items => ⟨name, archiveKind name, data⟩ :: items

def present (files : List File) : List File := files.filter fun file => file.filename ≠ []

def readUploads (files : List File) (maxBytes : ℕ) : Option (Except UploadError (List Item)) :=
  if maxFiles < (present files).length then some (.error (.tooMany maxFiles)) else readFrom maxBytes (present files) 0 []

structure Stored where
  file : String
  name : Text
  kind : Kind
  data : List UInt8

def binName (index : ℕ) : String := (if index < 10 then "0" else "") ++ toString index ++ ".bin"

/-- `\d{2}\.bin`. -/
def isBin (file : String) : Bool :=
  match file.toList with
  | [first, second, '.', 'b', 'i', 'n'] => first.isDigit && second.isDigit
  | _ => false

def write (items : List Item) : List Stored := items.mapIdx fun index item => ⟨binName index, item.name, item.kind, item.data⟩

def pending (stored : List Stored) : List Stored :=
  (stored.filter fun entry => isBin entry.file).map fun entry => { entry with name := safeName entry.name }

variable {text name stem found : Text} {names : List Text}

theorem substitute_safe (text : Text) (inRun : Bool) (point : CodePoint) (mem : point ∈ substitute inRun text) : isSafe point := by
  induction text generalizing inRun with
  | nil => cases mem
  | cons first rest ih =>
    unfold substitute at mem
    split at mem
    · rename_i safe
      rcases mem_cons.mp mem with rfl | later
      · exact safe
      · exact ih _ later
    · split at mem
      · exact ih _ mem
      · rcases mem_cons.mp mem with rfl | later
        · decide
        · exact ih _ later

theorem substitute_eq_self (safe : ∀ point ∈ text, isSafe point) : substitute false text = text := by
  induction text with
  | nil => rfl
  | cons point rest ih => rw [substitute, if_pos (safe point (.head _)), ih fun other mem => safe other (.tail _ mem)]

/-- A name that `safe_name` leaves as it is. -/
structure Fixed (name : Text) : Prop where
  nonempty : name ≠ []
  short : name.length <= 100
  safe : ∀ point ∈ name, isSafe point
  first : ∀ point, name.head? = some point -> isEnd point = false
  last : ∀ point, name.getLast? = some point -> isEnd point = false

theorem Fixed.safeName_eq (fixed : Fixed name) : safeName name = name := by
  have noBackslash : (name.map fun point => if point = backslash then slash else point) = name := by
    refine (map_congr_left fun point mem => if_neg ?_).trans (map_id' name)
    rintro rfl
    exact absurd (fixed.safe _ mem) (by decide)
  have noSlash : afterSlash name = name := by
    refine rtakeWhile_eq_self_iff.mpr fun point mem => decide_eq_true ?_
    rintro rfl
    exact absurd (fixed.safe _ mem) (by decide)
  have stripped : stripEnds name = name := by
    have left : name.dropWhile isEnd = name := by
      cases name with
      | nil => rfl
      | cons point rest => exact dropWhile_cons_of_neg (Bool.eq_false_iff.mp (fixed.first point rfl))
    rw [stripEnds, left]
    refine rdropWhile_eq_self_iff.mpr fun nonempty => Bool.eq_false_iff.mp (fixed.last _ (getLast?_eq_getLast_of_ne_nil nonempty))
  unfold safeName
  rw [noBackslash, noSlash, substitute_eq_self fixed.safe, stripped]
  dsimp only
  rw [if_neg fixed.nonempty, take_of_length_le fixed.short]

theorem safeName_facts (name : Text) : safeName name ≠ [] /\ (safeName name).length <= 100 /\
  (∀ point ∈ safeName name, isSafe point) /\ ((safeName name).length <= 97 -> Fixed (safeName name)) := by
  have based (base : Text) (nonempty : base ≠ []) (safe : ∀ point ∈ base, isSafe point)
      (first : ∀ point, base.head? = some point -> isEnd point = false)
      (last : ∀ point, base.getLast? = some point -> isEnd point = false) :
      base.take 100 ≠ [] /\ (base.take 100).length <= 100 /\ (∀ point ∈ base.take 100, isSafe point) /\
        ((base.take 100).length <= 97 -> Fixed (base.take 100)) := by
    refine ⟨fun empty => ?_, length_take_le _ _, fun point mem => safe point (mem_of_mem_take mem), fun short => ?_⟩
    · rcases take_eq_nil_iff.mp empty with zero | none
      · cases zero
      · exact nonempty none
    · rw [length_take] at short
      rw [take_of_length_le (by omega)]
      exact ⟨nonempty, by omega, safe, first, last⟩
  unfold safeName
  dsimp only
  generalize cleaned : substitute false (afterSlash (name.map fun point => if point = backslash then slash else point)) = text
  have safe (point : CodePoint) (mem : point ∈ text) : isSafe point := substitute_safe _ _ point (cleaned ▸ mem)
  split
  · exact based _ (by decide) (by decide) (by rintro point ⟨⟩; rfl) (by rintro point ⟨⟩; rfl)
  · rename_i nonempty
    have isPrefix : stripEnds text <+: text.dropWhile isEnd := rdropWhile_prefix _ _
    refine based _ nonempty (fun point mem => safe point ((dropWhile_sublist _).subset (isPrefix.subset mem))) ?_ ?_
    · intro point isFirst
      rcases isPrefix with ⟨_, same⟩
      have kept := head?_dropWhile_not isEnd text
      rw [<- same, head?_append, isFirst] at kept
      exact kept
    · intro _ isLast
      have kept := rdropWhile_last_not isEnd (text.dropWhile isEnd) nonempty
      rw [<- Option.some.inj ((getLast?_eq_getLast_of_ne_nil nonempty).symm.trans isLast)]
      exact Bool.eq_false_iff.mpr kept

/-- The counters that the loop can come to. -/
theorem counterText_facts : ∀ counter, counter < 22 -> 2 <= counter ->
  (counterText counter).length <= 3 /\ (∀ point ∈ counterText counter, isSafe point) /\
    (∀ point ∈ (counterText counter).head?, isEnd point = false) /\ counterText counter ≠ [] /\
    .scalar '.' ∉ (counterText counter).map lower := by
  decide +kernel

theorem counterText_injective : ∀ first, first < 22 -> ∀ second, second < 22 ->
  (counterText first).take 2 = (counterText second).take 2 -> first = second := by
  decide +kernel

variable {passes counter : ℕ}

theorem renamed_mem (none : renamed names stem passes counter name = none) : name ∈ names := by
  cases passes with
  | zero | succ passes =>
    unfold renamed at none
    split at none
    · exact contains_iff_mem.mp ‹_›
    · cases none

theorem renamed_none (none : renamed names stem passes counter name = none) (k : ℕ) (below : k < passes) :
  prefixed (counter + k) stem ∈ names := by
  induction passes generalizing counter name k with
  | zero => cases below
  | succ passes ih =>
    have mem := renamed_mem none
    rw [renamed, if_pos (contains_iff_mem.mpr mem)] at none
    cases k with
    | zero => exact renamed_mem none
    | succ k =>
      rw [Nat.add_comm k 1, <- Nat.add_assoc]
      exact ih none k (Nat.lt_of_succ_lt_succ below)

theorem renamed_some (isFound : renamed names stem passes counter name = some found) :
  found ∉ names /\ (found = name \/ ∃ k, counter <= k /\ k < counter + passes /\ found = prefixed k stem) := by
  induction passes generalizing counter name with
  | zero =>
    unfold renamed at isFound
    split at isFound
    · cases isFound
    · cases isFound
      exact ⟨mt contains_iff_mem.mpr ‹_›, .inl rfl⟩
  | succ passes ih =>
    unfold renamed at isFound
    split at isFound
    · rcases ih isFound with ⟨free, same | ⟨k, _, _, same⟩⟩
      · exact ⟨free, .inr ⟨counter, le_rfl, by omega, same⟩⟩
      · exact ⟨free, .inr ⟨k, by omega, by omega, same⟩⟩
    · cases isFound
      exact ⟨mt contains_iff_mem.mpr ‹_›, .inl rfl⟩

/-- Twenty counters give twenty names, which nineteen files cannot all have. -/
theorem renamed_ends (stem : Text) (few : names.length < maxFiles) : ∃ found, renamed names stem maxFiles 2 stem = some found := by
  cases isFound : renamed names stem maxFiles 2 stem with
  | some found => exact ⟨found, rfl⟩
  | none =>
    have distinct : ((range maxFiles).map fun k => prefixed (2 + k) stem).Nodup := by
      refine Nodup.map_on (fun first isFirst second isSecond same => ?_) nodup_range
      have low := mem_range.mp isFirst
      have high := mem_range.mp isSecond
      unfold maxFiles at low high
      have heads (counter : ℕ) (below : counter < 22) (above : 2 <= counter) : (prefixed counter stem).take 2 = (counterText counter).take 2 := by
        have two : ∀ counter, counter < 22 -> 2 <= counter -> 2 <= (counterText counter).length := by decide +kernel
        rw [prefixed, take_take, Nat.min_eq_left (by decide), take_append_of_le_length (two counter below above)]
      have equal := congrArg (·.take 2) same
      rw [heads _ (by omega) (by omega), heads _ (by omega) (by omega)] at equal
      have numbers := counterText_injective _ (by omega) _ (by omega) equal
      omega
    have inside : ((range maxFiles).map fun k => prefixed (2 + k) stem) ⊆ names := by
      intro _ mem
      rcases mem_map.mp mem with ⟨k, isK, rfl⟩
      exact renamed_none isFound k (mem_range.mp isK)
    have short := (subperm_of_subset distinct inside).length_le
    rw [length_map, length_range] at short
    omega

theorem suffix_front {front : Text} (suffix : Text) {rest : Text} (isSuffix : suffix = .scalar '.' :: rest) (apart : .scalar '.' ∉ front) :
  suffix <:+ front ++ text ↔ suffix <:+ text := by
  refine ⟨fun behind => ?_, fun behind => behind.trans (suffix_append front text)⟩
  rcases Nat.le_total suffix.length text.length with short | long
  · exact suffix_of_suffix_length_le behind (suffix_append front text) short
  · rcases suffix_of_suffix_length_le (suffix_append front text) behind long with ⟨more, same⟩
    rcases behind with ⟨_, whole⟩
    rw [<- same, <- append_assoc] at whole
    have parts := append_cancel_right whole
    cases more with
    | nil =>
      rw [<- same]
      exact suffix_rfl
    | cons point more =>
      rw [isSuffix, cons_append] at same
      refine absurd ?_ apart
      rw [<- parts, (cons.inj same).1]
      exact mem_append_right _ (.head _)

theorem archiveKind_append {front : Text} (apart : .scalar '.' ∉ front.map lower) : archiveKind (front ++ text) = archiveKind text := by
  unfold archiveKind
  simp only [map_append, suffix_front (Text.ofString ".zip") rfl apart, suffix_front (Text.ofString ".tar.gz") rfl apart,
    suffix_front (Text.ofString ".tgz") rfl apart]

theorem renamed_facts (filename : Text) (isFound : renamed names (safeName filename) maxFiles 2 (safeName filename) = some found) :
  found ∉ names /\ found ≠ [] /\ found.length <= 100 /\ (∀ point ∈ found, isSafe point) /\
    ((safeName filename).length <= 97 -> archiveKind found = archiveKind (safeName filename) /\ safeName found = found) := by
  rcases safeName_facts filename with ⟨nonempty, short, safe, uncut⟩
  rcases renamed_some isFound with ⟨free, rfl | ⟨k, low, high, rfl⟩⟩
  · exact ⟨free, nonempty, short, safe, fun within => ⟨rfl, (uncut within).safeName_eq⟩⟩
  · rcases counterText_facts k (by unfold maxFiles at high; omega) low with ⟨_, digits, first, some_, apart⟩
    have allSafe (point : CodePoint) (mem : point ∈ counterText k ++ safeName filename) : isSafe point := by
      rcases mem_append.mp mem with inFront | inStem
      · exact digits point inFront
      · exact safe point inStem
    refine ⟨free, fun empty => ?_, length_take_le _ _, fun point mem => allSafe point (mem_of_mem_take mem), fun within => ?_⟩
    · rcases take_eq_nil_iff.mp empty with zero | none
      · cases zero
      · exact some_ (append_eq_nil_iff.mp none).1
    · have whole : prefixed k (safeName filename) = counterText k ++ safeName filename := by
        refine take_of_length_le ?_
        rw [length_append]
        omega
      rw [whole]
      refine ⟨archiveKind_append apart, Fixed.safeName_eq ⟨?_, ?_, allSafe, ?_, ?_⟩⟩
      · exact fun empty => some_ (append_eq_nil_iff.mp empty).1
      · rw [length_append]
        omega
      · intro point isFirst
        refine first point ?_
        rw [head?_append_of_ne_nil _ some_] at isFirst
        exact isFirst
      · intro point isLast
        rw [getLast?_append_of_ne_nil _ nonempty] at isLast
        exact (uncut within).last point isLast

def Becomes (file : File) (item : Item) : Prop :=
  item.name ≠ [] /\ item.name.length <= 100 /\ (∀ point ∈ item.name, isSafe point) /\ item.data = file.data /\
    item.kind = archiveKind item.name /\
    ((safeName file.filename).length <= 97 -> item.kind = archiveKind (safeName file.filename) /\ safeName item.name = item.name)

theorem readFrom_ends (maxBytes : ℕ) (files : List File) (total : ℕ) (names : List Text) (few : files.length + names.length <= maxFiles) :
  ∃ result, readFrom maxBytes files total names = some result /\ ∀ items, result = .ok items ->
    (items.map Item.name).Nodup /\ (∀ item ∈ items, item.name ∉ names) /\ Forall₂ Becomes files items := by
  induction files generalizing total names with
  | nil =>
    refine ⟨_, rfl, fun items same => ?_⟩
    cases same
    exact ⟨nodup_nil, fun _ mem => (by cases mem), .nil⟩
  | cons file rest ih =>
    unfold readFrom
    dsimp only
    split
    · exact ⟨_, rfl, fun items same => by cases same⟩
    · rename_i within
      rw [length_cons] at few
      have room : names.length < maxFiles := by omega
      rcases renamed_ends (safeName file.filename) room with ⟨found, isFound⟩
      rcases renamed_facts file.filename isFound with ⟨free, nonempty, short, safe, uncut⟩
      rcases ih (total + (file.data.take (maxBytes - total + 1)).length) (found :: names) (by rw [length_cons]; omega) with
        ⟨result, isResult, good⟩
      rw [isFound, Option.bind_some, isResult]
      refine ⟨_, rfl, fun items same => ?_⟩
      cases result with
      | error error => cases same
      | ok items =>
        cases same
        rcases good items rfl with ⟨distinct, apart, becomes⟩
        have whole : file.data.take (maxBytes - total + 1) = file.data := by
          rw [length_take] at within
          exact take_of_length_le (by omega)
        refine ⟨nodup_cons.mpr ⟨fun mem => ?_, distinct⟩, fun item mem => ?_,
          .cons ⟨nonempty, short, safe, whole, rfl, uncut⟩ becomes⟩
        · rcases mem_map.mp mem with ⟨item, isItem, same⟩
          exact apart item isItem (same ▸ .head _)
        · rcases mem_cons.mp mem with rfl | later
          · exact free
          · exact fun named => apart item later (.tail _ named)

theorem pending_write (items : List Item) (few : items.length <= maxFiles) :
  (pending (write items)).map (fun entry => (entry.name, entry.kind, entry.data)) =
    items.map fun item => (safeName item.name, item.kind, item.data) := by
  have bins : ∀ index, index < maxFiles -> isBin (binName index) := by decide +kernel
  unfold pending
  rw [filter_eq_self.mpr, map_map, write]
  · refine ext_getElem? fun place => ?_
    rw [getElem?_map, getElem?_mapIdx, getElem?_map, Option.map_map]
    rfl
  · intro _ mem
    rcases mem_mapIdx.mp mem with ⟨index, _, rfl⟩
    exact bins index (by omega)

def letters : Text := Text.ofString (String.ofList (replicate 99 'a'))

end BananaChat.Agents.Uploads

import BananaChat.Foundation.Text

namespace BananaChat.Foundation

open List

/-!
# POSIX paths

The components of a path lie between its slashes.
-/

def slash : CodePoint := .scalar '/'

def dot : CodePoint := .scalar '.'

/-- `path.split("/")`. -/
def components : Text -> List Text
  | [] => [[]]
  | point :: rest =>
    if point = slash then
      [] :: components rest
    else
      match components rest with
      | [] => [[point]]
      | piece :: pieces => (point :: piece) :: pieces

/-- `"/".join(pieces)`. -/
def joinSlash : List Text -> Text
  | [] => []
  | [piece] => piece
  | piece :: next :: pieces => piece ++ slash :: joinSlash (next :: pieces)

/-- One pass of the loop of `normpath`; the last component kept stands first. -/
def enter (rooted : Bool) (kept : List Text) (piece : Text) : List Text :=
  if piece = [] \/ piece = [dot] then
    kept
  else if piece ≠ [dot, dot] \/ rooted = false /\ kept = [] \/ kept.head? = some [dot, dot] then
    piece :: kept
  else
    kept.tail

def initialSlashes (path : Text) : ℕ :=
  if [slash] <+: path then
    if [slash, slash] <+: path /\ ¬ [slash, slash, slash] <+: path then 2 else 1
  else
    0

def normpath (path : Text) : Text :=
  if path = [] then
    [dot]
  else
    let slashes := initialSlashes path
    let normal := replicate slashes slash ++ joinSlash ((components path).foldl (enter ((0 < slashes))) []).reverse
    if normal = [] then [dot] else normal

def place (path : Text) : List Text := ((components path).foldl (enter true) []).reverse

def PlainPart (piece : Text) : Prop := piece ≠ [] /\ piece ≠ [dot] /\ piece ≠ [dot, dot] /\ slash ∉ piece

variable {path piece : Text} {pieces : List Text}

theorem slash_not_mem (member : piece ∈ components path) : slash ∉ piece := by
  induction path generalizing piece with
  | nil =>
    cases mem_singleton.mp member
    exact not_mem_nil
  | cons point rest ih =>
    unfold components at member
    split at member
    · rcases mem_cons.mp member with rfl | later
      · exact not_mem_nil
      · exact ih later
    · rename_i other
      split at member
      · cases mem_singleton.mp member
        exact fun mem => other (mem_singleton.mp mem).symm
      · rename_i first more split
        rcases mem_cons.mp member with rfl | later
        · intro mem
          rcases mem_cons.mp mem with same | deep
          · exact other same.symm
          · exact ih (split ▸ .head _) deep
        · exact ih (split ▸ mem_cons_of_mem _ later)

theorem mem_of_components {point : CodePoint} (member : piece ∈ components path) (mem : point ∈ piece) : point ∈ path := by
  induction path generalizing piece with
  | nil =>
    cases mem_singleton.mp member
    cases mem
  | cons head rest ih =>
    unfold components at member
    split at member
    · rcases mem_cons.mp member with rfl | later
      · cases mem
      · exact .tail _ (ih later mem)
    · split at member
      · cases mem_singleton.mp member
        cases mem_singleton.mp mem
        exact .head _
      · rename_i first more split
        rcases mem_cons.mp member with rfl | later
        · rcases mem_cons.mp mem with same | deep
          · exact same ▸ mem_cons_self
          · exact .tail _ (ih (split ▸ .head _) deep)
        · exact .tail _ (ih (split ▸ mem_cons_of_mem _ later) mem)

theorem components_slash (path : Text) : components (slash :: path) = [] :: components path := if_pos rfl

theorem components_append (absent : slash ∉ piece) (path : Text) :
  components (piece ++ slash :: path) = piece :: components path := by
  induction piece with
  | nil => exact components_slash path
  | cons point rest ih =>
    rw [cons_append, components, if_neg (fun same : point = slash => absent (same ▸ .head _)),
      ih fun later => absent (.tail _ later)]

theorem components_plain (absent : slash ∉ piece) : components piece = [piece] := by
  induction piece with
  | nil => rfl
  | cons point rest ih =>
    rw [components, if_neg (fun same : point = slash => absent (same ▸ .head _)), ih fun later => absent (.tail _ later)]

theorem components_join (nonempty : pieces ≠ []) (absent : ∀ piece ∈ pieces, slash ∉ piece) :
  components (joinSlash pieces) = pieces := by
  induction pieces with
  | nil => exact absurd rfl nonempty
  | cons piece rest ih =>
    cases rest with
    | nil => exact components_plain (absent piece mem_cons_self)
    | cons next more =>
      unfold joinSlash
      rw [components_append (absent piece mem_cons_self),
        ih (cons_ne_nil _ _) fun other mem => absent other (mem_cons_of_mem _ mem)]

theorem mem_join {point : CodePoint} (mem : point ∈ joinSlash pieces) : point = slash \/ ∃ piece ∈ pieces, point ∈ piece := by
  induction pieces with
  | nil => cases mem
  | cons piece rest ih =>
    cases rest with
    | nil => exact .inr ⟨piece, mem_cons_self, mem⟩
    | cons next more =>
      rcases mem_append.mp mem with inPiece | later
      · exact .inr ⟨piece, mem_cons_self, inPiece⟩
      · rcases mem_cons.mp later with same | deep
        · exact .inl same
        · rcases ih deep with same | ⟨other, isOther, inOther⟩
          · exact .inl same
          · exact .inr ⟨other, mem_cons_of_mem _ isOther, inOther⟩

theorem enter_plain {kept : List Text} (plain : ∀ piece ∈ kept, PlainPart piece /\ piece ∈ components path)
  (member : piece ∈ components path) (other : Text) (mem : other ∈ enter true kept piece) : PlainPart other /\ other ∈ components path := by
  unfold enter at mem
  split at mem
  · exact plain other mem
  · rename_i named
    split at mem
    · rename_i pushed
      rcases mem_cons.mp mem with rfl | old
      · refine ⟨⟨fun empty => named (.inl empty), fun here => named (.inr here), ?_, slash_not_mem member⟩, member⟩
        rcases pushed with differs | ⟨clash, _⟩ | parent
        · exact differs
        · cases clash
        · exact absurd rfl (plain _ (mem_of_mem_head? parent)).1.2.2.1
      · exact plain other old
    · exact plain other (mem_of_mem_tail mem)

theorem place_plain (path piece : Text) (member : piece ∈ place path) : PlainPart piece /\ piece ∈ components path := by
  have all (parts kept : List Text) (own : ∀ part ∈ parts, part ∈ components path)
      (plain : ∀ piece ∈ kept, PlainPart piece /\ piece ∈ components path) :
      ∀ piece ∈ parts.foldl (enter true) kept, PlainPart piece /\ piece ∈ components path := by
    induction parts generalizing kept with
    | nil => exact plain
    | cons part parts ih =>
      exact ih _ (fun other mem => own other (mem_cons_of_mem _ mem)) (enter_plain plain (own part mem_cons_self))
  exact all _ [] (fun _ mem => mem) (fun _ clash => by cases clash) piece (mem_reverse.mp member)

theorem place_join (plain : ∀ piece ∈ pieces, PlainPart piece) : place (slash :: joinSlash pieces) = pieces := by
  have all (parts kept : List Text) (plain : ∀ piece ∈ parts, PlainPart piece) :
      parts.foldl (enter true) kept = parts.reverse ++ kept := by
    induction parts generalizing kept with
    | nil => rfl
    | cons part parts ih =>
      have own := plain part mem_cons_self
      have pushed : enter true kept part = part :: kept := by
        unfold enter
        rw [if_neg (not_or.mpr ⟨own.1, own.2.1⟩), if_pos (.inl own.2.2.1)]
      rw [foldl_cons, pushed, ih _ (fun other mem => plain other (.tail _ mem)), reverse_cons,
        append_assoc, singleton_append]
  unfold place
  rw [components_slash]
  cases pieces with
  | nil => rfl
  | cons piece more =>
    rw [components_join (cons_ne_nil _ _) (fun other mem => (plain other mem).2.2.2), foldl_cons]
    have skipped : enter true [] [] = [] := if_pos (.inl rfl)
    rw [skipped, all _ _ plain, append_nil, reverse_reverse]

theorem initialSlashes_rooted (rooted : [slash] <+: path) : initialSlashes path = 1 \/ initialSlashes path = 2 := by
  unfold initialSlashes
  rw [if_pos rooted]
  split
  · exact .inr rfl
  · exact .inl rfl

theorem normpath_rooted (rooted : [slash] <+: path) :
  normpath path = replicate (initialSlashes path) slash ++ joinSlash (place path) := by
  have nonempty : path ≠ [] := fun empty => by
    rw [empty] at rooted
    cases prefix_nil.mp rooted
  have slashes := initialSlashes_rooted rooted
  have positive : decide (0 < initialSlashes path) := decide_eq_true (by omega)
  unfold normpath
  rw [if_neg nonempty]
  dsimp only
  rw [positive]
  refine if_neg fun empty => ?_
  have none := congrArg length (append_eq_nil_iff.mp empty).1
  rw [length_replicate, length_nil] at none
  omega

theorem join_head (plain : ∀ piece ∈ pieces, PlainPart piece) : (joinSlash pieces).head? ≠ some slash := by
  cases pieces with
  | nil => exact fun clash => by cases clash
  | cons piece rest =>
    have own := plain piece mem_cons_self
    cases piece with
    | nil => exact absurd rfl own.1
    | cons point more =>
      have first : (joinSlash ((point :: more) :: rest)).head? = some point := by cases rest <;> rfl
      rw [first]
      exact fun same => own.2.2.2 (Option.some.inj same ▸ .head _)

end BananaChat.Foundation

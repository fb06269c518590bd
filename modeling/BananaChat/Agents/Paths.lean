import BananaChat.Foundation.PosixPath
import BananaChat.SignIn.Totp

namespace BananaChat.Agents

/-!
# Paths in a workspace

The server and the sandbox runner each bring a path to its normal form before they use it.
-/

open Foundation SignIn List Bool

def workspace : Text := Text.ofString "/workspace"

def isControl : CodePoint -> Bool
  | .scalar char => char.toNat < 32 \/ char.toNat = 127
  | .surrogate _ => false

def isSurrogate : CodePoint -> Bool
  | .scalar _ => false
  | .surrogate _ => true

/-- `len(text.encode("utf-8", "surrogatepass"))`. -/
def utf8Length (text : Text) : ℕ :=
  (text.map fun point =>
    match point with
    | .scalar char => char.utf8Size
    | .surrogate _ => 3).sum

/-- The value, below `/workspace` where it is relative. -/
def absolute (value : Text) : Text := if [slash] <+: value then value else workspace ++ slash :: value

/-- One leading slash in place of several. -/
def oneSlash (path : Text) : Text := if [slash, slash] <+: path then slash :: path.dropWhile fun point => point == slash else path

def Inside (path : Text) : Prop := path = workspace \/ workspace ++ [slash] <+: path

instance (path : Text) : Decidable (Inside path) := inferInstanceAs (Decidable (_ \/ _))

namespace Tools

def maxPath : ℕ := 1024

def resolvePath (value : Text) : Except String Text :=
  if strip value = [] then
    .error "path must be a non-empty string."
  else if maxPath < value.length then
    .error "path is longer than 1024 characters."
  else if value.any isControl then
    .error "path contains control characters."
  else
    let normal := oneSlash (normpath (absolute (strip value)))
    if ¬ Inside normal then .error "path must stay inside /workspace." else .ok normal

end Tools

namespace SandboxRunner

structure ApiError where
  status : ℕ
  code : String
  message : String
deriving DecidableEq

def maxPath : ℕ := 4096

def maxComponent : ℕ := 255

def invalidPath (message : String) : Except ApiError Text := .error ⟨400, "invalid_path", message⟩

def cleanPath (value : Text) (allowRoot : Bool) : Except ApiError Text :=
  if value = [] then
    invalidPath "A path under /workspace is required."
  else if maxPath < utf8Length value then
    invalidPath "The path is too long."
  else if value.any isControl then
    invalidPath "The path contains control characters."
  else if value.any isSurrogate then
    invalidPath "The path is not valid UTF-8."
  else
    let path := oneSlash (normpath (absolute value))
    if ¬ Inside path then
      invalidPath "The path must stay under /workspace."
    else if path = workspace /\ allowRoot = false then
      invalidPath "A file path under /workspace is required."
    else if (components path).any fun part => (maxComponent < utf8Length part) then
      invalidPath "A path component is too long."
    else
      .ok path

end SandboxRunner

/-- `/workspace` or a path below it, of plain components only. -/
def InWorkspace (path : Text) : Prop :=
  ∃ below, path = slash :: joinSlash (Text.ofString "workspace" :: below) /\ ∀ piece ∈ below, PlainPart piece

variable {value path : Text}

theorem absolute_slash (value : Text) : [slash] <+: absolute value := by
  unfold absolute
  split
  · assumption
  · exact ⟨_, rfl⟩

theorem normal_eq (rooted : [slash] <+: path) : oneSlash (normpath path) = slash :: joinSlash (place path) := by
  have plain (piece : Text) (mem : piece ∈ place path) := (place_plain path piece mem).1
  have head := join_head plain
  rw [normpath_rooted rooted]
  unfold oneSlash
  rcases initialSlashes_rooted rooted with one | two
  · rw [one, replicate_one, singleton_append, if_neg]
    rintro ⟨rest, same⟩
    rw [cons_append, cons.injEq] at same
    rw [<- same.2] at head
    exact head rfl
  · rw [two, if_pos ⟨_, rfl⟩]
    change slash :: (slash :: slash :: joinSlash (place path)).dropWhile _ = _
    rw [dropWhile_cons_of_pos (by decide), dropWhile_cons_of_pos (by decide)]
    cases rest : joinSlash (place path) with
    | nil => rfl
    | cons point more =>
      rw [rest] at head
      have other : ¬ (point == slash) := fun same => head (congrArg some (beq_iff_eq.mp same))
      exact congrArg _ (dropWhile_cons_of_neg other)

theorem normal_again (path : Text) :
  oneSlash (normpath (absolute (slash :: joinSlash (place path)))) = slash :: joinSlash (place path) := by
  have own : absolute (slash :: joinSlash (place path)) = slash :: joinSlash (place path) := if_pos ⟨_, rfl⟩
  have rooted : [slash] <+: slash :: joinSlash (place path) := ⟨_, rfl⟩
  rw [own, normal_eq rooted, place_join fun piece mem => (place_plain path piece mem).1]

theorem normal_injective {other : Text} (same : slash :: joinSlash (place path) = slash :: joinSlash (place other)) : place path = place other := by
  rw [<- place_join fun piece mem => (place_plain path piece mem).1, same,
    place_join fun piece mem => (place_plain other piece mem).1]

theorem inside_inWorkspace (inside : Inside (slash :: joinSlash (place path))) : InWorkspace (slash :: joinSlash (place path)) := by
  have plain (piece : Text) (mem : piece ∈ place path) := (place_plain path piece mem).1
  have apart : slash ∉ Text.ofString "workspace" := by decide
  have named : ∃ below, components (slash :: joinSlash (place path)) = [] :: Text.ofString "workspace" :: below := by
    rcases inside with same | ⟨rest, same⟩
    · rw [same]
      exact ⟨[], by decide⟩
    · rw [<- same]
      refine ⟨components rest, ?_⟩
      change components (slash :: (Text.ofString "workspace" ++ slash :: rest)) = _
      rw [components_slash, components_append apart]
  rcases named with ⟨below, named⟩
  have isPlace : place path = Text.ofString "workspace" :: below := by
    rw [<- (cons.inj named).2]
    refine (components_join (fun empty => ?_) fun piece mem => (plain piece mem).2.2.2).symm
    rw [empty] at named
    cases (cons.inj named).2
  refine ⟨below, by rw [isPlace], fun piece mem => plain piece ?_⟩
  rw [isPlace]
  exact .tail _ mem

/-- What neither `/workspace` nor the value holds is not in the normal form. -/
theorem normal_any {holds : CodePoint -> Bool} (free : (workspace ++ [slash]).any holds = false) (none : value.any holds = false) :
  (slash :: joinSlash (place (absolute value))).any holds = false := by
  rw [any_eq_false] at free none ⊢
  have inAbsolute (point : CodePoint) (mem : point ∈ absolute value) : ¬ holds point := by
    unfold absolute at mem
    split at mem
    · exact none point mem
    · rcases mem_append.mp mem with own | below
      · exact free point (mem_append_left _ own)
      · rcases mem_cons.mp below with rfl | own
        · exact free slash (mem_append_right _ mem_cons_self)
        · exact none point own
  have noSlash := free slash (mem_append_right _ mem_cons_self)
  intro point mem
  rcases mem_cons.mp mem with rfl | later
  · exact noSlash
  · rcases mem_join later with rfl | ⟨piece, isPiece, inPiece⟩
    · exact noSlash
    · exact inAbsolute point (mem_of_components (place_plain _ piece isPiece).2 inPiece)

theorem any_strip {holds : CodePoint -> Bool} (none : value.any holds = false) : (strip value).any holds = false := by
  rw [any_eq_false] at none ⊢
  intro point mem
  refine none point ?_
  have inner := mem_reverse.mp ((dropWhile_sublist _).subset (mem_reverse.mp mem))
  exact (dropWhile_sublist _).subset inner

open Tools SandboxRunner

theorem resolvePath_ok (resolved : resolvePath value = .ok path) :
  path = slash :: joinSlash (place (absolute (strip value))) /\ Inside path /\ value.any isControl = false := by
  unfold resolvePath at resolved
  split at resolved
  · cases resolved
  · split at resolved
    · cases resolved
    · split at resolved
      · cases resolved
      · rename_i printable
        dsimp only at resolved
        split at resolved
        · cases resolved
        · rename_i inside
          cases resolved
          exact ⟨normal_eq (absolute_slash _), Decidable.not_not.mp inside, eq_false_iff.mpr printable⟩

theorem cleanPath_ok {allowRoot : Bool} (cleaned : cleanPath value allowRoot = .ok path) :
  path = slash :: joinSlash (place (absolute value)) /\ Inside path /\ value.any isControl = false /\ value.any isSurrogate = false /\
    ¬ (path = workspace /\ allowRoot = false) /\ ¬ ((components path).any fun part => maxComponent < utf8Length part) := by
  unfold cleanPath invalidPath at cleaned
  split at cleaned
  · cases cleaned
  · split at cleaned
    · cases cleaned
    · split at cleaned
      · cases cleaned
      · rename_i printable
        split at cleaned
        · cases cleaned
        · rename_i valid
          dsimp only at cleaned
          split at cleaned
          · cases cleaned
          · rename_i inside
            split at cleaned
            · cases cleaned
            · rename_i allowed
              split at cleaned
              · cases cleaned
              · rename_i short
                cases cleaned
                exact ⟨normal_eq (absolute_slash _), Decidable.not_not.mp inside, eq_false_iff.mpr printable,
                  eq_false_iff.mpr valid, allowed, short⟩

theorem paths_agree : (∀ value path, resolvePath value = .ok path ->
    InWorkspace path /\ (path.length <= Tools.maxPath -> strip path = path -> resolvePath path = .ok path)) /\
  (∀ value path allowRoot, cleanPath value allowRoot = .ok path ->
    InWorkspace path /\ (utf8Length path <= SandboxRunner.maxPath -> cleanPath path allowRoot = .ok path)) /\
  (∀ value other path otherPath, resolvePath value = .ok path -> resolvePath other = .ok otherPath ->
    (path = otherPath ↔ place (absolute (strip value)) = place (absolute (strip other)))) /\
  (∀ value other path otherPath allowRoot otherRoot, cleanPath value allowRoot = .ok path -> cleanPath other otherRoot = .ok otherPath ->
    (path = otherPath ↔ place (absolute value) = place (absolute other))) /\
  ∀ value path allowRoot again, resolvePath value = .ok path -> cleanPath path allowRoot = .ok again -> again = path := by
  refine ⟨fun value path resolved => ?_, fun value path allowRoot cleaned => ?_, fun value other path otherPath resolved otherResolved => ?_,
    fun value other path otherPath allowRoot otherRoot cleaned otherCleaned => ?_, fun value path allowRoot again resolved cleaned => ?_⟩
  · rcases resolvePath_ok resolved with ⟨rfl, inside, printable⟩
    refine ⟨inside_inWorkspace inside, fun short stripped => ?_⟩
    have stays := normal_any (by decide) (any_strip printable)
    unfold resolvePath
    rw [stripped, if_neg (cons_ne_nil _ _), if_neg (Nat.not_lt.mpr short), stays, if_neg Bool.false_ne_true]
    rw [normal_again, if_neg (not_not.mpr inside)]
  · rcases cleanPath_ok cleaned with ⟨rfl, inside, printable, valid, allowed, fits⟩
    refine ⟨inside_inWorkspace inside, fun short => ?_⟩
    have stays := normal_any (by decide) printable
    have staysValid := normal_any (by decide) valid
    unfold cleanPath
    rw [if_neg (cons_ne_nil _ _), if_neg (Nat.not_lt.mpr short), stays, if_neg Bool.false_ne_true, staysValid, if_neg Bool.false_ne_true]
    rw [normal_again, if_neg (not_not.mpr inside), if_neg allowed, if_neg fits]
  · rw [(resolvePath_ok resolved).1, (resolvePath_ok otherResolved).1]
    exact ⟨normal_injective, fun same => by rw [same]⟩
  · rw [(cleanPath_ok cleaned).1, (cleanPath_ok otherCleaned).1]
    exact ⟨normal_injective, fun same => by rw [same]⟩
  · rw [(cleanPath_ok cleaned).1, (resolvePath_ok resolved).1, <- normal_eq (absolute_slash _), normal_again]

/-- A component may end in white space that a second strip removes. -/
theorem resolvePath_again : ¬ ∀ value path, resolvePath value = .ok path -> resolvePath path = .ok path := by
  intro always
  have again := always (Text.ofString "a /.") (Text.ofString "/workspace/a ") (by rfl)
  have stripped : resolvePath (Text.ofString "/workspace/a ") = .ok (Text.ofString "/workspace/a") := by rfl
  exact absurd (Except.ok.inj again) (by decide)

end BananaChat.Agents

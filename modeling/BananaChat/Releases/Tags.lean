import Mathlib.Data.Char
import Mathlib.Data.Prod.Lex
import Mathlib.Data.List.Lex
import BananaChat.Foundation.Descending

namespace BananaChat.Releases

open Foundation

/-!
# Release tags

An update source has tags, each with a name and an object.
-/

abbrev Line := List Char

inductive Object
  | commit (sha : Line)
  | tree (sha : Line)
  | blob (sha : Line)
  | tag (sha : Line) (body : Option Line) (target : Object)
deriving DecidableEq

/-- `git rev-parse FETCH_HEAD^{commit}`; none where it fails. -/
def Object.peel : Object -> Option Line
  | .commit sha => some sha
  | .tree _ | .blob _ => none
  | .tag _ _ target => target.peel

structure Tag where
  name : Line
  object : Object
deriving DecidableEq

/-- `0|[1-9][0-9]{0,8}`, as a number. -/
def number (digits : Line) : Option ℕ :=
  match digits with
  | [] => none
  | first :: rest =>
    if (rest = [] \/ first ≠ '0') /\ digits.length <= 9 /\ digits.all Char.isDigit then
      some (digits.foldl (fun value digit => 10 * value + (digit.toNat - 48)) 0)
    else none

def releaseVersion (name : Line) : Option (ℕ ×ₗ ℕ ×ₗ ℕ) :=
  match name with
  | [] => none
  | first :: rest =>
    if first ≠ 'v' then none
    else
      match (rest.splitOn '.').map number with
      | [some major, some minor, some patch] => some (toLex (major, toLex (minor, patch)))
      | _ => none

def rank (tag : Tag) : (ℕ ×ₗ ℕ ×ₗ ℕ) ×ₗ Line := toLex ((releaseVersion tag.name).getD (toLex (0, toLex (0, 0))), tag.name)

def isRelease (tag : Tag) : Bool := (releaseVersion tag.name).isSome

/-- `release_tags`: the release tags, the highest first. -/
def releaseTags (tags : List Tag) : List Tag := descending rank (tags.filter isRelease)

/-- Where `str.splitlines` ends a line. -/
def lineBreaks : List ℕ := [10, 11, 12, 13, 28, 29, 30, 133, 8232, 8233]

def splitLinesFrom (line : Line) (returned : Bool) : Line -> List Line
  | [] => if line = [] then [] else [line]
  | char :: rest =>
    if char.toNat = 10 /\ returned then splitLinesFrom line false rest
    else if char.toNat ∈ lineBreaks then line :: splitLinesFrom [] ((char.toNat = 13)) rest
    else splitLinesFrom (line ++ [char]) false rest

def splitLines (text : Line) : List Line := splitLinesFrom [] false text

def header : Line -> Line
  | first :: second :: rest => if first.toNat = 10 /\ second.toNat = 10 then [] else first :: header (second :: rest)
  | short => short

def sshSignature : Line := "-----BEGIN SSH SIGNATURE-----".toList

def sshSignedTag (body : Line) : Bool :=
  ((splitLines body).filter ("-----BEGIN ".toList.isPrefixOf ·)).getLast? = some sshSignature

structure Source where
  /-- Whether the file of the allowed signers is private. -/
  private_ : Bool
  /-- Whether `git verify-tag` accepts a tag object, by what it says. -/
  verifies : Line -> Bool
  /-- Whether a commit is an ancestor of another one. -/
  ancestor : Line -> Line -> Bool
  /-- The commits in the local repository before anything is fetched. -/
  cached : Line -> Bool

inductive Verdict
  | verified
  /-- A `RuntimeError`: the tag is skipped. -/
  | refused
  /-- Another error, which ends the update. -/
  | stopped

def maxReleaseCandidates : ℕ := 20

structure Found where
  release : Line
  sha : Line
  skipped : List Line
  fetched : List Tag

namespace Source

variable (source : Source)

def verifyRelease (tag revision : Line) : Object -> Verdict
  | .tag _ body _ =>
    if source.private_ = false then .stopped
    else
      match body with
      | none => .stopped
      | some body =>
        if "tag ".toList ++ tag ∉ splitLines (header body) \/ "object ".toList ++ revision ∉ splitLines (header body) \/
            "type commit".toList ∉ splitLines (header body) then .refused
        else if sshSignedTag body = false then .refused
        else if source.verifies body then .verified
        else .refused
  | _ => if source.private_ = false then .stopped else .refused

/-- The loop of `_verified_release`; none where it raises. -/
def tryReleases (tags : List Tag) (skipped : List Line) (fetched : List Tag) : List Line -> Option Found
  | [] => none
  | release :: rest =>
    -- `git fetch` of a tag that is not there fails.
    match tags.find? (·.name = release) with
    | none => none
    | some tag =>
      match tag.object.peel with
      | none => none
      | some sha =>
        match source.verifyRelease release sha tag.object with
        | .verified => some ⟨release, sha, skipped, fetched ++ [tag]⟩
        | .refused => tryReleases tags (skipped ++ [release]) (fetched ++ [tag]) rest
        | .stopped => none

def verifiedRelease (tags : List Tag) : Option Found :=
  source.tryReleases tags [] [] (((releaseTags tags).map Tag.name).take maxReleaseCandidates)

def knows (fetched : List Tag) (sha : Line) : Bool :=
  source.cached sha || fetched.any (fun tag => tag.object.peel.any fun tip => (tip = sha) || source.ancestor sha tip)

/-- `_ancestor`. -/
def isAncestor (fetched : List Tag) (older newer : Line) : Bool :=
  source.knows fetched older && source.knows fetched newer && source.ancestor older newer

/-- `resolve`, where the source tracks tags: the revision, the release, and whether it is a fast-forward. -/
def resolve (tags : List Tag) (current : Line) : Option (Line × Line × Bool) :=
  match source.verifiedRelease tags with
  | none => none
  | some found =>
    if current ≠ [] /\ found.sha ≠ current /\ source.isAncestor found.fetched found.sha current then
      some (current, found.release, true)
    else some (found.sha, found.release, (found.sha = current) || source.isAncestor found.fetched current found.sha)

end Source

end BananaChat.Releases

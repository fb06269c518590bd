import Mathlib
import BananaChat.Allowances.AmountText
import BananaChat.Foundation.Dictionary

namespace BananaChat.Agents.GitFetch

open Foundation Dictionary

/-!
# Addresses of Git repositories

`gitfetch` takes an address apart, checks its parts, and puts the address of a source archive
together from them.
-/

/-- `str.lower`, of which only its work on ASCII counts. -/
structure Casing where
  lower : List Char -> List Char
  ascii : ∀ text, (∀ char ∈ text, char.toNat < 128) -> lower text = text.map Char.toLower

inductive Given
  | nothing
  | text (value : List Char)
  | other

/-- `PROVIDERS`. -/
inductive Provider
  | github
  | gitlab
  | gitea
deriving DecidableEq

def Provider.name : Provider -> List Char
  | .github => "github".toList
  | .gitlab => "gitlab".toList
  | .gitea => "gitea".toList

/-- `SourceError`, by its key, with its values. -/
inductive SourceError
  | badUrl
  | badRef
  | httpsOnly
  | hostNotAllowed (host hosts : List Char)

def SourceError.key : SourceError -> String
  | .badUrl => "agents.import_bad_url"
  | .badRef => "agents.import_bad_ref"
  | .httpsOnly => "agents.import_https_only"
  | .hostNotAllowed _ _ => "agents.import_host_not_allowed"

def knownHosts : List (List Char × Provider) :=
  [("github.com".toList, .github), ("gitlab.com".toList, .gitlab), ("codeberg.org".toList, .gitea)]

/-- `ARCHIVE_HOSTS.get(host, (host,))`. -/
def archiveHosts (host : List Char) : List (List Char) :=
  if host = "github.com".toList then ["github.com".toList, "codeload.github.com".toList] else [host]

def maxUrl : ℕ := 300

def isLowerAlnum (char : Char) : Bool := char.isLower || char.isDigit

def isWord (char : Char) : Bool := char.isAlphanum || char = '_'

/-- One character of `edge`, or two around `most` of `inner` at most: `E(?:I{0,most}E)?`. -/
def isEdged (edge inner : Char -> Bool) (most : ℕ) : List Char -> Bool
  | [] => false
  | first :: rest =>
    edge first && match rest.getLast? with
      | none => true
      | some last => rest.dropLast.all inner && edge last && (rest.length <= most + 1)

def isLabel (label : List Char) : Bool := isEdged isLowerAlnum (fun char => isLowerAlnum char || char = '-') 61 label

/-- `_HOSTNAME_RE`: labels between dots, of which the last one starts with a letter. -/
def isHostname (host : List Char) : Bool :=
  let labels := host.splitOn '.'
  (1 <= host.length /\ host.length <= 253 /\ 2 <= labels.length) && labels.all isLabel &&
    ((labels.getLast?.getD []).head?.any Char.isLower)

/-- `_OWNER_RE`. -/
def isOwner : Provider -> List Char -> Bool
  | .github => isEdged Char.isAlphanum (fun char => char.isAlphanum || char = '-') 37
  | .gitlab => isEdged isWord (fun char => isWord char || char = '.' || char = '-') 98
  | .gitea => isEdged isWord (fun char => isWord char || char = '.' || char = '-') 38

/-- `_REPO_RE`. -/
def isRepo (repo : List Char) : Bool :=
  (1 <= repo.length /\ repo.length <= 100) && repo.all (fun char => isWord char || char = '.' || char = '-')

/-- `_REF_RE`. -/
def isRef : List Char -> Bool
  | [] => false
  | first :: rest =>
    isWord first && (rest.length <= 199) &&
      rest.all (fun char => isWord char || char = '.' || char = '/' || char = '-')

def selfHosted (name : List Char) : Option Provider :=
  if name = Provider.gitlab.name then some .gitlab else if name = Provider.gitea.name then some .gitea else none

def prefixOf (text : List Char) : Except String (Option Provider × List Char) :=
  if ':' ∈ text then
    match selfHosted (text.takeWhile (· ≠ ':')) with
    | some provider => .ok (some provider, (text.dropWhile (· ≠ ':')).drop 1)
    | none => .error "unknown provider"
  else .ok (none, text)

def parseHostEntry (casing : Casing) : Given -> Except String (List Char × Provider)
  | .text entry => do
      let (provider, host) <- prefixOf (casing.lower (Allowances.strip entry))
      if isHostname host then
        match provider, get? host knownHosts with
        | none, none => .error "a self-hosted server needs a provider prefix (gitlab: or gitea:)"
        | none, some known => .ok (host, known)
        | some provider, none => .ok (host, provider)
        | some provider, some known =>
          if known = provider then .ok (host, provider) else .error "wrong provider for a known host"
      else .error "invalid host name"
  | _ => .error "not a string"

def canonicalEntry (host : List Char) (provider : Provider) : List Char :=
  if get? host knownHosts = some provider then host else provider.name ++ ':' :: host

section

variable (casing : Casing) (entries : List Given)

def hostProviders : List (List Char × Provider) :=
  ofEntries (entries.filterMap fun entry => (parseHostEntry casing entry).toOption)

def downloadHosts : List (List Char) := (hostProviders casing entries).flatMap (archiveHosts ·.1)

def hostNames : List Char :=
  let names := List.intercalate ", ".toList ((hostProviders casing entries).map Prod.fst)
  if names = [] then "-".toList else names

end

structure Source where
  host : List Char
  provider : Provider
  /-- GitLab: the namespace, which may contain a slash. -/
  owner : List Char
  repo : List Char
  ref : List Char

def tarGz : List Char := ['t', 'a', 'r', '.', 'g', 'z']

def archiveFolder : List Char := ['a', 'r', 'c', 'h', 'i', 'v', 'e']

/-- `archive`: the host and the path. -/
def Source.archive (source : Source) : List Char × List Char :=
  match source.provider with
  | .github =>
    ("codeload.github.com".toList, '/' :: source.owner ++ '/' :: source.repo ++ '/' :: tarGz ++ '/' :: source.ref)
  | .gitlab =>
    let name := source.repo ++ '-' :: source.ref.map (fun char => if char = '/' then '-' else char)
    (source.host, '/' :: source.owner ++ '/' :: source.repo ++ '/' :: '-' :: '/' :: archiveFolder ++
      '/' :: source.ref ++ '/' :: name ++ '.' :: tarGz)
  | .gitea =>
    (source.host, '/' :: source.owner ++ '/' :: source.repo ++ '/' :: archiveFolder ++ '/' :: source.ref ++
      '.' :: tarGz)

def Source.toDict (source : Source) : List (String × Given) :=
  [("host", .text source.host), ("provider", .text source.provider.name), ("owner", .text source.owner),
    ("repo", .text source.repo), ("ref", .text source.ref)]

def checkSegment (pattern : List Char -> Bool) (value : List Char) : Bool := pattern value && !(['.', '.'] <:+: value)

section

variable (casing : Casing)

/-- What `_check_path` asks of a repository. -/
def repoAllowed (repo : List Char) : Bool :=
  checkSegment isRepo repo && !(repo.head? = some '-' \/ repo.head? = some '.') &&
    !(".git".toList <:+ casing.lower repo) && !(".bananachat".toList <+: casing.lower repo)

def checkPath (provider : Provider) (segments : List (List Char)) : Except SourceError Unit :=
  let owners := segments.dropLast
  let repo := segments.getLast?.getD []
  if owners.length < 1 \/ (provider ≠ .gitlab /\ owners.length ≠ 1) \/ 4 < owners.length then .error .badUrl
  else if owners.all (checkSegment (isOwner provider)) = false then .error .badUrl
  else if repoAllowed casing repo = false then .error .badUrl
  else .ok ()

/-- What `check_ref` asks of a branch, tag or commit. -/
def refAllowed (ref : List Char) : Bool :=
  isRef ref && !(['.', '.'] <:+: ref) && !(['/', '/'] <:+: ref) && !(['/', '.'] <:+: ref) &&
    !(ref.getLast? = some '/' \/ ref.getLast? = some '.') && !(".lock".toList <:+ ref) &&
    !(".lock/".toList <:+: ref)

def headRef : List Char := "HEAD".toList

def checkRef : Given -> Except SourceError (List Char)
  | .nothing => .ok headRef
  | .other => .error .badRef
  | .text ref =>
    let ref := Allowances.strip ref
    if ref = [] then .ok headRef else if refAllowed ref then .ok ref else .error .badRef

def Provider.ofName (name : List Char) : Option Provider :=
  if name = Provider.github.name then some .github else selfHosted name

/-- `data.get(name)`. -/
def field (data : List (String × Given)) (name : String) : Given := (get? name data).getD .nothing

/-- `from_dict`, of a dictionary or something else. -/
def fromDict : Option (List (String × Given)) -> Except SourceError Source
  | none => .error .badUrl
  | some data =>
    match field data "host", field data "provider", field data "owner", field data "repo", field data "ref" with
    | .text host, .text name, .text owner, .text repo, .text ref =>
      match Provider.ofName name, isHostname host with
      | some provider, true => do
          checkPath casing provider (owner.splitOn '/' ++ [repo])
          let ref <- checkRef (.text ref)
          return ⟨host, provider, owner, repo, ref⟩
      | _, _ => .error .badUrl
    | _, _, _, _, _ => .error .badUrl

def partitionAt (separator : List Char) : List Char -> Option (List Char × List Char)
  | [] => none
  | char :: rest =>
    if separator.isPrefixOf (char :: rest) then some ([], (char :: rest).drop separator.length)
    else (partitionAt separator rest).map (fun parts => (char :: parts.1, parts.2))

/-- `^[A-Za-z][A-Za-z0-9+.-]*:(?!\d)`. -/
def hasScheme : List Char -> Bool
  | [] => false
  | first :: rest =>
    first.isAlpha && match rest.dropWhile (fun char => char.isAlphanum || char = '+' || char = '.' || char = '-') with
      | ':' :: after => !(after.head?.any Char.isDigit)
      | _ => false

def withoutScheme (text : List Char) : Except SourceError (List Char) :=
  match partitionAt "://".toList text with
  | some (scheme, rest) => if casing.lower scheme = "https".toList then .ok rest else .error .httpsOnly
  | none =>
    if hasScheme text || ('@' ∈ text.takeWhile (· ≠ '/')) then .error .httpsOnly else .ok text

def refused : List Char := "?#%@\\;,\"'<>`\x7b\x7d|^[]".toList

def hostOf (authority : List Char) : List Char :=
  let host := casing.lower authority
  if ":443".toList <:+ host then host.take (host.length - 4) else host

/-- The parts of a path, without `.git` behind the last one. -/
def segmentsOf (path : List Char) : Except SourceError (List (List Char)) :=
  let path := if path.getLast? = some '/' then path.dropLast else path
  let segments := if path = [] then [] else path.splitOn '/'
  if segments = [] \/ segments.any List.isEmpty then .error .badUrl
  else
    let repo := segments.getLast?.getD []
    if ".git".toList <:+ casing.lower repo then .ok (segments.dropLast ++ [repo.take (repo.length - 4)]) else .ok segments

def parse (url ref : Given) (hosts : List Given) : Except SourceError Source :=
  match url with
  | .text url => do
      let text := Allowances.strip url
      if text = [] \/ maxUrl < text.length \/ (text.any fun char => char.toNat < 33 \/ 126 < char.toNat) then
        .error .badUrl
      else do
        let rest <- withoutScheme casing text
        if rest.any (· ∈ refused) then .error .badUrl
        else
          let host := hostOf casing (rest.takeWhile (· ≠ '/'))
          if isHostname host then
            match get? host (hostProviders casing hosts) with
            | none => .error (.hostNotAllowed host (hostNames casing hosts))
            | some provider => do
                let segments <- segmentsOf casing ((rest.dropWhile (· ≠ '/')).drop 1)
                checkPath casing provider segments
                let ref <- checkRef ref
                return ⟨host, provider, List.intercalate ['/'] segments.dropLast, segments.getLast?.getD [], ref⟩
          else .error .badUrl
  | _ => .error .badUrl

end

end BananaChat.Agents.GitFetch

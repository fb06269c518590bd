import BananaChat.Foundation.Machine
import BananaChat.SignIn.Totp

namespace BananaChat.SignIn

open Foundation

/-!
# Two-step verification of one account

Attempts of any number of sign-ins run side by side.
-/

/-- The text of `recovery_hashes`, as `json.loads` reads it; a value that is no text is none. -/
inductive Stored
  | texts (list : List (Option Text))
  | other
  | damaged
deriving DecidableEq

def Stored.hashes : Stored -> List Text
  | .texts list => list.filterMap id
  | .other => []
  | .damaged => []

/-- `json.dumps` of the digests. -/
def dumps (hashes : List Text) : Stored := .texts (hashes.map some)

@[simp] theorem hashes_dumps (hashes : List Text) : (dumps hashes).hashes = hashes := by
  change (hashes.map some).filterMap id = hashes
  rw [List.filterMap_map]
  exact List.filterMap_some

/-- A row of `user_two_step`. -/
structure TwoStepRow where
  secretEncrypted : Text
  recoveryHashes : Stored
  lastCounter : ℤ
  enabledAt : Text
deriving DecidableEq

/-- The digests of an account; `[]` without a row. -/
def hashesOf : Option TwoStepRow -> List Text
  | none => []
  | some row => row.recoveryHashes.hashes

inductive Used
  | app (secret code : Text) (counter : ℤ) (now : ℚ)
  | recovery (code digest : Text)
deriving DecidableEq

inductive Method
  | totp
  | recoveryCode
deriving DecidableEq

def Used.method : Used -> Method
  | .app _ _ _ _ => .totp
  | .recovery _ _ => .recoveryCode

inductive Change
  | used (attempt setUp : ℕ) (used : Used)
  | enabled (setUp : ℕ) (row : TwoStepRow)
  | renewed (hashes : List Text)
  | disabled

def Change.redo (row : Option TwoStepRow) : Change -> Option TwoStepRow
  | .used _ _ (.app _ _ counter _) => row.map (fun row => { row with lastCounter := counter })
  | .used _ _ (.recovery _ digest) => row.map (fun row => { row with recoveryHashes := dumps (row.recoveryHashes.hashes.erase digest) })
  | .enabled _ new => some new
  | .renewed hashes => row.map (fun row => { row with recoveryHashes := dumps hashes })
  | .disabled => none

structure Server where
  crypto : Crypto
  /-- `decrypt_secret`; empty when the token does not decrypt. -/
  decrypt : Text -> Text
  account : Text

variable (server : Server)

/-- `verify_app_code` inside its transaction: the row it writes, or none when the code is refused. -/
def verifyAppCode (code : Text) (now : ℚ) : Option TwoStepRow -> Except CodeError (Option (TwoStepRow × Used))
  | none => .ok none
  | some row =>
    let secret := server.decrypt row.secretEncrypted
    match matchingCounter server.crypto secret (some code) now with
    | .error error => .error error
    | .ok none => .ok none
    | .ok (some counter) =>
      if counter <= row.lastCounter then .ok none
      else .ok (some ({ row with lastCounter := counter }, .app secret code counter now))

def firstMatch (candidate : Text) : List Text -> Except CodeError (Option Text)
  | [] => .ok none
  | value :: rest =>
    match compareDigest value candidate with
    | .error error => .error error
    | .ok true => .ok (some value)
    | .ok false => firstMatch candidate rest

/-- `_use_recovery_code` inside its transaction. -/
def useRecoveryCode (code candidate : Text) (row : Option TwoStepRow) : Except CodeError (Option (TwoStepRow × Used)) :=
  match firstMatch candidate (hashesOf row) with
  | .error error => .error error
  | .ok none => .ok none
  | .ok (some digest) =>
    .ok (row.map (fun row =>
      ({ row with recoveryHashes := dumps (row.recoveryHashes.hashes.erase digest) }, .recovery code candidate)))

inductive Check
  | app (code : Text)
  | recovery (code candidate : Text)
deriving DecidableEq

def Check.run (now : ℚ) (row : Option TwoStepRow) : Check -> Except CodeError (Option (TwoStepRow × Used))
  | .app code => verifyAppCode server code now row
  | .recovery code candidate => useRecoveryCode code candidate row

/-- Where a code comes from: `check_code`, or the confirmation of an administrator's action. -/
inductive Entry
  | checkCode
  | confirmation
deriving DecidableEq

structure Request where
  entry : Entry
  code : Option Text
deriving DecidableEq

/-- `verify` up to its transaction: none when the code is refused without one. -/
def verify (code : Option Text) : Except CodeError (Option Check) :=
  let code := (strip (code.getD [])).take 128
  if code = [] then .ok none
  else if looksLikeCode (some code) then .ok (some (.app code))
  else if (normalizeRecoveryCode server.crypto code).length = 16 then
    match recoveryHash server.crypto server.account code with
    | none => .error .value
    | some candidate => .ok (some (.recovery code candidate))
  else .ok none

def Request.check (request : Request) : Except CodeError (Option Check) :=
  match request.entry with
  | .checkCode => verify server request.code
  | .confirmation =>
    if looksLikeCode request.code then .ok (some (.app (request.code.getD []))) else .ok none

/-- `Refused`. -/
inductive Refusal
  | tooMany
  | invalidCode
deriving DecidableEq

def Refusal.status : Refusal -> ℕ
  | .tooMany => 429
  | .invalidCode => 401

inductive Phase
  | absent
  | arrived (request : Request)
  /-- `reserve_code_attempt` counted it. -/
  | counted (request : Request)
  /-- At `BEGIN IMMEDIATE`. -/
  | waiting (check : Check)
  /-- It holds the lock. -/
  | inside (check : Check)
  | seen (check : Check) (row : Option TwoStepRow)
  /-- The row is written, not committed. -/
  | wrote (row : TwoStepRow) (used : Used)
  /-- Committed; the counted attempt is not released yet. -/
  | committed (method : Method)
  | accepted (method : Method)
  | refused (refusal : Refusal)
  /-- An exception, or the process was killed. -/
  | failed
deriving DecidableEq

structure TwoStepState where
  row : Option TwoStepRow
  /-- Who holds the write lock. -/
  lock : Option ℕ
  phases : ℕ -> Phase
  /-- How often it was turned on. -/
  setUps : ℕ

namespace TwoStepState

variable (state : TwoStepState)

def start (stored : Option TwoStepRow) : TwoStepState := ⟨stored, none, fun _ => .absent, 0⟩

def move (attempt : ℕ) (phase : Phase) : TwoStepState := { state with phases := Function.update state.phases attempt phase }

def leave (attempt : ℕ) (phase : Phase) : TwoStepState := { state.move attempt phase with lock := none }

def kill (attempt : ℕ) : TwoStepState := if state.lock = some attempt then state.leave attempt .failed else state.move attempt .failed

end TwoStepState

inductive TwoStepAction
  | arrive (attempt : ℕ) (request : Request)
  /-- The answer of `reserve_code_attempt`. -/
  | reserve (attempt : ℕ) (granted : Bool)
  /-- `verify` up to its transaction. -/
  | look (attempt : ℕ)
  | begin (attempt : ℕ)
  | select (attempt : ℕ)
  /-- The clock is read, and the row written or not. -/
  | decide (attempt : ℕ) (now : ℚ)
  | commit (attempt : ℕ)
  | release (attempt : ℕ)
  | kill (attempt : ℕ)
  | enable (secretEncrypted : Text) (draws : Draws) (counter : ℤ) (enabledAt : Text)
  | renew (draws : Draws)
  | disable

/-- The digests of new codes (`_new_codes`). -/
def newHashes (draws : Draws) : Option (List Text) :=
  (generateRecoveryCodes draws).mapM (recoveryHash server.crypto server.account)

namespace TwoStepState

variable (state : TwoStepState)

/-- `enable`; an account that has it on keeps its row. -/
def enable (secretEncrypted : Text) (hashes : List Text) (counter : ℤ) (enabledAt : Text) : TwoStepState × List Change :=
  match state.row with
  | some _ => (state, [])
  | none =>
    let row : TwoStepRow := ⟨secretEncrypted, dumps hashes, counter, enabledAt⟩
    ({ state with row := some row, setUps := state.setUps + 1 }, [.enabled (state.setUps + 1) row])

/-- `renew_codes`. -/
def renew (hashes : List Text) : TwoStepState × List Change :=
  match state.row with
  | none => (state, [])
  | some row => ({ state with row := some { row with recoveryHashes := dumps hashes } }, [.renewed hashes])

def disable : TwoStepState × List Change :=
  match state.row with
  | none => (state, [])
  | some _ => ({ state with row := none }, [.disabled])

def step : TwoStepAction -> Option (TwoStepState × List Change)
  | .arrive attempt request => if state.phases attempt = .absent then some (state.move attempt (.arrived request), []) else none
  | .reserve attempt granted =>
    match state.phases attempt with
    | .arrived request => some (state.move attempt (if granted then .counted request else .refused .tooMany), [])
    | _ => none
  | .look attempt =>
    match state.phases attempt with
    | .counted request =>
      some (state.move attempt (match request.check server with
        | .error _ => .failed
        | .ok none => .refused .invalidCode
        | .ok (some check) => .waiting check), [])
    | _ => none
  | .begin attempt =>
    match state.phases attempt with
    | .waiting check =>
      if state.lock = none then some ({ state.move attempt (.inside check) with lock := some attempt }, []) else none
    | _ => none
  | .select attempt =>
    match state.phases attempt with
    | .inside check => some (state.move attempt (.seen check state.row), [])
    | _ => none
  | .decide attempt now =>
    match state.phases attempt with
    | .seen check row =>
      some (match check.run server now row with
        | .error _ => (state.leave attempt .failed, [])
        | .ok none => (state.leave attempt (.refused .invalidCode), [])
        | .ok (some (row, used)) => (state.move attempt (.wrote row used), []))
    | _ => none
  | .commit attempt =>
    match state.phases attempt with
    | .wrote row used =>
      some ({ state.leave attempt (.committed used.method) with row := some row }, [.used attempt state.setUps used])
    | _ => none
  | .release attempt =>
    match state.phases attempt with
    | .committed method => some (state.move attempt (.accepted method), [])
    | _ => none
  | .kill attempt =>
    match state.phases attempt with
    | .accepted _ => none
    | .refused _ => none
    | _ => some (state.kill attempt, [])
  | .enable secretEncrypted draws counter enabledAt =>
    if state.lock = none then (newHashes server draws).map (state.enable secretEncrypted · counter enabledAt) else none
  | .renew draws => if state.lock = none then (newHashes server draws).map state.renew else none
  | .disable => if state.lock = none then some state.disable else none

end TwoStepState

def twoStepMachine (stored : Option TwoStepRow) : Machine TwoStepState TwoStepAction where
  initial := fun state => state = .start stored
  enabled := fun state action => (state.step server action).isSome
  next := fun state action => ((state.step server action).map Prod.fst).getD state

def twoStepReport (state : TwoStepState) (action : TwoStepAction) : List Change :=
  ((state.step server action).map Prod.snd).getD []

def countersOf (setUp : ℕ) (past : List Change) : List ℤ :=
  past.filterMap (fun change =>
    match change with
    | .used _ number (.app _ _ counter _) => if number = setUp then some counter else none
    | .enabled number row => if number = setUp then some row.lastCounter else none
    | _ => none)

def spentOf (past : List Change) : List Text :=
  past.filterMap (fun change =>
    match change with
    | .used _ _ (.recovery _ digest) => some digest
    | _ => none)

def issuedOf (past : List Change) : List Text :=
  past.flatMap (fun change =>
    match change with
    | .enabled _ row => row.recoveryHashes.hashes
    | .renewed hashes => hashes
    | _ => [])

def usedBy (attempt : ℕ) (past : List Change) : List Used :=
  past.filterMap (fun change =>
    match change with
    | .used number _ used => if number = attempt then some used else none
    | _ => none)

end BananaChat.SignIn

import BananaChat.Foundation.Streams
import BananaChat.Foundation.Text

namespace BananaChat.SignIn

open Foundation List

/-!
# Authenticator codes and recovery codes

An authenticator code is six digits of an HMAC of the 30-second step. It is looked for one step
either side of the clock.
-/

structure Crypto where
  hmacSha1 : List UInt8 -> List UInt8 -> Fin 20 -> UInt8
  /-- The hexadecimal digits of a SHA-256 digest. -/
  sha256 : List UInt8 -> Text
  /-- `base64.b32decode`, which folds case; none where it raises. -/
  b32decode : Text -> Option (List UInt8)
  upper : Text -> Text

inductive CodeError
  | value
  | type
  /-- `struct.error`: the step does not fit eight bytes. -/
  | pack

def stepSeconds : ℕ := 30

def recoveryCodes : ℕ := 10

/-- A character of the language's `str`. -/
def symbol (char : Char) : CodePoint := .scalar char

/-- `str.replace` of one character by nothing. -/
def without (removed : Char) (text : Text) : Text := text.filter (· ≠ symbol removed)

/-- `str.isspace` of one character. -/
def isSpace : CodePoint -> Bool
  | .surrogate _ => false
  | .scalar char =>
    let code := char.toNat
    decide (9 <= code /\ code <= 13 \/ 28 <= code /\ code <= 32 \/ code = 0x85 \/ code = 0xA0 \/ code = 0x1680 \/
      0x2000 <= code /\ code <= 0x200A \/ code = 0x2028 \/ code = 0x2029 \/ code = 0x202F \/ code = 0x205F \/ code = 0x3000)

def strip (text : Text) : Text := ((text.dropWhile isSpace).reverse.dropWhile isSpace).reverse

/-- `str.isascii` of one character. -/
def isAscii : CodePoint -> Bool
  | .surrogate _ => false
  | .scalar char => char.toNat < 128

/-- `hmac.compare_digest` of two texts. -/
def compareDigest (first second : Text) : Except CodeError Bool :=
  if first.all isAscii /\ second.all isAscii then .ok ((first = second)) else .error .type

/-- `str.isascii` and `str.isdigit` of one character. -/
def isDigit : CodePoint -> Bool
  | .surrogate _ => false
  | .scalar char => '0' <= char /\ char <= '9'

def looksLikeCode (code : Option Text) : Bool :=
  let code := without ' ' (code.getD [])
  (code.length = 6) && code.all isDigit

def sixDigits (value : ℕ) : Text :=
  [value / 100000, value / 10000, value / 1000, value / 100, value / 10, value].map
    (fun digit => symbol (Nat.digitChar (digit % 10)))

def counterAt (moment : ℚ) : ℤ := ⌊moment / (stepSeconds : ℚ)⌋

theorem counterAt_add (now : ℚ) (offset : ℤ) : counterAt (now + offset * (stepSeconds : ℚ)) = counterAt now + offset := by
  unfold counterAt
  have nonzero : (stepSeconds : ℚ) ≠ 0 := by
    unfold stepSeconds
    norm_num
  rw [add_div, mul_div_assoc, div_self nonzero, mul_one, Int.floor_add_intCast]

section

variable (crypto : Crypto) (secret : Text)

def padded : Text := crypto.upper secret ++ replicate ((8 - secret.length % 8) % 8) (symbol '=')

def truncated (digest : Fin 20 -> UInt8) : ℕ :=
  let offset := (digest 19).toNat % 16
  have low : offset < 16 := Nat.mod_lt _ (by decide)
  ofBigEndian [digest ⟨offset, by omega⟩, digest ⟨offset + 1, by omega⟩, digest ⟨offset + 2, by omega⟩,
    digest ⟨offset + 3, by omega⟩] % 2 ^ 31

def codeOfStep (counter : ℤ) : Except CodeError Text :=
  match crypto.b32decode (padded crypto secret) with
  | none => .error .value
  | some key =>
    if 0 <= counter /\ counter < 2 ^ 64 then
      .ok (sixDigits (truncated (crypto.hmacSha1 key (bigEndian 8 counter.toNat)) % 1000000))
    else .error .pack

def totpCode (moment : ℚ) : Except CodeError Text := codeOfStep crypto secret (counterAt moment)

end

/-- The loop of `matching_counter` over its offsets. -/
def matchingAmong (crypto : Crypto) (secret code : Text) (now : ℚ) : List ℤ -> Except CodeError (Option ℤ)
  | [] => .ok none
  | offset :: rest =>
    let moment := now + offset * (stepSeconds : ℚ)
    if 0 <= moment then
      match totpCode crypto secret moment with
      | .error error => .error error
      | .ok expected =>
        match compareDigest expected code with
        | .error error => .error error
        | .ok true => .ok (some (counterAt moment))
        | .ok false => matchingAmong crypto secret code now rest
    else matchingAmong crypto secret code now rest

/-- `matching_counter`, with a window of one step. -/
def matchingCounter (crypto : Crypto) (secret : Text) (code : Option Text) (now : ℚ) : Except CodeError (Option ℤ) :=
  if secret = [] \/ looksLikeCode code = false then .ok none
  else
    match matchingAmong crypto secret (without ' ' (code.getD [])) now [-1, 0, 1] with
    | .error .value => .ok none
    | .error .type => .ok none
    | other => other

/-- `code` is the code of the step `counter`, which is at most one step from `now`. -/
def IsCodeOf (crypto : Crypto) (secret code : Text) (now : ℚ) (counter : ℤ) : Prop :=
  codeOfStep crypto secret counter = .ok (without ' ' code) /\ counterAt now - 1 <= counter /\ counter <= counterAt now + 1

theorem compareDigest_eq_true {first second : Text} (same : compareDigest first second = .ok true) : first = second := by
  unfold compareDigest at same
  by_cases ascii : first.all isAscii /\ second.all isAscii
  · rw [if_pos ascii] at same
    exact of_decide_eq_true (Except.ok.inj same)
  · rw [if_neg ascii] at same
    cases same

variable {crypto : Crypto} {secret code : Text} {now : ℚ} {counter : ℤ}

theorem matchingAmong_some {offsets : List ℤ}
  (found : matchingAmong crypto secret code now offsets = .ok (some counter)) :
  codeOfStep crypto secret counter = .ok code /\ ∃ offset ∈ offsets, counter = counterAt now + offset := by
  induction offsets with
  | nil => cases found
  | cons offset rest ih =>
    have later (foundLater : matchingAmong crypto secret code now rest = .ok (some counter)) :
        codeOfStep crypto secret counter = .ok code /\ ∃ other ∈ offset :: rest, counter = counterAt now + other := by
      rcases ih foundLater with ⟨isCode, other, mem, near⟩
      exact ⟨isCode, other, mem_cons_of_mem _ mem, near⟩
    unfold matchingAmong at found
    by_cases past : 0 <= now + offset * (stepSeconds : ℚ)
    · rw [if_pos past] at found
      cases expected : totpCode crypto secret (now + offset * (stepSeconds : ℚ)) with
      | error error =>
        rw [expected] at found
        cases found
      | ok text =>
        rw [expected] at found
        dsimp only at found
        cases compared : compareDigest text code with
        | error error =>
          rw [compared] at found
          cases found
        | ok same =>
          rw [compared] at found
          cases same with
          | false => exact later found
          | true =>
            have isCounter := Option.some.inj (Except.ok.inj found)
            unfold totpCode at expected
            rw [isCounter, compareDigest_eq_true compared] at expected
            exact ⟨expected, offset, mem_cons_self, isCounter.symm.trans (counterAt_add now offset)⟩
    · rw [if_neg past] at found
      exact later found

theorem matchingCounter_some
  (found : matchingCounter crypto secret (some code) now = .ok (some counter)) : IsCodeOf crypto secret code now counter := by
  unfold matchingCounter at found
  by_cases refused : secret = [] \/ looksLikeCode (some code) = false
  · rw [if_pos refused] at found
    cases found
  · rw [if_neg refused] at found
    cases among : matchingAmong crypto secret (without ' ' code) now [-1, 0, 1] with
    | error error =>
      rw [Option.getD_some, among] at found
      cases error <;> cases found
    | ok result =>
      rw [Option.getD_some, among] at found
      rw [Except.ok.inj found] at among
      rcases matchingAmong_some among with ⟨isCode, _, mem, _⟩
      rw [mem_cons, mem_cons, mem_singleton] at mem
      refine ⟨isCode, ?_, ?_⟩ <;> omega

def crockford : List Char :=
  ['0', '1', '2', '3', '4', '5', '6', '7', '8', '9', 'A', 'B', 'C', 'D', 'E', 'F', 'G', 'H', 'J', 'K', 'M', 'N', 'P', 'Q', 'R',
    'S', 'T', 'V', 'W', 'X', 'Y', 'Z']

/-- `_CROCKFORD_ALIASES`. -/
def translated (point : CodePoint) : CodePoint :=
  if point = symbol 'O' then symbol '0' else if point = symbol 'I' \/ point = symbol 'L' then symbol '1' else point

def normalizeRecoveryCode (crypto : Crypto) (code : Text) : Text :=
  ((crypto.upper (without ' ' (without '-' code))).take 64).map translated

def recoveryPrefix : Text := Text.ofString "bananachat-recovery-v1\x00"

/-- `recovery_hash`; none where the message has no UTF-8 form. -/
def recoveryHash (crypto : Crypto) (account code : Text) : Option Text :=
  (Text.encode (recoveryPrefix ++ account ++ symbol '\x00' :: normalizeRecoveryCode crypto code)).map crypto.sha256

/-- The choices of `generate_recovery_codes`, 16 symbols for each code. -/
abbrev Draws := Fin recoveryCodes -> Fin 16 -> Fin crockford.length

def shown (draw : Fin 16 -> Fin crockford.length) : Text :=
  (finRange 16).flatMap (fun place =>
    let drawn := symbol (crockford.get (draw place))
    if place.val % 4 = 0 /\ place.val ≠ 0 then [symbol '-', drawn] else [drawn])

def generateRecoveryCodes (draws : Draws) : List Text := ofFn (fun code => shown (draws code))

end BananaChat.SignIn

import Mathlib.Data.List.Basic

namespace BananaChat.Foundation

open List Option

/-!
# Texts of a language whose strings may hold lone surrogates

A text is a list of code points. Its bytes are the UTF-8 form that the standard library gives
each character; a lone surrogate has none.
-/

inductive CodePoint
  | scalar (char : Char)
  | surrogate (value : Fin 2048)
deriving DecidableEq

abbrev Text := List CodePoint

namespace Text

def ofString (text : String) : Text := text.toList.map CodePoint.scalar

def encode : Text -> Option (List UInt8)
  | [] => some []
  | .scalar char :: rest => (encode rest).map (String.utf8EncodeChar char ++ ·)
  | .surrogate _ :: _ => none

theorem encode_append {first second : Text} {firstCoded secondCoded : List UInt8} (firstEncoded : first.encode = some firstCoded)
  (secondEncoded : second.encode = some secondCoded) : encode (first ++ second) = some (firstCoded ++ secondCoded) := by
  induction first generalizing firstCoded with
  | nil =>
    cases firstEncoded
    exact secondEncoded
  | cons point rest ih =>
    cases point with
    | surrogate value => cases firstEncoded
    | scalar char =>
      rcases map_eq_some_iff.mp firstEncoded with ⟨_, laterEncoded, joined⟩
      rw [cons_append]
      unfold encode
      rw [ih laterEncoded, map_some, <- joined, append_assoc]

def decodeFrom : ℕ -> List UInt8 -> Text
  | 0, _ => []
  | _ + 1, [] => []
  | fuel + 1, byte :: rest =>
    match (byte :: rest).toByteArray.utf8DecodeChar? 0 with
    | some char => .scalar char :: decodeFrom fuel ((byte :: rest).drop char.utf8Size)
    | none => decodeFrom fuel rest

def decodeIgnore (bytes : List UInt8) : Text := decodeFrom bytes.length bytes

variable {coded : List UInt8} {text : Text}

theorem encode_isValidUTF8 (encoded : text.encode = some coded) : ByteArray.IsValidUTF8 coded.toByteArray := by
  induction text generalizing coded with
  | nil =>
    cases encoded
    exact ⟨[], rfl⟩
  | cons point rest ih =>
    cases point with
    | surrogate value => cases encoded
    | scalar char =>
      rcases map_eq_some_iff.mp encoded with ⟨_, laterEncoded, joined⟩
      rw [<- joined, toByteArray_append]
      exact ByteArray.IsValidUTF8.append Char.isValidUTF8_toByteArray_utf8EncodeChar (ih laterEncoded)

theorem encode_eq_nil_iff (encoded : text.encode = some coded) : coded = [] ↔ text = [] := by
  cases text with
  | nil =>
    cases encoded
    exact ⟨fun _ => rfl, fun _ => rfl⟩
  | cons point rest =>
    cases point with
    | surrogate value => cases encoded
    | scalar char =>
      rcases map_eq_some_iff.mp encoded with ⟨_, _, joined⟩
      constructor
      · intro empty
        rw [empty, append_eq_nil_iff] at joined
        exact absurd joined.1 String.utf8EncodeChar_ne_nil
      · intro clash
        cases clash

theorem encode_decodeFrom (fuel : ℕ) (bytes : List UInt8) :
  ∃ coded, (decodeFrom fuel bytes).encode = some coded /\ coded.length <= bytes.length := by
  induction fuel generalizing bytes with
  | zero => exact ⟨[], rfl, Nat.zero_le _⟩
  | succ fuel ih =>
    cases bytes with
    | nil => exact ⟨[], rfl, Nat.le_refl _⟩
    | cons byte rest =>
      unfold decodeFrom
      cases decoded : (byte :: rest).toByteArray.utf8DecodeChar? 0 with
      | none =>
        rcases ih rest with ⟨coded, encoded, short⟩
        exact ⟨coded, encoded, Nat.le_succ_of_le short⟩
      | some char =>
        rcases ih ((byte :: rest).drop char.utf8Size) with ⟨coded, encoded, short⟩
        have fits := ByteArray.le_size_of_utf8DecodeChar?_eq_some decoded
        rw [size_toByteArray, Nat.zero_add] at fits
        refine ⟨String.utf8EncodeChar char ++ coded, ?_, ?_⟩
        · unfold encode
          rw [encoded, map_some]
        · rw [length_append, String.length_utf8EncodeChar]
          rw [length_drop] at short
          omega

theorem encode_decodeIgnore (bytes : List UInt8) :
  ∃ coded, (decodeIgnore bytes).encode = some coded /\ coded.length <= bytes.length :=
  encode_decodeFrom bytes.length bytes

/-- A four-byte character cut after its third byte leaves what stands before it. -/
example : decodeIgnore (((ofString "aé😀").encode.getD []).take 6) = ofString "aé" := by decide +kernel

def continuations (first : UInt8) : List (UInt8 × UInt8) :=
  if first < 0xC2 then []
  else if first < 0xE0 then [(0x80, 0xBF)]
  else if first < 0xF0 then
    [(if first = 0xE0 then 0xA0 else 0x80, if first = 0xED then 0x9F else 0xBF), (0x80, 0xBF)]
  else if first < 0xF5 then
    [(if first = 0xF0 then 0x90 else 0x80, if first = 0xF4 then 0x8F else 0xBF), (0x80, 0xBF), (0x80, 0xBF)]
  else []

def continued : List (UInt8 × UInt8) -> List UInt8 -> ℕ
  | (low, high) :: ranges, byte :: rest => if low <= byte /\ byte <= high then continued ranges rest + 1 else 0
  | _, _ => 0

def replaceFrom : ℕ -> List UInt8 -> List Char
  | 0, _ => []
  | _ + 1, [] => []
  | fuel + 1, byte :: rest =>
    match (byte :: rest).toByteArray.utf8DecodeChar? 0 with
    | some char => char :: replaceFrom fuel ((byte :: rest).drop char.utf8Size)
    | none => '\uFFFD' :: replaceFrom fuel (rest.drop (continued (continuations byte) rest))

def decodeReplace (bytes : List UInt8) : List Char := replaceFrom bytes.length bytes

def encodeChars (chars : List Char) : List UInt8 := chars.flatMap String.utf8EncodeChar

theorem replaceFrom_encodeChars (chars : List Char) (fuel : ℕ) (enough : (encodeChars chars).length <= fuel) :
  replaceFrom fuel (encodeChars chars) = chars := by
  induction chars generalizing fuel with
  | nil => cases fuel <;> rfl
  | cons char rest ih =>
    have split : encodeChars (char :: rest) = String.utf8EncodeChar char ++ encodeChars rest := flatMap_cons
    have size : (String.utf8EncodeChar char).length = char.utf8Size := String.length_utf8EncodeChar char
    have positive := Char.utf8Size_pos char
    rw [split, length_append, size] at enough
    have decoded : (String.utf8EncodeChar char ++ encodeChars rest).toByteArray.utf8DecodeChar? 0 = some char := by
      rw [toByteArray_append]
      exact ByteArray.utf8DecodeChar?_utf8EncodeChar_append
    have dropped : (String.utf8EncodeChar char ++ encodeChars rest).drop char.utf8Size = encodeChars rest := by
      rw [<- size, drop_left]
    rw [split]
    cases fuel with
    | zero => omega
    | succ fuel =>
      cases bytes : String.utf8EncodeChar char ++ encodeChars rest with
      | nil => exact absurd (append_eq_nil_iff.mp bytes).1 String.utf8EncodeChar_ne_nil
      | cons byte later =>
        rw [bytes] at decoded dropped
        unfold replaceFrom
        rw [decoded]
        dsimp only
        rw [dropped, ih fuel (by omega)]

theorem encodeChars_decodeReplace_iff (bytes : List UInt8) :
  encodeChars (decodeReplace bytes) = bytes ↔ ByteArray.IsValidUTF8 bytes.toByteArray := by
  constructor
  · intro same
    rw [<- same]
    exact ByteArray.isValidUTF8_utf8Encode
  · intro valid
    rcases valid with ⟨chars, encoded⟩
    have bytesOf : bytes = encodeChars chars := toByteArray_inj.mp encoded
    rw [bytesOf]
    unfold decodeReplace
    rw [replaceFrom_encodeChars chars _ (Nat.le_refl _)]

/-- A cut character is replaced as one, an impossible byte by itself. -/
example : decodeReplace [0x61, 0xE2, 0x82, 0x62, 0xFF, 0xC3] = ['a', '\uFFFD', 'b', '\uFFFD', '\uFFFD'] := by
  decide +kernel

def decode (bytes : List UInt8) : Option Text := (String.fromUTF8? bytes.toByteArray).map ofString

theorem encode_chars (chars : List Char) : encode (chars.map CodePoint.scalar) = some (encodeChars chars) := by
  induction chars with
  | nil => rfl
  | cons char rest ih =>
    rw [map_cons]
    unfold encode
    rw [ih]
    rfl

theorem chars_of_encode (encoded : text.encode = some coded) :
  ∃ chars, text = chars.map CodePoint.scalar /\ coded = encodeChars chars := by
  induction text generalizing coded with
  | nil =>
    cases encoded
    exact ⟨[], rfl, rfl⟩
  | cons point rest ih =>
    cases point with
    | surrogate value => cases encoded
    | scalar char =>
      rcases map_eq_some_iff.mp encoded with ⟨_, laterEncoded, joined⟩
      rcases ih laterEncoded with ⟨chars, rfl, rfl⟩
      exact ⟨char :: chars, rfl, joined.symm⟩

theorem decode_eq_some {bytes : List UInt8} : decode bytes = some text ↔ text.encode = some bytes := by
  unfold decode String.fromUTF8?
  constructor
  · intro decoded
    split at decoded
    · rename_i valid
      cases decoded
      refine (encode_chars _).trans (congrArg some (toByteArray_inj.mp ?_))
      exact String.utf8Encode_toList (b := String.fromUTF8 bytes.toByteArray valid)
    · cases decoded
  · intro encoded
    rcases chars_of_encode encoded with ⟨chars, rfl, rfl⟩
    have valid : ByteArray.IsValidUTF8 (encodeChars chars).toByteArray := ByteArray.isValidUTF8_utf8Encode
    rw [dif_pos valid, map_some]
    have same : String.fromUTF8 (encodeChars chars).toByteArray valid = String.ofList chars :=
      String.toByteArray_inj.mp String.toByteArray_ofList.symm
    rw [same, ofString, String.toList_ofList]

end Text
end BananaChat.Foundation

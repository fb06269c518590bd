import Mathlib.Algebra.Order.Archimedean.Basic
import BananaChat.Foundation.Lists
import BananaChat.Foundation.Rounding

namespace BananaChat.Allowances

open Foundation List Option

/-!
# Token amounts as text

A form shows an amount as `tokenInput` writes it and reads it back with `parseAmount`: 30k, 1.5M, or
the plain number.
-/

section

variable (char : Char)

/-- What `str.split` and `str.strip` take for white space. -/
def isSpace : Bool :=
  (char.toNat ∈ [9, 10, 11, 12, 13, 28, 29, 30, 31, 32, 133, 160, 5760, 8232, 8233, 8239, 8287, 12288]) ||
    (8192 <= char.toNat /\ char.toNat <= 8202)

/-- `str.lower`, as far as what comes out can be part of an amount: the Kelvin sign is a `k`. -/
def lowerChar : Char := if char.toNat = 8490 then 'k' else char.toLower

def isFiller : Bool := char.toNat ∈ [95, 39]

def isDigit : Bool := '0' <= char /\ char <= '9'

def isSeparator : Bool := char = '.' \/ char = ','

end

def strip (text : List Char) : List Char := ((text.dropWhile isSpace).reverse.dropWhile isSpace).reverse

/-- `_SUFFIXES`, and no suffix. -/
def suffixScale (suffix : List Char) : Option ℕ :=
  if suffix = [] then some 1
  else if suffix = ['k'] then some 1000
  else if suffix = ['m'] \/ suffix = ['m', 'l', 'n'] then some 1000000
  else if suffix = ['b'] \/ suffix = ['m', 'l', 'd'] then some 1000000000
  else none

def splitOn (separator : Char) : List Char -> List (List Char)
  | [] => [[]]
  | char :: rest =>
    if char = separator then [] :: splitOn separator rest
    else
      match splitOn separator rest with
      | [] => [[char]]
      | part :: parts => (char :: part) :: parts

section

variable (number : List Char)

/-- `float` of digits with at most one point, which does not come first. -/
def readFloat : Option ℚ :=
  match splitOn '.' number with
  | [whole] => some (Nat.ofDigitChars 10 whole 0)
  | [whole, decimals] => some (Nat.ofDigitChars 10 whole 0 + (Nat.ofDigitChars 10 decimals 0 : ℚ) / 10 ^ decimals.length)
  | _ => none

def readMixed : Option ℚ :=
  let decimal := if (number.reverse.takeWhile (· ≠ '.')).length < (number.reverse.takeWhile (· ≠ ',')).length then '.' else ','
  let other := if decimal = '.' then ',' else '.'
  readFloat ((number.filter (· ≠ other)).map fun char => if char = decimal then '.' else char)

def readSeparated (suffixed : Bool) : Option ℚ :=
  let parts := splitOn (if ',' ∈ number then ',' else '.') number
  let head := parts.headD []
  let grouped := (1 < parts.length) && (parts.drop 1).all (·.length = 3) &&
    (1 <= head.length /\ head.length <= 3)
  if grouped && (!suffixed || (2 < parts.length)) then readFloat parts.flatten
  else
    match parts with
    | [whole, decimals] => readFloat (whole ++ '.' :: decimals)
    | _ => none

def readNumber (suffixed : Bool) : Option ℚ :=
  if '.' ∈ number /\ ',' ∈ number then readMixed number
  else if '.' ∈ number \/ ',' ∈ number then readSeparated number suffixed
  else readFloat number

end

def parseAmount (text : List Char) : Option ℚ :=
  let raw := ((text.filter (!isSpace ·)).filter (!isFiller ·)).map lowerChar
  let number := raw.takeWhile (fun char => isDigit char || isSeparator char)
  let suffix := raw.dropWhile (fun char => isDigit char || isSeparator char)
  if isDigit (number.headD ' ') then
    (suffixScale suffix).bind fun scale => (readNumber number (!suffix.isEmpty)).map fun value => value * (scale : ℚ)
  else none

/-- Tenths as `token_input` writes them: without a decimal that is zero. -/
def tenthsText (tenths : ℕ) : List Char :=
  if tenths % 10 = 0 then Nat.toDigits 10 (tenths / 10) else Nat.toDigits 10 (tenths / 10) ++ ['.', Nat.digitChar (tenths % 10)]

/-- `token_input` of a whole amount: in millions or thousands where one decimal is enough. -/
def tokenInput (amount : ℕ) : List Char :=
  if 1000000 <= amount /\ 100000 ∣ amount then tenthsText (amount / 100000) ++ ['M']
  else if 1000 <= amount /\ 100 ∣ amount then tenthsText (amount / 100) ++ ['k']
  else Nat.toDigits 10 amount

theorem isDigit_of_mem {char : Char} {amount : ℕ} (mem : char ∈ Nat.toDigits 10 amount) : isDigit char := by
  have digit := Nat.isDigit_of_mem_toDigits (by decide) (by decide) mem
  unfold Char.isDigit at digit
  rw [Bool.and_eq_true, decide_eq_true_eq, decide_eq_true_eq] at digit
  exact decide_eq_true digit

theorem digit_plain {char : Char} (digit : isDigit char) :
  isSpace char = false /\ isFiller char = false /\ lowerChar char = char /\ char ≠ '.' /\ char ≠ ',' := by
  have range : 48 <= char.toNat /\ char.toNat <= 57 := of_decide_eq_true digit
  refine ⟨?_, ?_, ?_, ?_, ?_⟩
  · unfold isSpace
    simp only [mem_cons, not_mem_nil, or_false, Bool.or_eq_false_iff, decide_eq_false_iff_not]
    omega
  · unfold isFiller
    simp only [mem_cons, not_mem_nil, or_false, decide_eq_false_iff_not]
    omega
  · have notKelvin : ¬ char.toNat = 8490 := by omega
    have notUpper : ¬ (char.val ≥ 'A'.val /\ char.val <= 'Z'.val) := by
      rintro ⟨above, _⟩
      have least : 65 <= char.toNat := above
      omega
    unfold lowerChar Char.toLower
    rw [if_neg notKelvin, dif_neg notUpper]
  · rintro rfl
    exact absurd digit (by decide)
  · rintro rfl
    exact absurd digit (by decide)

theorem point_plain : isSpace '.' = false /\ isFiller '.' = false /\ lowerChar '.' = '.' := by decide

variable {separator : Char} {text : List Char}

theorem splitOn_none (absent : separator ∉ text) : splitOn separator text = [text] := by
  induction text with
  | nil => rfl
  | cons head rest ih =>
    rw [mem_cons, not_or] at absent
    unfold splitOn
    rw [if_neg (Ne.symm absent.1), ih absent.2]

theorem splitOn_once {before : List Char} (absent : separator ∉ before) (after : List Char) :
  splitOn separator (before ++ separator :: after) = before :: splitOn separator after := by
  induction before with
  | nil =>
    rw [nil_append, splitOn, if_pos rfl]
  | cons head rest ih =>
    rw [mem_cons, not_or] at absent
    rw [cons_append, splitOn, if_neg (Ne.symm absent.1), ih absent.2]

def Body (body : List Char) : Prop := (∀ char ∈ body, isDigit char \/ char = '.') /\ isDigit (body.headD ' ')

theorem parseAmount_body {body suffix : List Char} (written : Body body) {lower : List Char} (letters : suffix.map lowerChar = lower)
  (plain : ∀ char ∈ suffix, isSpace char = false /\ isFiller char = false)
  (apart : ∀ char ∈ lower, (isDigit char || isSeparator char) = false) : parseAmount (body ++ suffix) =
    (suffixScale lower).bind fun scale => (readNumber body (!lower.isEmpty)).map fun value => value * (scale : ℚ) := by
  have bodyPlain : ∀ char ∈ body, isSpace char = false /\ isFiller char = false /\ lowerChar char = char := by
    intro char mem
    rcases written.1 char mem with digit | rfl
    · exact ⟨(digit_plain digit).1, (digit_plain digit).2.1, (digit_plain digit).2.2.1⟩
    · exact point_plain
  have spaces : (body ++ suffix).filter (!isSpace ·) = body ++ suffix := by
    refine filter_eq_self.mpr fun char mem => ?_
    rcases mem_append.mp mem with inBody | inSuffix
    · rw [(bodyPlain char inBody).1, Bool.not_false]
    · rw [(plain char inSuffix).1, Bool.not_false]
  have fillers : (body ++ suffix).filter (!isFiller ·) = body ++ suffix := by
    refine filter_eq_self.mpr fun char mem => ?_
    rcases mem_append.mp mem with inBody | inSuffix
    · rw [(bodyPlain char inBody).2.1, Bool.not_false]
    · rw [(plain char inSuffix).2, Bool.not_false]
  have same : body.map lowerChar = body := by
    refine (map_congr_left fun char mem => (bodyPlain char mem).2.2).trans (map_id _)
  have number : ∀ char ∈ body, (isDigit char || isSeparator char) := by
    intro char mem
    rcases written.1 char mem with digit | rfl
    · rw [digit, Bool.true_or]
    · decide
  have noneTaken : lower.takeWhile (fun char => isDigit char || isSeparator char) = [] := by
    cases lower with
    | nil => rfl
    | cons head rest => rw [takeWhile_cons, apart head mem_cons_self, if_neg Bool.false_ne_true]
  have allLeft : lower.dropWhile (fun char => isDigit char || isSeparator char) = lower := by
    cases lower with
    | nil => rfl
    | cons head rest => rw [dropWhile_cons, apart head mem_cons_self, if_neg Bool.false_ne_true]
  unfold parseAmount
  dsimp only
  rw [spaces, fillers, map_append, same, letters, takeWhile_append_of_pos number,
    dropWhile_append_of_pos number, noneTaken, allLeft, append_nil, if_pos written.2]

theorem head_digit {amount : ℕ} (rest : List Char) : isDigit ((Nat.toDigits 10 amount ++ rest).headD ' ') := by
  cases digits : Nat.toDigits 10 amount with
  | nil => exact absurd digits Nat.toDigits_ne_nil
  | cons head others => exact isDigit_of_mem (digits ▸ mem_cons_self)

theorem point_not_mem (amount : ℕ) : '.' ∉ Nat.toDigits 10 amount :=
  fun mem => (digit_plain (isDigit_of_mem mem)).2.2.2.1 rfl

theorem comma_not_mem (amount : ℕ) : ',' ∉ Nat.toDigits 10 amount :=
  fun mem => (digit_plain (isDigit_of_mem mem)).2.2.2.2 rfl

theorem tenthsText_body (tenths : ℕ) : Body (tenthsText tenths) := by
  unfold tenthsText
  split
  · refine ⟨fun char mem => .inl (isDigit_of_mem mem), ?_⟩
    have first := @head_digit (tenths / 10) []
    rwa [append_nil] at first
  · refine ⟨fun char mem => ?_, head_digit _⟩
    rcases mem_append.mp mem with whole | decimal
    · exact .inl (isDigit_of_mem whole)
    · rcases mem_cons.mp decimal with point | _
      · exact .inr point
      · refine .inl (@isDigit_of_mem _ (tenths % 10) ?_)
        rwa [Nat.toDigits_of_lt_base (Nat.mod_lt _ (by decide))]

theorem readNumber_tenthsText (tenths : ℕ) (suffixed : Bool) :
  readNumber (tenthsText tenths) suffixed = some ((tenths : ℚ) / 10) := by
  have split : (tenths : ℚ) = (tenths / 10 : ℕ) * 10 + (tenths % 10 : ℕ) := by
    exact_mod_cast (Nat.div_add_mod' tenths 10).symm
  unfold readNumber tenthsText
  by_cases whole : tenths % 10 = 0
  · rw [if_pos whole, if_neg (point_not_mem _ ·.1), if_neg (not_or.mpr ⟨point_not_mem _, comma_not_mem _⟩),
      readFloat, splitOn_none (point_not_mem _)]
    dsimp only
    rw [Nat.ofDigitChars_ten_toDigits, split, whole]
    congr 1
    push_cast
    ring
  · have small : tenths % 10 < 10 := Nat.mod_lt _ (by decide)
    have digits : Nat.toDigits 10 (tenths % 10) = [Nat.digitChar (tenths % 10)] := Nat.toDigits_of_lt_base small
    have digit : isDigit (Nat.digitChar (tenths % 10)) :=
      @isDigit_of_mem _ (tenths % 10) (digits ▸ .head _)
    have noPoint : '.' ∉ [Nat.digitChar (tenths % 10)] :=
      fun mem => (digit_plain digit).2.2.2.1 (mem_singleton.mp mem).symm
    have point : '.' ∈ Nat.toDigits 10 (tenths / 10) ++ ['.', Nat.digitChar (tenths % 10)] :=
      mem_append_right _ mem_cons_self
    have noComma : ',' ∉ Nat.toDigits 10 (tenths / 10) ++ ['.', Nat.digitChar (tenths % 10)] := by
      intro mem
      rcases mem_append.mp mem with whole | decimal
      · exact comma_not_mem _ whole
      · rcases mem_cons.mp decimal with point | comma
        · exact absurd point (by decide)
        · exact (digit_plain digit).2.2.2.2 (mem_singleton.mp comma).symm
    have parts : splitOn '.' (Nat.toDigits 10 (tenths / 10) ++ ['.', Nat.digitChar (tenths % 10)]) =
        [Nat.toDigits 10 (tenths / 10), [Nat.digitChar (tenths % 10)]] := by
      rw [splitOn_once (point_not_mem _), splitOn_none noPoint]
    have decimal : Nat.ofDigitChars 10 [Nat.digitChar (tenths % 10)] 0 = tenths % 10 := by
      rw [<- digits, Nat.ofDigitChars_ten_toDigits]
    rw [if_neg whole, if_neg (noComma ·.2), if_pos (.inl point)]
    -- one digit after the point groups nothing
    unfold readSeparated
    rw [if_neg noComma, parts]
    simp only [drop_succ_cons, drop_zero, all_cons, length_singleton, all_nil, Nat.reduceEqDiff,
      decide_false, Bool.false_and, Bool.and_false, Bool.false_eq_true, if_false]
    rw [readFloat, parts]
    dsimp only
    rw [Nat.ofDigitChars_ten_toDigits, decimal, length_singleton, split]
    congr 1
    ring

theorem forall_mem_singleton {letter : Char} {property : Char -> Prop} (holds : property letter) :
  ∀ char ∈ [letter], property char := by
  intro _ mem
  rw [mem_singleton.mp mem]
  exact holds

theorem parseAmount_tokenInput (amount : ℕ) : parseAmount (tokenInput amount) = some (amount : ℚ) := by
  unfold tokenInput
  split
  · rename_i millions
    rcases millions.2 with ⟨tenths, rfl⟩
    rw [Nat.mul_div_cancel_left _ (by decide), parseAmount_body (tenthsText_body tenths) (rfl : ['M'].map lowerChar = ['m'])
      (forall_mem_singleton (by decide)) (forall_mem_singleton (by decide))]
    have scale : suffixScale (['M'].map lowerChar) = some 1000000 := rfl
    rw [scale, bind_some, readNumber_tenthsText, map_some]
    congr 1
    push_cast
    ring
  · split
    · rename_i thousands
      rcases thousands.2 with ⟨tenths, rfl⟩
      rw [Nat.mul_div_cancel_left _ (by decide), parseAmount_body (tenthsText_body tenths) (rfl : ['k'].map lowerChar = ['k'])
        (forall_mem_singleton (by decide)) (forall_mem_singleton (by decide))]
      have scale : suffixScale (['k'].map lowerChar) = some 1000 := rfl
      rw [scale, bind_some, readNumber_tenthsText, map_some]
      congr 1
      push_cast
      ring
    · have body : Body (Nat.toDigits 10 amount) := by
        have first := @head_digit amount []
        rw [append_nil] at first
        exact ⟨fun char mem => .inl (isDigit_of_mem mem), first⟩
      have read := parseAmount_body body (rfl : ([] : List Char).map lowerChar = [])
        nofun nofun
      rw [append_nil] at read
      have scale : suffixScale (([] : List Char).map lowerChar) = some 1 := rfl
      rw [read, scale, bind_some, readNumber, if_neg (point_not_mem _ ·.1),
        if_neg (not_or.mpr ⟨point_not_mem _, comma_not_mem _⟩), readFloat, splitOn_none (point_not_mem _)]
      dsimp only
      rw [Nat.ofDigitChars_ten_toDigits, map_some, Nat.cast_one, mul_one]

/-- `tokens` of a form, for an optional field; none is an error that the form shows. -/
def tokensField (maximum : ℕ) (text : List Char) : Option (Option ℕ) :=
  if strip text = [] then some none
  else
    (parseAmount (strip text)).bind fun value =>
      if 0 <= value /\ value <= maximum then some (some (roundEven value).toNat) else none

def shownText (amount : Option ℕ) : List Char :=
  match amount with
  | some amount => tokenInput amount
  | none => []

theorem strip_plain (plain : ∀ char ∈ text, isSpace char = false) : strip text = text := by
  have kept : ∀ items : List Char, (∀ char ∈ items, isSpace char = false) -> items.dropWhile isSpace = items := by
    intro items none
    cases items with
    | nil => rfl
    | cons head rest => rw [dropWhile_cons, none head mem_cons_self, if_neg Bool.false_ne_true]
  unfold strip
  rw [kept text plain, kept text.reverse (fun char mem => plain char (mem_reverse.mp mem)), reverse_reverse]

theorem tokenInput_plain (amount : ℕ) : ∀ char ∈ tokenInput amount, isSpace char = false := by
  have body : ∀ tenths, ∀ char ∈ tenthsText tenths, isSpace char = false := by
    intro tenths char mem
    rcases (tenthsText_body tenths).1 char mem with digit | rfl
    · exact (digit_plain digit).1
    · exact point_plain.1
  intro char mem
  unfold tokenInput at mem
  split at mem
  · rcases mem_snoc.mp mem with inBody | letter
    · exact body _ char inBody
    · rw [letter]
      decide
  · split at mem
    · rcases mem_snoc.mp mem with inBody | letter
      · exact body _ char inBody
      · rw [letter]
        decide
    · exact (digit_plain (isDigit_of_mem mem)).1

theorem tokensField_shown (maximum amount : ℕ) :
  tokensField maximum (shownText (some amount)) = if amount <= maximum then some (some amount) else none := by
  have filled : tokenInput amount ≠ [] := by
    intro empty
    have read := parseAmount_tokenInput amount
    have nothing : parseAmount [] = none := rfl
    rw [empty, nothing] at read
    cases read
  have within : (0 : ℚ) <= amount /\ (amount : ℚ) <= maximum ↔ amount <= maximum :=
    ⟨fun both => by exact_mod_cast both.2, fun most => ⟨Nat.cast_nonneg amount, by exact_mod_cast most⟩⟩
  unfold tokensField shownText
  rw [strip_plain (tokenInput_plain amount), if_neg filled, parseAmount_tokenInput, bind_some, if_congr within rfl rfl]
  have rounded : roundEven (amount : ℚ) = amount := roundEven_whole amount
  rw [rounded, Int.toNat_natCast]

end BananaChat.Allowances

import BananaChat.SignIn.Totp

namespace BananaChat.Chats

open Foundation SignIn List

/-!
# Reasoning in stored answers

The reasoning stands before the answer, between two markers that either text may hold itself.
-/

def startMarker : Text := ['<', 't', 'h', 'i', 'n', 'k', '>'].map .scalar

def endMarker : Text := ['<', '/', 't', 'h', 'i', 'n', 'k', '>'].map .scalar

def newline : CodePoint := .scalar '\n'

section

variable (thinking answer : Text)

def compose : Text :=
  if strip thinking = [] then answer
  else if answer = [] then startMarker ++ strip thinking
  else startMarker ++ (strip thinking ++ (endMarker ++ ([newline, newline] ++ answer)))

/-- What is before the first end marker, and what is behind it. -/
def halve : Text -> Option (Text × Text)
  | [] => none
  | point :: rest =>
    if endMarker <+: point :: rest then some ([], (point :: rest).drop endMarker.length)
    else (halve rest).map fun parts => (point :: parts.1, parts.2)

/-- What `.*?(?:</think>\s*|$)` matches, less the spaces at its end, and what is behind it: `$`
also stands before a line feed at the end. -/
def body (rest : Text) : Text × Text :=
  match halve rest with
  | some (before, after) => (before ++ endMarker, after.dropWhile isSpace)
  | none => if rest.getLast? = some newline then (rest.dropLast, [newline]) else (rest, [])

def splitReasoning (content : Text) : Text × Text :=
  let found := content.dropWhile isSpace
  if startMarker <+: found then
    let inside := body (found.drop startMarker.length)
    let reasoning := (strip (startMarker ++ inside.1)).drop startMarker.length
    (strip (if endMarker <:+ reasoning then reasoning.take (reasoning.length - endMarker.length) else reasoning), inside.2)
  else
    ([], content)

/-- What JavaScript takes for white space. -/
def isPageSpace : CodePoint -> Bool
  | .surrogate _ => false
  | .scalar char => char.toNat = 0xFEFF ||
    isSpace (.scalar char) && !(28 <= char.toNat /\ char.toNat <= 31 \/ char.toNat = 0x85)

def trim (text : Text) : Text := ((text.dropWhile isPageSpace).reverse.dropWhile isPageSpace).reverse

/-- `splitReasoning` of the page. -/
def pageSplit (source : Text) : Text × Text :=
  let found := source.dropWhile isPageSpace
  if startMarker <+: found then
    match halve (found.drop startMarker.length) with
    | some (before, after) => (trim before, after.dropWhile isPageSpace)
    | none => (trim (found.drop startMarker.length), [])
  else
    ([], source)

/-- What is to hold of a thinking text and an answer. -/
def Returns : Prop :=
  (strip thinking ≠ [] -> splitReasoning (compose thinking answer) = (strip thinking, answer.dropWhile isSpace)) /\
  (strip thinking = [] -> ¬ startMarker <+: answer -> splitReasoning (compose thinking answer) = ([], answer)) /\
  pageSplit (compose thinking answer) = splitReasoning (compose thinking answer)

/-- The page reads what follows a start marker as the server does. -/
def SameSpaces (rest : Text) : Prop :=
  match halve rest with
  | some (before, after) => trim before = strip before /\ after.dropWhile isPageSpace = after.dropWhile isSpace
  | none => trim rest = strip rest /\ rest.getLast? ≠ some newline

/-- No end marker is in the thinking, and both languages see the same spaces. -/
def Plain : Prop :=
  if strip thinking = [] then
    ¬ startMarker <+: answer.dropWhile isSpace /\ ¬ startMarker <+: answer.dropWhile isPageSpace \/
      startMarker <+: answer /\ SameSpaces (answer.drop startMarker.length)
  else
    halve (strip thinking) = none /\ trim (strip thinking) = strip thinking /\
      answer.dropWhile isPageSpace = answer.dropWhile isSpace

end

variable {thinking answer rest text : Text} {point : CodePoint}

theorem dropWhile_marker {space : CodePoint -> Bool} (first : space (.scalar '<') = false) (text : Text) :
  (startMarker ++ text).dropWhile space = startMarker ++ text :=
  dropWhile_cons_of_neg (Bool.not_eq_true _ ▸ first)

theorem rdropWhile_marker (text : Text) : (startMarker ++ text).rdropWhile isSpace = startMarker ++ text.rdropWhile isSpace := by
  unfold rdropWhile
  rw [reverse_append, dropWhile_append]
  split
  · rename_i none
    rw [isEmpty_iff.mp none]
    rfl
  · rw [reverse_append, reverse_reverse]

theorem strip_spaces {tail : Text} (spaces : ∀ point ∈ tail, isSpace point) (text : Text) : strip (text ++ tail) = strip text := by
  have gone : tail.dropWhile isSpace = [] := dropWhile_eq_nil_iff.mpr spaces
  have back : tail.reverse.dropWhile isSpace = [] := dropWhile_eq_nil_iff.mpr fun point mem => spaces point (mem_reverse.mp mem)
  unfold strip
  rw [dropWhile_append]
  split
  · rename_i none
    rw [isEmpty_iff.mp none, gone]
  · rw [reverse_append, dropWhile_append, back]
    rfl

theorem strip_rdropWhile (text : Text) : strip (text.rdropWhile isSpace) = strip text := by
  have spaces (point : CodePoint) (mem : point ∈ text.rtakeWhile isSpace) : isSpace point := mem_rtakeWhile_imp mem
  calc strip (text.rdropWhile isSpace) = strip (text.rdropWhile isSpace ++ text.rtakeWhile isSpace) := (strip_spaces spaces _).symm
    _ = strip text := by rw [rdropWhile_append_rtakeWhile]

theorem strip_strip (text : Text) : strip (strip text) = strip text := by
  change strip ((text.dropWhile isSpace).rdropWhile isSpace) = _
  rw [strip_rdropWhile]
  unfold strip
  rw [dropWhile_idempotent]

theorem halve_none : halve text = none ↔ ¬ endMarker <:+: text := by
  induction text with
  | nil => simp [halve, endMarker]
  | cons point rest ih =>
    unfold halve
    rw [infix_cons_iff, not_or, <- ih]
    split <;> simp [*]

variable {before after : Text}

theorem halve_some (isCut : halve text = some (before, after)) :
  text = before ++ (endMarker ++ after) /\ halve before = none := by
  induction text generalizing before with
  | nil => cases isCut
  | cons point rest ih =>
    unfold halve at isCut
    split at isCut
    · rename_i begins
      cases isCut
      exact ⟨prefix_append_drop begins, rfl⟩
    · rename_i other
      rcases Option.map_eq_some_iff.mp isCut with ⟨⟨_, _⟩, isFirst, same⟩
      cases same
      rcases ih isFirst with ⟨rfl, none⟩
      refine ⟨rfl, ?_⟩
      unfold halve
      rw [if_neg fun begins => other (begins.trans (cons_prefix_cons.mpr ⟨rfl, prefix_append _ _⟩)), none]
      rfl

theorem halve_append (none : halve text = none) (after : Text) : halve (text ++ (endMarker ++ after)) = some (text, after) := by
  induction text with
  | nil => exact if_pos (prefix_append endMarker after)
  | cons point rest ih =>
    unfold halve at none
    split at none
    · cases none
    · rename_i other
      have later : ¬ endMarker <+: point :: rest ++ (endMarker ++ after) := by
        intro begins
        rcases prefix_or_prefix_of_prefix begins (prefix_append (point :: rest) _) with inside | ⟨tail, joined⟩
        · exact other inside
        · have isTail : rest ++ tail = endMarker.tail := congrArg List.tail joined
          cases tail with
          | nil => exact other (joined ▸ (append_nil (point :: rest)).symm ▸ prefix_rfl)
          | cons first more =>
            have follows : first :: more <+: endMarker ++ after := (prefix_append_right_inj (point :: rest)).mp (joined ▸ begins)
            have same : first = .scalar '<' := (cons_prefix_cons.mp follows).1
            have absent : (.scalar '<' : CodePoint) ∉ endMarker.tail := by decide
            exact absent (isTail ▸ mem_append_right _ (same ▸ .head _))
      rw [cons_append] at later ⊢
      unfold halve
      rw [if_neg later, ih (Option.map_eq_none_iff.mp none)]
      rfl

theorem strip_marker (text : Text) : strip (startMarker ++ text) = startMarker ++ text.rdropWhile isSpace := by
  change ((startMarker ++ text).dropWhile isSpace).rdropWhile isSpace = _
  rw [dropWhile_marker (by decide), rdropWhile_marker]

theorem split_marked (rest : Text) : splitReasoning (startMarker ++ rest) = match halve rest with
    | some (before, after) => (strip before, after.dropWhile isSpace)
    | none => (strip rest, if rest.getLast? = some newline then [newline] else []) := by
  unfold splitReasoning body
  rw [dropWhile_marker (by decide), if_pos (prefix_append _ _), drop_left]
  cases isCut : halve rest with
  | some parts =>
    have ends : (parts.1 ++ endMarker).rdropWhile isSpace = parts.1 ++ endMarker := by
      change (parts.1 ++ (endMarker.dropLast ++ [CodePoint.scalar '>'])).rdropWhile isSpace = _
      rw [<- append_assoc, rdropWhile_concat_neg isSpace _ _ (by decide), append_assoc]
      rfl
    dsimp only
    rw [strip_marker, drop_left, ends, if_pos (suffix_append _ _), length_append, Nat.add_sub_cancel, take_left]
  | none =>
    have stripped (inside : Text) (isInside : inside <+: rest) :
        strip (if endMarker <:+ (strip (startMarker ++ inside)).drop startMarker.length then
          ((strip (startMarker ++ inside)).drop startMarker.length).take
            (((strip (startMarker ++ inside)).drop startMarker.length).length - endMarker.length)
        else (strip (startMarker ++ inside)).drop startMarker.length) = strip inside := by
      rw [strip_marker, drop_left, if_neg, strip_rdropWhile]
      exact fun ends => halve_none.mp isCut (ends.isInfix.trans (( rdropWhile_prefix _ _).trans isInside).isInfix)
    dsimp only
    split
    · rename_i last
      rcases getLast?_eq_some_iff.mp last with ⟨init, rfl⟩
      have spaces : ∀ point ∈ [newline], isSpace point := by decide
      rw [dropLast_concat]
      exact congrArg (·, _) ((stripped init (prefix_append _ _)).trans (strip_spaces spaces init).symm)
    · exact congrArg (·, _) (stripped rest prefix_rfl)

theorem page_marked (rest : Text) : pageSplit (startMarker ++ rest) = match halve rest with
    | some (before, after) => (trim before, after.dropWhile isPageSpace)
    | none => (trim rest, []) := by
  unfold pageSplit
  rw [dropWhile_marker (by decide), if_pos (prefix_append _ _), drop_left]

theorem sameSpaces_iff (rest : Text) :
  pageSplit (startMarker ++ rest) = splitReasoning (startMarker ++ rest) ↔ SameSpaces rest := by
  rw [split_marked, page_marked]
  unfold SameSpaces
  cases halve rest with
  | some parts => exact Prod.mk_inj
  | none =>
    rw [Prod.mk_inj]
    refine and_congr Iff.rfl ?_
    split <;> simp [*]

theorem split_shorter {found content : Text} (suffix : found <:+ content) (marked : startMarker <+: found)
  (behind : after <:+ found.drop startMarker.length) : after ≠ content := by
  rintro rfl
  have inside := suffix.length_le
  have long := marked.length_le
  have later := behind.length_le
  rw [length_drop] at later
  have size : startMarker.length = 7 := rfl
  omega

theorem halve_suffix (isCut : halve text = some (before, after)) : after <:+ text :=
  (halve_some isCut).1 ▸ (suffix_append _ _).trans (suffix_append _ _)

theorem body_suffix (rest : Text) : (body rest).2 <:+ rest := by
  unfold body
  split
  · rename_i isCut
    exact (dropWhile_suffix _).trans (halve_suffix isCut)
  · split
    · rename_i last
      rcases getLast?_eq_some_iff.mp last with ⟨_, rfl⟩
      exact suffix_append _ _
    · exact nil_suffix

theorem strip_length (text : Text) : (strip text).length <= text.length :=
  (( rdropWhile_prefix _ _).length_le).trans (dropWhile_suffix _).length_le

theorem strip_last (text : Text) : (strip text).getLast? ≠ some newline := by
  intro last
  rcases getLast?_eq_some_iff.mp last with ⟨init, same⟩
  have spaces : ∀ point ∈ [newline], isSpace point := by decide
  have shorter := strip_length init
  rw [<- strip_spaces spaces init, <- same, strip_strip, same, length_append] at shorter
  exact Nat.lt_irrefl _ shorter

/-- The text comes back exactly when no end marker is in the thinking and both languages see the same spaces. -/
theorem returns_iff (thinking answer : Text) : Returns thinking answer ↔ Plain thinking answer := by
  unfold Returns Plain
  by_cases blank : strip thinking = []
  · have stored : compose thinking answer = answer := if_pos blank
    rw [stored, if_pos blank]
    by_cases marked : startMarker <+: answer
    · rcases marked with ⟨rest, rfl⟩
      rw [sameSpaces_iff, drop_left, dropWhile_marker (by decide)]
      simp [blank]
    · simp only [blank, marked, ne_eq, not_true_eq_false, false_implies, not_false_eq_true, true_implies, true_and, false_and, or_false]
      have server : splitReasoning answer = ([], answer) ↔ ¬ startMarker <+: answer.dropWhile isSpace := by
        unfold splitReasoning
        dsimp only
        split
        · rename_i found
          exact iff_of_false (fun same => split_shorter (dropWhile_suffix _) found (body_suffix _) (congrArg Prod.snd same)) (· found)
        · exact iff_of_true rfl ‹_›
      have page : pageSplit answer = ([], answer) ↔ ¬ startMarker <+: answer.dropWhile isPageSpace := by
        unfold pageSplit
        dsimp only
        split
        · rename_i found
          refine iff_of_false (fun same => ?_) (· found)
          split at same
          · rename_i isCut
            exact split_shorter (dropWhile_suffix _) found ((dropWhile_suffix _).trans (halve_suffix isCut)) (congrArg Prod.snd same)
          · exact split_shorter (dropWhile_suffix _) found nil_suffix (congrArg Prod.snd same)
        · exact iff_of_true rfl ‹_›
      rw [server]
      refine and_congr_right fun unmarked => ?_
      rw [server.mpr unmarked, page]
  · rw [if_neg blank]
    simp only [blank, ne_eq, not_false_eq_true, true_implies, false_implies, true_and]
    cases isCut : halve (strip thinking) with
    | some parts =>
      rcases halve_some isCut with ⟨joined, none⟩
      have marked : ∃ more, compose thinking answer = startMarker ++ (parts.1 ++ (endMarker ++ (parts.2 ++ more))) := by
        unfold compose
        rw [if_neg blank]
        split
        · exact ⟨[], by rw [append_nil, <- joined]⟩
        · exact ⟨endMarker ++ ([newline, newline] ++ answer), by simp only [joined, append_assoc]⟩
      rcases marked with ⟨more, stored⟩
      refine iff_of_false (fun both => ?_) (by simp)
      have first := congrArg Prod.fst both.1
      rw [stored, split_marked, halve_append none] at first
      have shorter := strip_length parts.1
      rw [show strip parts.1 = strip thinking from first, joined, length_append, length_append] at shorter
      have size : endMarker.length = 8 := rfl
      omega
    | none =>
      by_cases empty : answer = []
      · have stored : compose thinking answer = startMarker ++ strip thinking := by rw [compose, if_neg blank, if_pos empty]
        rw [stored, sameSpaces_iff, split_marked]
        simp [SameSpaces, isCut, empty, strip_strip, strip_last]
      · have stored : compose thinking answer = startMarker ++ (strip thinking ++ (endMarker ++ ([newline, newline] ++ answer))) := by
          rw [compose, if_neg blank, if_neg empty]
        have server : ([newline, newline] ++ answer).dropWhile isSpace = answer.dropWhile isSpace := rfl
        have page : ([newline, newline] ++ answer).dropWhile isPageSpace = answer.dropWhile isPageSpace := rfl
        rw [stored, sameSpaces_iff, split_marked]
        simp only [SameSpaces, halve_append isCut, strip_strip, server, page, true_and]

/-- The rest of a thinking text that holds an end marker becomes part of the answer. -/
theorem reasoning_leaks :
  let thinking : Text := .scalar 'a' :: (endMarker ++ [.scalar 'b'])
  strip thinking ≠ [] /\
    splitReasoning (compose thinking [.scalar 'c']) = ([.scalar 'a'], .scalar 'b' :: (endMarker ++ [newline, newline, .scalar 'c'])) := by
  decide +kernel

end BananaChat.Chats

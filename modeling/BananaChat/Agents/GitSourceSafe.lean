import BananaChat.Agents.GitSource

namespace BananaChat.Agents.GitFetch

open Foundation List Dictionary Allowances
open Bool (or_eq_true and_eq_true)

/-!
# What an accepted address leads to

The parts that pass the checks have letters, digits and few signs in them, so the archive is asked
for at an allowed host and its path has exactly the segments that were checked.
-/

def isPathChar (char : Char) : Bool := isWord char || char = '.' || char = '-' || char = '/'

variable {char : Char} {text host : List Char} {provider : Provider} {casing : Casing} {segments : List (List Char)}
  {hosts : List Given} {source : Source}

theorem plain_of_range (range : 33 <= char.toNat /\ char.toNat <= 126) : isSpace char = false := by
  unfold isSpace
  rw [Bool.or_eq_false_iff, decide_eq_false_iff_not, decide_eq_false_iff_not]
  refine ⟨?_, by omega⟩
  simp only [mem_cons, not_mem_nil, or_false]
  omega

theorem alphanum_range (isAlnum : char.isAlphanum) : 33 <= char.toNat /\ char.toNat <= 126 := by
  simp only [Char.isAlphanum, Char.isAlpha, Char.isUpper, Char.isLower, Char.isDigit, or_eq_true, and_eq_true,
    decide_eq_true_eq, UInt32.le_iff_toNat_le] at isAlnum
  have same : char.val.toNat = char.toNat := rfl
  simp at isAlnum
  omega

theorem pathChar_range (isPath : isPathChar char) : 33 <= char.toNat /\ char.toNat <= 126 := by
  unfold isPathChar isWord at isPath
  simp only [or_eq_true, decide_eq_true_eq] at isPath
  rcases isPath with (((isAlnum | isUnderscore) | isDot) | isDash) | isSlash
  · exact alphanum_range isAlnum
  · subst isUnderscore
    decide
  · subst isDot
    decide
  · subst isDash
    decide
  · subst isSlash
    decide

theorem strip_plain (plain : ∀ char ∈ text, isSpace char = false) : strip text = text := by
  have kept (chars : List Char) (all : ∀ char ∈ chars, isSpace char = false) :
      chars.dropWhile isSpace = chars := by
    cases chars with
    | nil => rfl
    | cons first rest =>
      rw [dropWhile_cons_of_neg]
      rw [all first mem_cons_self]
      exact Bool.false_ne_true
  unfold strip
  rw [kept text plain, kept text.reverse (fun char mem => plain char (mem_reverse.mp mem)), reverse_reverse]

theorem isEdged_cons {edge inner : Char -> Bool} {most : ℕ} (isOk : isEdged edge inner most text) :
  ∃ first rest, text = first :: rest /\ edge first /\ ∀ char ∈ rest, inner char \/ edge char := by
  cases text with
  | nil => cases isOk
  | cons first rest =>
    unfold isEdged at isOk
    rw [and_eq_true] at isOk
    refine ⟨first, rest, rfl, isOk.1, fun char mem => ?_⟩
    cases rest using reverseRecOn with
    | nil => exact absurd mem not_mem_nil
    | append_singleton others last =>
      have tail := isOk.2
      rw [getLast?_concat] at tail
      rw [and_eq_true, and_eq_true, dropLast_concat, all_eq_true] at tail
      rcases mem_snoc.mp mem with isInner | isLast
      · exact .inl (tail.1.1 char isInner)
      · rw [isLast]
        exact .inr tail.1.2

structure IsPart (part : List Char) : Prop where
  head : ∃ first rest, part = first :: rest /\ first ≠ '.'
  chars : ∀ char ∈ part, isPathChar char
  slash : '/' ∉ part

variable {rest : List Char}

theorem isPart_of_chars {first : Char} (isFirst : isWord first)
  (others : ∀ char ∈ rest, (isWord char || char = '.' || char = '-')) : IsPart (first :: rest) := by
  have dotless : first ≠ '.' := by
    intro same
    subst same
    revert isFirst
    decide
  have all : ∀ char ∈ first :: rest, (isWord char || char = '.' || char = '-') := by
    refine forall_mem_cons.mpr ⟨?_, others⟩
    rw [isFirst]
    rfl
  refine ⟨⟨first, rest, rfl, dotless⟩, fun char mem => ?_, fun mem => ?_⟩
  · unfold isPathChar
    rw [all char mem]
    rfl
  · have slash := all '/' mem
    revert slash
    decide

theorem isWord_of_alphanum (isAlnum : char.isAlphanum) : isWord char := by
  unfold isWord
  rw [isAlnum]
  rfl

theorem isOwner_part {owner : List Char} (isOk : isOwner provider owner) : IsPart owner := by
  have wordly {char : Char} (either : (isWord char || char = '.' || char = '-') \/ isWord char) :
      (isWord char || char = '.' || char = '-') := by
    rcases either with inner | isWordly
    · exact inner
    · rw [isWordly]
      rfl
  cases provider with
  | github =>
    rcases isEdged_cons isOk with ⟨first, rest, same, isFirst, others⟩
    subst same
    refine isPart_of_chars (isWord_of_alphanum isFirst) (fun char mem => ?_)
    rcases others char mem with inner | isAlnum
    · rcases Bool.or_eq_true_iff.mp inner with isAlnum | isDash
      · exact wordly (.inr (isWord_of_alphanum isAlnum))
      · rw [isDash, Bool.or_true]
    · exact wordly (.inr (isWord_of_alphanum isAlnum))
  | gitlab | gitea =>
    rcases isEdged_cons isOk with ⟨_, _, same, isFirst, others⟩
    subst same
    exact isPart_of_chars isFirst (fun char mem => wordly (others char mem))

theorem repoAllowed_part {repo : List Char} (isOk : repoAllowed casing repo) : IsPart repo := by
  unfold repoAllowed checkSegment isRepo at isOk
  simp only [and_eq_true, Bool.not_eq_true', decide_eq_true_eq, decide_eq_false_iff_not, all_eq_true] at isOk
  rcases isOk with ⟨⟨⟨⟨⟨⟨some_, _⟩, chars⟩, _⟩, start⟩, _⟩, _⟩
  cases repo with
  | nil => exact absurd some_ (by decide)
  | cons first rest =>
    rw [head?_cons, Option.some_inj, Option.some_inj, not_or] at start
    refine ⟨⟨first, rest, rfl, start.2⟩, fun char mem => ?_, fun mem => ?_⟩
    · unfold isPathChar
      rw [chars char mem]
      rfl
    · have slash := chars '/' mem
      revert slash
      decide

theorem mem_splitOn (separator : Char) (mem : char ∈ text) :
  char = separator \/ ∃ part ∈ text.splitOn separator, char ∈ part := by
  induction text with
  | nil => exact absurd mem not_mem_nil
  | cons first rest ih =>
    rw [splitOn_cons_eq_if_modifyHead]
    by_cases same : first = separator
    · rw [if_pos (beq_iff_eq.mpr same)]
      rcases mem_cons.mp mem with isFirst | isLater
      · exact .inl (isFirst.trans same)
      · rcases ih isLater with isSeparator | ⟨part, isPart, isChar⟩
        · exact .inl isSeparator
        · exact .inr ⟨part, mem_cons_of_mem _ isPart, isChar⟩
    · rw [if_neg fun equal => same (beq_iff_eq.mp equal)]
      cases parts : rest.splitOn separator with
      | nil => exact absurd parts (splitOn_ne_nil _ _)
      | cons head others =>
        rw [parts] at ih
        rcases mem_cons.mp mem with isFirst | isLater
        · exact .inr ⟨first :: head, mem_cons_self, mem_cons.mpr (.inl isFirst)⟩
        · rcases ih isLater with isSeparator | ⟨part, isPart, isChar⟩
          · exact .inl isSeparator
          · rcases mem_cons.mp isPart with isHead | isOther
            · exact .inr ⟨first :: head, mem_cons_self, mem_cons_of_mem _ (isHead ▸ isChar)⟩
            · exact .inr ⟨part, mem_cons_of_mem _ isOther, isChar⟩

variable {suffix : List Char}

theorem splitOn_append {separator : Char} (free : separator ∉ suffix) (text : List Char) : ∃ others last,
    text.splitOn separator = others ++ [last] /\ (text ++ suffix).splitOn separator = others ++ [last ++ suffix] := by
  induction text with
  | nil => exact ⟨[], [], rfl, by rw [nil_append, splitOn_eq_singleton free]; rfl⟩
  | cons first rest ih =>
    rcases ih with ⟨others, last, without, behind⟩
    rw [cons_append, splitOn_cons_eq_if_modifyHead, splitOn_cons_eq_if_modifyHead, without, behind]
    split
    · exact ⟨[] :: others, last, rfl, rfl⟩
    · cases others with
      | nil => exact ⟨[], first :: last, rfl, rfl⟩
      | cons head more => exact ⟨(first :: head) :: more, last, rfl, rfl⟩

def Plain (part : List Char) : Prop := ∃ first rest, part = first :: rest /\ first ≠ '.'

theorem splitOn_plain (slashes : ¬ ['/', '/'] <:+: text) (dots : ¬ ['/', '.'] <:+: text) (ends : text.getLast? ≠ some '/') :
  ∃ head others, text.splitOn '/' = head :: others /\ (∀ other ∈ others, Plain other) /\
    ∀ first rest, text = first :: rest -> first ≠ '/' -> ∃ more, head = first :: more := by
  induction text with
  | nil => exact ⟨[], [], rfl, forall_mem_nil _, fun first rest same => by cases same⟩
  | cons first rest ih =>
    have shorter {part : List Char} (apart : ¬ part <:+: first :: rest) : ¬ part <:+: rest :=
      fun isInfix => apart (isInfix.trans (suffix_cons first rest).isInfix)
    have endsLater : rest.getLast? ≠ some '/' := by
      cases rest with
      | nil => exact Option.some_ne_none _ ∘ Eq.symm
      | cons second later =>
        exact ends
    rcases ih (shorter slashes) (shorter dots) endsLater with ⟨head, others, parts, plain, heads⟩
    rw [splitOn_cons_eq_if_modifyHead, parts]
    by_cases isSlash : first = '/'
    · subst isSlash
      refine ⟨[], head :: others, rfl, forall_mem_cons.mpr ⟨?_, plain⟩, ?_⟩
      · cases rest with
        | nil => exact absurd rfl ends
        | cons second later =>
          have notSlash : second ≠ '/' := by
            intro same
            subst same
            exact slashes ⟨[], later, rfl⟩
          rcases heads second later rfl notSlash with ⟨more, isHead⟩
          refine ⟨second, more, isHead, ?_⟩
          intro same
          subst same
          exact dots ⟨[], later, rfl⟩
      · intro other behind same notSlash
        cases same
        exact absurd rfl notSlash
    · rw [if_neg (fun equal => isSlash (beq_iff_eq.mp equal)), modifyHead_cons]
      refine ⟨first :: head, others, rfl, plain, ?_⟩
      intro _ _ same _
      cases same
      exact ⟨head, rfl⟩

structure AllPlain (text : List Char) : Prop where
  parts : ∀ part ∈ text.splitOn '/', Plain part
  chars : ∀ char ∈ text, isPathChar char

theorem allPlain_join {first second : List Char} (isFirst : AllPlain first) (isSecond : AllPlain second) :
  AllPlain (first ++ '/' :: second) := by
  refine ⟨?_, ?_⟩
  · rw [splitOn_append_cons_self]
    exact forall_mem_append.mpr ⟨isFirst.parts, isSecond.parts⟩
  · exact forall_mem_append.mpr ⟨isFirst.chars, forall_mem_cons.mpr ⟨by decide, isSecond.chars⟩⟩

theorem allPlain_append (isText : AllPlain text) (free : '/' ∉ suffix)
  (chars : ∀ char ∈ suffix, isPathChar char) : AllPlain (text ++ suffix) := by
  rcases splitOn_append free text with ⟨_, last, without, behind⟩
  have parts := isText.parts
  rw [without] at parts
  rcases forall_mem_append.mp parts with ⟨plainOthers, plainLast⟩
  refine ⟨?_, forall_mem_append.mpr ⟨isText.chars, chars⟩⟩
  rw [behind]
  refine forall_mem_append.mpr ⟨plainOthers, forall_mem_singleton.mpr ?_⟩
  rcases plainLast last (mem_singleton.mpr rfl) with ⟨first, rest, same, dotless⟩
  exact ⟨first, rest ++ suffix, by rw [same, cons_append], dotless⟩

theorem allPlain_part {part : List Char} (isPart : IsPart part) : AllPlain part := by
  refine ⟨fun other mem => ?_, isPart.chars⟩
  rw [splitOn_eq_singleton isPart.slash] at mem
  rw [mem_singleton.mp mem]
  exact isPart.head

theorem allPlain_owner {owners : List (List Char)} (some_ : owners ≠ []) (all : ∀ owner ∈ owners, IsPart owner) :
  AllPlain (intercalate ['/'] owners) := by
  have same := splitOn_intercalate '/' (fun owner mem => (all owner mem).slash) some_
  refine ⟨fun part mem => ?_, fun char mem => ?_⟩
  · rw [same] at mem
    exact (all part mem).head
  · rcases mem_splitOn '/' mem with isSlash | ⟨part, isPart, isChar⟩
    · rw [isSlash]
      decide
    · rw [same] at isPart
      exact (all part isPart).chars char isChar

theorem refAllowed_plain {ref : List Char} (isOk : refAllowed ref) : AllPlain ref := by
  unfold refAllowed at isOk
  simp only [and_eq_true, Bool.not_eq_true', decide_eq_false_iff_not, not_or] at isOk
  rcases isOk with ⟨⟨⟨⟨⟨⟨isPattern, _⟩, slashes⟩, dots⟩, ends⟩, _⟩, _⟩
  cases ref with
  | nil => cases isPattern
  | cons first rest =>
    unfold isRef at isPattern
    rw [and_eq_true, and_eq_true, all_eq_true] at isPattern
    rcases isPattern with ⟨⟨isFirst, _⟩, others⟩
    rcases splitOn_plain slashes dots ends.1 with ⟨_, _, same, plain, heads⟩
    have notSlash : first ≠ '/' := by
      intro isSlash
      subst isSlash
      revert isFirst
      decide
    refine ⟨?_, ?_⟩
    · rw [same]
      refine forall_mem_cons.mpr ⟨?_, plain⟩
      rcases heads first rest rfl notSlash with ⟨more, isHead⟩
      refine ⟨first, more, isHead, ?_⟩
      intro isDot
      subst isDot
      revert isFirst
      decide
    · refine forall_mem_cons.mpr ⟨?_, fun char mem => ?_⟩
      · unfold isPathChar
        rw [isFirst]
        rfl
      · have isOther := others char mem
        unfold isPathChar
        simp only [or_eq_true] at isOther ⊢
        tauto

variable {First Second : Type}

structure Checked (casing : Casing) (provider : Provider) (segments : List (List Char)) : Prop where
  owners : segments.dropLast ≠ []
  allOwners : ∀ owner ∈ segments.dropLast, isOwner provider owner
  repo : repoAllowed casing (segments.getLast?.getD [])

theorem checkPath_ok {nothing : Unit} (isOk : checkPath casing provider segments = .ok nothing) :
  Checked casing provider segments := by
  unfold checkPath at isOk
  dsimp only at isOk
  split at isOk
  · cases isOk
  · rename_i counted
    split at isOk
    · cases isOk
    · rename_i owners
      split at isOk
      · cases isOk
      · rename_i repo
        refine ⟨fun none_ => counted (.inl ?_), fun owner mem => ?_, eq_true_of_ne_false repo⟩
        · rw [none_]
          exact Nat.zero_lt_one
        · have checked := all_eq_true.mp (eq_true_of_ne_false owners) owner mem
          exact (Bool.and_eq_true_iff.mp checked).1

theorem Checked.split (checked : Checked casing provider segments) :
  segments.dropLast ++ [segments.getLast?.getD []] = segments := by
  cases segments using reverseRecOn with
  | nil => exact absurd rfl checked.owners
  | append_singleton others last => rw [dropLast_concat, getLast?_concat, Option.getD_some]

theorem headRef_allowed : refAllowed headRef := by decide

theorem checkRef_ok {given : Given} {ref : List Char} (isOk : checkRef given = .ok ref) :
  refAllowed ref /\ checkRef (.text ref) = .ok ref := by
  have allowed : refAllowed ref := by
    cases given with
    | nothing =>
      cases isOk
      exact headRef_allowed
    | other => cases isOk
    | text raw =>
      unfold checkRef at isOk
      dsimp only at isOk
      split at isOk
      · cases isOk
        exact headRef_allowed
      · split at isOk
        · rename_i isAllowed
          cases isOk
          exact isAllowed
        · cases isOk
  refine ⟨allowed, ?_⟩
  have plain := refAllowed_plain allowed
  have some_ : ref ≠ [] := by
    intro none_
    rw [none_] at allowed
    revert allowed
    decide
  unfold checkRef
  dsimp only
  rw [strip_plain (fun char mem => plain_of_range (pathChar_range (plain.chars char mem))), if_neg some_, if_pos allowed]

structure Accepted (casing : Casing) (hosts : List Given) (source : Source) : Prop where
  hostname : isHostname source.host
  provider : get? source.host (hostProviders casing hosts) = some source.provider
  path : ∃ segments : List (List Char), checkPath casing source.provider segments = .ok () /\
    Checked casing source.provider segments /\ source.owner = intercalate ['/'] segments.dropLast /\
      source.repo = segments.getLast?.getD []
  ref : refAllowed source.ref /\ checkRef (.text source.ref) = .ok source.ref

theorem parse_ok {url ref : Given} (isOk : parse casing url ref hosts = .ok source) : Accepted casing hosts source := by
  unfold parse at isOk
  split at isOk
  · dsimp only at isOk
    split at isOk
    · cases isOk
    · rcases except_bind_ok isOk with ⟨_, _, isOk⟩
      split at isOk
      · cases isOk
      · split at isOk
        · rename_i hostname
          split at isOk
          · cases isOk
          · rename_i provider isProvider
            rcases except_bind_ok isOk with ⟨segments, _, isOk⟩
            rcases except_bind_ok isOk with ⟨_, isChecked, isOk⟩
            rcases except_bind_ok isOk with ⟨_, isRef, isOk⟩
            cases isOk
            exact ⟨hostname, isProvider, ⟨segments, isChecked, checkPath_ok isChecked, rfl, rfl⟩, checkRef_ok isRef⟩
        · cases isOk
  · cases isOk

/-- The segments of a path are not empty and lead neither nowhere nor up, and none of its characters ends it. -/
structure SafePath (path : List Char) : Prop where
  segments : ∃ rest, path = '/' :: rest /\
    ∀ segment ∈ rest.splitOn '/', segment ≠ [] /\ segment ≠ ['.'] /\ segment ≠ ['.', '.']
  chars : ∀ char ∈ path, isPathChar char

theorem safePath_of_plain (plain : AllPlain rest) : SafePath ('/' :: rest) := by
  refine ⟨⟨rest, rfl, fun segment mem => ?_⟩, forall_mem_cons.mpr ⟨by decide, plain.chars⟩⟩
  rcases plain.parts segment mem with ⟨_, _, same, dotless⟩
  subst same
  refine ⟨cons_ne_nil _ _, fun isDot => dotless ?_, fun isDots => dotless ?_⟩
  · exact (cons.inj isDot).1
  · exact (cons.inj isDots).1

theorem isPart_fixed : IsPart tarGz /\ IsPart archiveFolder /\ IsPart ['-'] := by
  refine ⟨isPart_of_chars rfl (all_eq_true.mp rfl), isPart_of_chars rfl (all_eq_true.mp rfl), ?_⟩
  exact ⟨⟨'-', [], rfl, by decide⟩, all_eq_true.mp rfl, by decide⟩

theorem archive_safe (accepted : Accepted casing hosts source) : SafePath source.archive.2 := by
  rcases accepted.path with ⟨_, _, checked, isOwner, isRepo⟩
  have owner : AllPlain source.owner := by
    rw [isOwner]
    exact allPlain_owner checked.owners (fun owner mem => isOwner_part (checked.allOwners owner mem))
  have repoPart : IsPart source.repo := by
    rw [isRepo]
    exact repoAllowed_part checked.repo
  have repo := allPlain_part repoPart
  have ref := refAllowed_plain accepted.ref.1
  have ending : '/' ∉ '.' :: tarGz := by decide
  have endingChars : ∀ char ∈ '.' :: tarGz, isPathChar char := all_eq_true.mp rfl
  unfold Source.archive
  cases source.provider with
  | github =>
    have same : '/' :: source.owner ++ '/' :: source.repo ++ '/' :: tarGz ++ '/' :: source.ref =
        '/' :: (source.owner ++ '/' :: (source.repo ++ '/' :: (tarGz ++ '/' :: source.ref))) := by simp
    rw [same]
    exact safePath_of_plain (allPlain_join owner (allPlain_join repo (allPlain_join (allPlain_part isPart_fixed.1) ref)))
  | gitlab =>
    dsimp only
    have name : IsPart (source.repo ++ '-' :: source.ref.map fun char => if char = '/' then '-' else char) := by
      rcases repoPart.head with ⟨first, _, isFirst, dotless⟩
      refine ⟨⟨first, _, by rw [isFirst, cons_append], dotless⟩, ?_, ?_⟩
      · refine forall_mem_append.mpr ⟨repoPart.chars, forall_mem_cons.mpr ⟨by decide, fun char mem => ?_⟩⟩
        rcases mem_map.mp mem with ⟨before, isBefore, isChar⟩
        subst isChar
        split
        · decide
        · exact ref.chars before isBefore
      · intro mem
        rcases mem_append.mp mem with inRepo | behind
        · exact repoPart.slash inRepo
        · rcases mem_cons.mp behind with isDash | inRef
          · cases isDash
          · rcases mem_map.mp inRef with ⟨_, _, isSlash⟩
            split at isSlash
            · cases isSlash
            · rename_i notSlash
              exact notSlash isSlash
    have same : '/' :: source.owner ++ '/' :: source.repo ++ '/' :: '-' :: '/' :: archiveFolder ++ '/' :: source.ref ++
        '/' :: (source.repo ++ '-' :: source.ref.map fun char => if char = '/' then '-' else char) ++ '.' :: tarGz =
        '/' :: (source.owner ++ '/' :: (source.repo ++ '/' :: (['-'] ++ '/' :: (archiveFolder ++ '/' ::
          (source.ref ++ '/' :: ((source.repo ++ '-' :: source.ref.map fun char => if char = '/' then '-' else char) ++
            '.' :: tarGz)))))) := by simp
    rw [same]
    exact safePath_of_plain (allPlain_join owner (allPlain_join repo (allPlain_join (allPlain_part isPart_fixed.2.2)
      (allPlain_join (allPlain_part isPart_fixed.2.1)
        (allPlain_join ref (allPlain_append (allPlain_part name) ending endingChars))))))
  | gitea =>
    have same : '/' :: source.owner ++ '/' :: source.repo ++ '/' :: archiveFolder ++ '/' :: source.ref ++
        '.' :: tarGz =
        '/' :: (source.owner ++ '/' :: (source.repo ++ '/' :: (archiveFolder ++ '/' ::
          (source.ref ++ '.' :: tarGz)))) := by simp
    rw [same]
    exact safePath_of_plain (allPlain_join owner (allPlain_join repo (allPlain_join (allPlain_part isPart_fixed.2.1)
      (allPlain_append ref ending endingChars))))

theorem isLowerAlnum_range (isLower : isLowerAlnum char) :
  (97 <= char.toNat /\ char.toNat <= 122) \/ (48 <= char.toNat /\ char.toNat <= 57) := by
  simp only [isLowerAlnum, Char.isLower, Char.isDigit, or_eq_true, and_eq_true, decide_eq_true_eq,
    UInt32.le_iff_toNat_le] at isLower
  have same : char.val.toNat = char.toNat := rfl
  simp at isLower
  omega

theorem hostname_range (hostname : isHostname host) (mem : char ∈ host) :
  (97 <= char.toNat /\ char.toNat <= 122) \/ (48 <= char.toNat /\ char.toNat <= 57) \/ char.toNat = 45 \/ char.toNat = 46 := by
  unfold isHostname at hostname
  rw [and_eq_true, and_eq_true, all_eq_true] at hostname
  rcases mem_splitOn '.' mem with isDot | ⟨label, isLabel_, inLabel⟩
  · subst isDot
    decide
  · rcases isEdged_cons (hostname.1.2 label isLabel_) with ⟨_, _, same, isFirst, others⟩
    have lowerAlnum {char : Char} (isLower : isLowerAlnum char) :
        (97 <= char.toNat /\ char.toNat <= 122) \/ (48 <= char.toNat /\ char.toNat <= 57) \/ char.toNat = 45 \/ char.toNat = 46 := by
      have range := isLowerAlnum_range isLower
      omega
    subst same
    rcases mem_cons.mp inLabel with same | behind
    · subst same
      exact lowerAlnum isFirst
    · rcases others char behind with isInner | isEdge
      · rcases Bool.or_eq_true_iff.mp isInner with isLower | isDash
        · exact lowerAlnum isLower
        · rw [of_decide_eq_true isDash]
          decide
      · exact lowerAlnum isEdge

theorem toLower_of_range (range : ¬ (65 <= char.toNat /\ char.toNat <= 90)) : char.toLower = char := by
  unfold Char.toLower
  have notUpper : ¬ (char.val ≥ 65 /\ char.val <= 90) := by
    rintro ⟨low, high⟩
    refine range ⟨?_, ?_⟩
    · exact UInt32.le_iff_toNat_le.mp low
    · exact UInt32.le_iff_toNat_le.mp high
  simp [notUpper]

theorem lower_strip (casing : Casing) (plain : ∀ char ∈ text,
  (97 <= char.toNat /\ char.toNat <= 122) \/ (48 <= char.toNat /\ char.toNat <= 58) \/ char.toNat = 45 \/ char.toNat = 46) :
  casing.lower (strip text) = text := by
  rw [strip_plain, casing.ascii]
  · rw [map_congr_left (g := id), map_id]
    intro char mem
    have range := plain char mem
    exact toLower_of_range (by omega)
  · intro char mem
    have range := plain char mem
    omega
  · intro char mem
    have range := plain char mem
    exact plain_of_range (by omega)

theorem colon_not_mem (hostname : isHostname host) : ':' ∉ host := by
  intro mem
  have range := hostname_range hostname mem
  revert range
  decide

structure Entry (host : List Char) (provider : Provider) : Prop where
  hostname : isHostname host
  known : get? host knownHosts = some provider \/
    (get? host knownHosts = none /\ (provider = .gitlab \/ provider = .gitea))

theorem selfHosted_some {name : List Char} (isSome : selfHosted name = some provider) :
  provider = .gitlab \/ provider = .gitea := by
  unfold selfHosted at isSome
  split at isSome
  · cases isSome
    exact .inl rfl
  · split at isSome
    · cases isSome
      exact .inr rfl
    · cases isSome

theorem parseHostEntry_ok {given : Given} (isOk : parseHostEntry casing given = .ok (host, provider)) :
  Entry host provider := by
  unfold parseHostEntry at isOk
  split at isOk
  · rcases except_bind_ok isOk with ⟨⟨_, _⟩, isPrefix, isOk⟩
    dsimp only at isOk
    split at isOk
    · rename_i hostname
      split at isOk
      · cases isOk
      · rename_i known isKnown
        cases isOk
        exact ⟨hostname, .inl isKnown⟩
      · rename_i own isNone
        cases isOk
        refine ⟨hostname, .inr ⟨isNone, ?_⟩⟩
        unfold prefixOf at isPrefix
        split at isPrefix
        · split at isPrefix
          · rename_i isSelfHosted
            cases isPrefix
            exact selfHosted_some isSelfHosted
          · cases isPrefix
        · cases isPrefix
      · rename_i own known isKnown
        split at isOk
        · rename_i same
          cases isOk
          exact ⟨hostname, .inl (same ▸ isKnown)⟩
        · cases isOk
    · cases isOk
  · cases isOk

theorem lowercase_of_all (all : text.all (fun char => 97 <= char.toNat /\ char.toNat <= 122)) :
  ∀ char ∈ text, 97 <= char.toNat /\ char.toNat <= 122 :=
  fun char mem => of_decide_eq_true (all_eq_true.mp all char mem)

theorem parseHostEntry_canonical (casing : Casing) (entry : Entry host provider) :
  parseHostEntry casing (.text (canonicalEntry host provider)) = .ok (host, provider) := by
  have colonless := colon_not_mem entry.hostname
  rcases entry.known with isKnown | ⟨isUnknown, isSelfHosted⟩
  · have canonical : canonicalEntry host provider = host := if_pos isKnown
    have read : casing.lower (strip host) = host := by
      refine lower_strip casing (fun char mem => ?_)
      have range := hostname_range entry.hostname mem
      omega
    have bare : prefixOf host = .ok (none, host) := if_neg colonless
    rw [canonical]
    unfold parseHostEntry
    dsimp only
    rw [read, bare]
    change (if isHostname host then _ else _) = _
    rw [if_pos entry.hostname, isKnown]
  · have canonical : canonicalEntry host provider = provider.name ++ ':' :: host := by
      refine if_neg ?_
      rw [isUnknown]
      exact Option.some_ne_none _ ∘ Eq.symm
    have nameRange : (∀ char ∈ provider.name, 97 <= char.toNat /\ char.toNat <= 122) /\
        selfHosted provider.name = some provider := by
      rcases isSelfHosted with same | same
      · subst same
        exact ⟨lowercase_of_all rfl, if_pos rfl⟩
      · subst same
        exact ⟨lowercase_of_all rfl, (if_neg (by decide)).trans (if_pos rfl)⟩
    have nameColonless : ∀ char ∈ provider.name, decide (char ≠ ':') := by
      intro char mem
      refine decide_eq_true (fun isColon => ?_)
      have range := nameRange.1 char mem
      rw [isColon] at range
      revert range
      decide
    have read : casing.lower (strip (provider.name ++ ':' :: host)) = provider.name ++ ':' :: host := by
      refine lower_strip casing (forall_mem_append.mpr ⟨fun char mem => ?_, forall_mem_cons.mpr ⟨?_, ?_⟩⟩)
      · exact .inl (nameRange.1 char mem)
      · decide
      · intro _ mem
        have range := hostname_range entry.hostname mem
        omega
    have named : prefixOf (provider.name ++ ':' :: host) = .ok (some provider, host) := by
      unfold prefixOf
      rw [if_pos (mem_append_right _ mem_cons_self), takeWhile_append_of_pos nameColonless,
        dropWhile_append_of_pos nameColonless, takeWhile_cons_of_neg (by decide),
        dropWhile_cons_of_neg (by decide), append_nil, nameRange.2]
      rfl
    rw [canonical]
    unfold parseHostEntry
    dsimp only
    rw [read, named]
    change (if isHostname host then _ else _) = _
    rw [if_pos entry.hostname, isUnknown]

theorem hostProviders_entry {entries : List Given}
  (found : get? host (hostProviders casing entries) = some provider) : Entry host provider := by
  unfold hostProviders at found
  rw [get?_ofEntries] at found
  rcases Option.map_eq_some_iff.mp found with ⟨_, isLast, isProvider⟩
  have mem := mem_filter.mp (mem_of_getLast? isLast)
  rcases mem_filterMap.mp mem.1 with ⟨given, _, isParsed⟩
  have isHost := of_decide_eq_true mem.2
  subst isHost
  subst isProvider
  cases parsed : parseHostEntry casing given with
  | error message =>
    rw [parsed] at isParsed
    cases isParsed
  | ok read =>
    rw [parsed] at isParsed
    cases isParsed
    exact parseHostEntry_ok parsed

theorem github_known : get? "github.com".toList knownHosts = some .github := by
  unfold knownHosts
  exact if_pos rfl

theorem known_github (known : get? host knownHosts = some .github) : host = "github.com".toList := by
  unfold knownHosts at known
  rw [get?] at known
  by_cases isGithub : "github.com".toList = host
  · exact isGithub.symm
  · rw [if_neg isGithub, get?] at known
    by_cases isGitlab : "gitlab.com".toList = host
    · rw [if_pos isGitlab] at known
      cases known
    · rw [if_neg isGitlab, get?] at known
      by_cases isCodeberg : "codeberg.org".toList = host
      · rw [if_pos isCodeberg] at known
        cases known
      · rw [if_neg isCodeberg, get?] at known
        cases known

theorem archive_host (accepted : Accepted casing hosts source) : source.archive.1 ∈ downloadHosts casing hosts := by
  have entry := hostProviders_entry accepted.provider
  have distinct := nodup_ofEntries (hosts.filterMap fun given => (parseHostEntry casing given).toOption)
  have mem := (mem_iff_get? distinct).mpr accepted.provider
  refine mem_flatMap.mpr ⟨(source.host, source.provider), mem, ?_⟩
  unfold archiveHosts
  by_cases isGithub : source.host = "github.com".toList
  · have provider : source.provider = .github := by
      have known := entry.known
      rw [isGithub, github_known] at known
      rcases known with same | ⟨none_, _⟩
      · exact (Option.some.inj same).symm
      · cases none_
    unfold Source.archive
    rw [if_pos isGithub, provider]
    exact .tail _ mem_cons_self
  · rw [if_neg isGithub]
    have other : source.provider ≠ .github := by
      intro same
      have known := entry.known
      rw [same] at known
      rcases known with known | ⟨_, wrong | wrong⟩
      · exact isGithub (known_github known)
      · cases wrong
      · cases wrong
    unfold Source.archive
    cases provider : source.provider with
    | github => exact absurd provider other
    | gitlab | gitea => exact mem_singleton.mpr rfl

theorem ofName_name (provider : Provider) : Provider.ofName provider.name = some provider := by
  cases provider with
  | github => exact if_pos rfl
  | gitlab => exact (if_neg (by decide)).trans (if_pos rfl)
  | gitea => exact (if_neg (by decide)).trans ((if_neg (by decide)).trans (if_pos rfl))

theorem segments_again (checked : Checked casing provider segments) :
  (intercalate ['/'] segments.dropLast).splitOn '/' ++ [segments.getLast?.getD []] = segments := by
  rw [splitOn_intercalate '/' (fun owner mem => (isOwner_part (checked.allOwners owner mem)).slash) checked.owners]
  exact checked.split

theorem fromDict_toDict (accepted : Accepted casing hosts source) :
  fromDict casing (some source.toDict) = .ok source := by
  rcases accepted.path with ⟨_, isChecked, checked, isOwner, isRepo⟩
  have path : checkPath casing source.provider (source.owner.splitOn '/' ++ [source.repo]) = .ok () := by
    rw [isOwner, isRepo, segments_again checked]
    exact isChecked
  have host : field source.toDict "host" = .text source.host := rfl
  have provider : field source.toDict "provider" = .text source.provider.name := rfl
  have owner : field source.toDict "owner" = .text source.owner := rfl
  have repo : field source.toDict "repo" = .text source.repo := rfl
  have ref : field source.toDict "ref" = .text source.ref := rfl
  unfold fromDict
  dsimp only
  rw [host, provider, owner, repo, ref]
  dsimp only
  rw [ofName_name, accepted.hostname]
  dsimp only
  rw [path, accepted.ref.2]
  rfl

/--
Every accepted address leads to an archive at one of the hosts that downloads may connect to, under a path
whose segments are not empty, `.` or `..` and whose characters neither end nor split it.
-/
theorem sources_contained (casing : Casing) :
  (∀ (url ref : Given) (hosts : List Given) (source : Source), parse casing url ref hosts = .ok source ->
    source.archive.1 ∈ downloadHosts casing hosts /\ SafePath source.archive.2 /\
      fromDict casing (some source.toDict) = .ok source) /\
  (∀ (entry : Given) (host : List Char) (provider : Provider), parseHostEntry casing entry = .ok (host, provider) ->
    parseHostEntry casing (.text (canonicalEntry host provider)) = .ok (host, provider)) := by
  refine ⟨fun url ref hosts source isOk => ?_, fun entry host provider isOk => ?_⟩
  · have accepted := parse_ok isOk
    exact ⟨archive_host accepted, archive_safe accepted, fromDict_toDict accepted⟩
  · exact parseHostEntry_canonical casing (parseHostEntry_ok isOk)

def asciiCasing : Casing := ⟨fun text => text.map Char.toLower, fun _ _ => rfl⟩

def toolSource : Source := ⟨"github.com".toList, .github, "owner".toList, "tool".toList, "release/1.0".toList⟩

theorem sources_contained_tool :
  (toolSource.archive.1 ∈ downloadHosts asciiCasing [.text "github.com".toList] /\ SafePath toolSource.archive.2 /\
    fromDict asciiCasing (some toolSource.toDict) = .ok toolSource) /\
  parseHostEntry asciiCasing (.text (canonicalEntry "git.example.org".toList .gitea)) =
    .ok ("git.example.org".toList, .gitea) :=
  ⟨(sources_contained asciiCasing).1 (.text "https://GitHub.com/owner/tool.git".toList) (.text " release/1.0 ".toList)
      [.text "github.com".toList] toolSource rfl,
    (sources_contained asciiCasing).2 (.text " Gitea:git.example.org".toList) _ _ rfl⟩

end BananaChat.Agents.GitFetch

import Mathlib
import BananaChat.Foundation.Text

namespace BananaChat.Agents

open Foundation List Bool

/-!
# The context of an agent's model call

`fitContext` shortens old tool output and then drops the oldest steps until the conversation is
within a limit.
-/

inductive Role
  | system
  | user
  | assistant
  | tool
deriving DecidableEq

/-- A tool call, as the text that `json.dumps` gives it. -/
structure Call where
  text : Text

structure Item where
  role : Role
  content : Text
  calls : List Call

/-- `size`: the brackets of a list of calls and the commas take two characters a call. -/
def Item.size (item : Item) : ℤ :=
  item.content.length + if item.calls = [] then 0 else (item.calls.map fun call => (call.text.length : ℤ) + 2).sum

def sizes (items : List Item) : ℤ := (items.map Item.size).sum

def Item.isTool (item : Item) : Bool := item.role = .tool

def Item.isLong (item : Item) : Bool := item.isTool && (300 < item.content.length)

def removed : Text := Text.ofString "[output removed to save space]"

def Item.shortened (item : Item) : Item := if item.isLong then { item with content := removed } else item

def earlier : Item := ⟨.user, Text.ofString "[Earlier steps were removed to fit the context window.]", []⟩

structure Shortening where
  items : List Item
  total : ℤ
  fits : Bool

def shortenOld (limit : ℤ) : ℤ -> List Item -> Shortening
  | total, [] => ⟨[], total, false⟩
  | total, item :: later =>
    if item.isLong then
      let total := total - (item.content.length - 40)
      if total <= limit then ⟨item.shortened :: later, total, true⟩
      else
        let others := shortenOld limit total later
        { others with items := item.shortened :: others.items }
    else
      let others := shortenOld limit total later
      { others with items := item :: others.items }

def dropOldest (limit : ℤ) (tail : ℕ) : ℤ -> List Item -> List Item × Bool
  | _, [] => ([], false)
  | total, item :: later =>
    if tail < (item :: later).length /\ limit < total then
      ((dropOldest limit tail (total - item.size) later).1, true)
    else
      (item :: later, false)

def dropResults : List Item -> List Item
  | [] => []
  | [item] => [item]
  | item :: next :: later => if item.isTool then dropResults (next :: later) else item :: next :: later

/-- `fit_context`, for a positive `keep_tail`. -/
def fitContext (limit : ℤ) (tail : ℕ) (messages : List Item) : List Item :=
  let total := sizes messages
  if total <= limit then messages
  else
    let old := (messages.drop 2).take (messages.length - tail - 2)
    let outcome := shortenOld limit total old
    let result := messages.take 2 ++ (outcome.items ++ messages.drop (2 + old.length))
    if outcome.fits then result
    else
      let left := dropOldest limit tail outcome.total (result.drop 2)
      let head := if left.2 then result.take 2 ++ [earlier] else result.take 2
      head ++ dropResults left.1

/-- The default of `keep_tail`, which every caller uses. -/
def keepTail : ℕ := 8

/-- Every tool result stands behind a message with a call for it; `waiting` calls have none yet. -/
def answered : ℕ -> List Item -> Bool
  | _, [] => true
  | waiting, item :: later =>
    match item.role with
    | .tool => (0 < waiting) && answered (waiting - 1) later
    | .assistant => answered item.calls.length later
    | .user => answered 0 later
    | .system => answered 0 later

def Survives (before after : Item) : Prop := after = before \/ after = before.shortened

def transcript (system task : Text) (rest : List Item) : List Item :=
  ⟨.system, system, []⟩ :: ⟨.user, task, []⟩ :: rest

/-- What a context for a model call has to be.  What is kept is an end of the transcript: it
has its order, and a message with calls is kept with the results that followed it. -/
structure Sound (limit : ℤ) (system task : Text) (rest out : List Item) : Prop where
  keeps : ∃ notice kept start,
    out = transcript system task (notice ++ kept) /\ (notice = [] \/ notice = [earlier]) /\
      List.Forall₂ Survives (rest.drop start) kept
  answers : answered 0 out
  fits : sizes (transcript system task (earlier :: rest.drop (rest.length - keepTail))) <= limit -> sizes out <= limit

def saved (items : List Item) : ℤ := ((items.filter Item.isLong).map fun item => (item.content.length : ℤ) - 40).sum

def spared (rest : List Item) : List Item :=
  (rest.take (rest.length - keepTail)).map Item.shortened ++ rest.drop (rest.length - keepTail)

def estimate (system task : Text) (rest : List Item) : ℤ :=
  sizes (transcript system task rest) - saved (rest.take (rest.length - keepTail))

structure IsCut (limit : ℤ) (tail : ℕ) (total : ℤ) (items : List Item) (cut : ℕ) : Prop where
  stops : items.length - cut <= tail \/ total - sizes (items.take cut) <= limit
  goesOn : ∀ place, place < cut -> tail < items.length - place /\ limit < total - sizes (items.take place)

section

variable (limit : ℤ) (system task : Text) (rest : List Item)

/-- From the cut on: not only tool results, those behind the first other message with their
calls, and, where the tail alone did not end the dropping, room for the notice. -/
def RoomFrom (cut : ℕ) : Prop :=
  ((rest.drop cut).all Item.isTool -> rest.drop cut = []) /\ answered 0 ((rest.drop cut).dropWhile Item.isTool) /\
    (sizes (transcript system task (earlier :: rest.drop (rest.length - keepTail))) <= limit ->
      keepTail < rest.length - cut ->
      sizes (transcript system task (earlier :: ((spared rest).drop cut).dropWhile Item.isTool)) <= limit)

def Trimmable : Prop :=
  (estimate system task rest <= limit -> answered 0 rest) /\ (limit < estimate system task rest -> ∀ cut,
      IsCut limit keepTail (estimate system task rest) (spared rest) cut -> RoomFrom limit system task rest cut)

end

variable (item : Item) (items rest : List Item) {after before : List Item} {limit : ℤ} {system task : Text}

theorem size_nonneg : 0 <= item.size := by
  unfold Item.size
  split
  · omega
  · have calls : 0 <= (item.calls.map fun call => (call.text.length : ℤ) + 2).sum := by
      apply sum_nonneg
      intro _ mem
      rcases mem_map.mp mem with ⟨_, _, rfl⟩
      omega
    omega

theorem sizes_cons (later : List Item) : sizes (item :: later) = item.size + sizes later := by
  unfold sizes
  rw [map_cons, sum_cons]

theorem sizes_append (first second : List Item) : sizes (first ++ second) = sizes first + sizes second := by
  unfold sizes
  rw [map_append, sum_append]

theorem sizes_nonneg : 0 <= sizes items := by
  apply sum_nonneg
  intro _ mem
  rcases mem_map.mp mem with ⟨item, _, rfl⟩
  exact size_nonneg item

theorem sizes_dropWhile_le : sizes (items.dropWhile Item.isTool) <= sizes items := by
  have whole := sizes_append (items.takeWhile Item.isTool) (items.dropWhile Item.isTool)
  have front := sizes_nonneg (items.takeWhile Item.isTool)
  rw [takeWhile_append_dropWhile] at whole
  omega

theorem sizes_transcript (system task : Text) (rest : List Item) :
  sizes (transcript system task rest) = sizes (transcript system task []) + sizes rest := by
  unfold transcript
  rw [sizes_cons, sizes_cons, sizes_cons, sizes_cons]
  change _ = _ + (_ + 0) + _
  omega

theorem saved_cons (later : List Item) :
  saved (item :: later) = (if item.isLong then (item.content.length : ℤ) - 40 else 0) + saved later := by
  unfold saved
  by_cases long : item.isLong
  · rw [filter_cons_of_pos long, if_pos long, map_cons, sum_cons]
  · rw [filter_cons_of_neg long, if_neg long, zero_add]

theorem saved_append (first second : List Item) : saved (first ++ second) = saved first + saved second := by
  unfold saved
  rw [filter_append, map_append, sum_append]

theorem isLong_length {item : Item} (long : item.isLong) : 300 < item.content.length :=
  of_decide_eq_true (and_eq_true_iff.mp long).2

theorem saved_nonneg : 0 <= saved items := by
  apply sum_nonneg
  intro _ mem
  rcases mem_map.mp mem with ⟨_, isOld, rfl⟩
  have long := isLong_length (mem_filter.mp isOld).2
  omega

theorem sizes_shortened_le : sizes (items.map Item.shortened) <= sizes items - saved items := by
  induction items with
  | nil => exact le_refl _
  | cons item later ih =>
    rw [map_cons, sizes_cons, sizes_cons, saved_cons]
    by_cases long : item.isLong
    · have shorter : item.shortened.size = item.size - item.content.length + 30 := by
        unfold Item.shortened Item.size
        rw [if_pos long]
        have length : (removed.length : ℤ) = 30 := by decide
        dsimp only
        omega
      rw [if_pos long, shorter]
      omega
    · have same : item.shortened = item := by
        unfold Item.shortened
        rw [if_neg long]
      rw [if_neg long, same]
      omega

theorem Survives.role {before after : Item} (kept : Survives before after) : after.role = before.role := by
  rcases kept with rfl | rfl
  · rfl
  · unfold Item.shortened
    split
    · rfl
    · rfl

theorem Survives.calls {before after : Item} (kept : Survives before after) : after.calls = before.calls := by
  rcases kept with rfl | rfl
  · rfl
  · unfold Item.shortened
    split
    · rfl
    · rfl

theorem Survives.isTool {before after : Item} (kept : Survives before after) : after.isTool = before.isTool := by
  unfold Item.isTool
  rw [kept.role]

theorem kept_refl : List.Forall₂ Survives items items := forall₂_same.mpr (fun _ _ => .inl rfl)

theorem kept_shortened : List.Forall₂ Survives items (items.map Item.shortened) := by
  rw [forall₂_map_right_iff]
  exact forall₂_same.mpr (fun _ _ => .inr rfl)

theorem kept_spared : List.Forall₂ Survives rest (spared rest) := by
  have joined := rel_append (kept_shortened (rest.take (rest.length - keepTail)))
    (kept_refl (rest.drop (rest.length - keepTail)))
  dsimp only at joined
  rw [take_append_drop] at joined
  exact joined

theorem answered_kept (kept : List.Forall₂ Survives before after) (waiting : ℕ) :
  answered waiting after = answered waiting before := by
  induction kept generalizing waiting with
  | nil => rfl
  | cons first later ih =>
    unfold answered
    rw [first.role, first.calls]
    cases (_ : Item).role with
    | system | user => exact ih 0
    | assistant => exact ih _
    | tool =>
      rw [ih]

theorem kept_dropWhile (kept : List.Forall₂ Survives before after) :
  List.Forall₂ Survives (before.dropWhile Item.isTool) (after.dropWhile Item.isTool) := by
  induction kept with
  | nil => exact List.Forall₂.nil
  | cons first later ih =>
    rw [dropWhile_cons, dropWhile_cons, first.isTool]
    split
    · exact ih
    · exact List.Forall₂.cons first later

theorem shortenOld_spec (limit total : ℤ) (old : List Item) : ∃ done later, old = done ++ later /\
    (shortenOld limit total old).items = done.map Item.shortened ++ later /\
    (shortenOld limit total old).total = total - saved done /\
    ((shortenOld limit total old).fits -> (shortenOld limit total old).total <= limit) /\
    ((shortenOld limit total old).fits = false ->
      later = [] /\ (limit < total -> limit < (shortenOld limit total old).total)) := by
  induction old generalizing total with
  | nil =>
    refine ⟨[], [], rfl, rfl, (sub_zero total).symm, ?_, fun _ => ⟨rfl, id⟩⟩
    intro fits
    cases fits
  | cons item old ih =>
    unfold shortenOld
    by_cases long : item.isLong
    · rw [if_pos long]
      by_cases fits : total - (item.content.length - 40) <= limit
      · rw [if_pos fits]
        refine ⟨[item], old, rfl, rfl, ?_, fun _ => fits, ?_⟩
        · rw [saved_cons, if_pos long]
          change _ = total - (_ + 0)
          rw [add_zero]
        · intro notFits
          cases notFits
      · rw [if_neg fits]
        rcases ih (total - (item.content.length - 40)) with ⟨done, later, split, items, left, small, large⟩
        refine ⟨item :: done, later, by rw [split, cons_append], ?_, ?_, small, ?_⟩
        · dsimp only
          rw [items, map_cons, cons_append]
        · rw [left, saved_cons, if_pos long]
          omega
        · intro notFits
          exact ⟨(large notFits).1, fun _ => (large notFits).2 (Int.not_le.mp fits)⟩
    · rw [if_neg long]
      have same : item.shortened = item := by
        unfold Item.shortened
        rw [if_neg long]
      rcases ih total with ⟨done, later, split, items, left, small, large⟩
      refine ⟨item :: done, later, by rw [split, cons_append], ?_, ?_, small, large⟩
      · dsimp only
        rw [items, map_cons, cons_append, same]
      · rw [left, saved_cons, if_neg long, zero_add]

theorem dropOldest_spec (limit : ℤ) (tail : ℕ) (total : ℤ) (items : List Item) :
  ∃ cut, IsCut limit tail total items cut /\
    dropOldest limit tail total items = (items.drop cut, decide (cut ≠ 0)) := by
  induction items generalizing total with
  | nil => exact ⟨0, ⟨.inl (Nat.zero_le tail), fun place before => absurd before (Nat.not_lt_zero place)⟩, rfl⟩
  | cons item later ih =>
    unfold dropOldest
    by_cases goesOn : tail < (item :: later).length /\ limit < total
    · rw [if_pos goesOn]
      rcases ih (total - item.size) with ⟨cut, isCut, outcome⟩
      refine ⟨cut + 1, ⟨?_, ?_⟩, by rw [outcome, drop_succ_cons]; rfl⟩
      · rw [take_succ_cons, sizes_cons, <- sub_sub, length_cons, Nat.add_sub_add_right]
        exact isCut.stops
      · intro place before
        cases place with
        | zero =>
          change _ /\ limit < total - 0
          rw [sub_zero]
          exact goesOn
        | succ place =>
          rw [take_succ_cons, sizes_cons, <- sub_sub, length_cons, Nat.add_sub_add_right]
          exact isCut.goesOn place (Nat.lt_of_succ_lt_succ before)
    · rw [if_neg goesOn]
      refine ⟨0, ⟨?_, fun place before => absurd before (Nat.not_lt_zero place)⟩, rfl⟩
      change _ \/ total - 0 <= limit
      rw [sub_zero]
      rcases not_and_or.mp goesOn with short | small
      · exact .inl (Nat.le_of_not_lt short)
      · exact .inr (Int.not_lt.mp small)

theorem IsCut.unique {tail : ℕ} {total : ℤ} {items : List Item} {first second : ℕ}
  (isCut : IsCut limit tail total items first) (isOther : IsCut limit tail total items second) : first = second := by
  have notBefore {cut other : ℕ} (isCut : IsCut limit tail total items cut) (isOther : IsCut limit tail total items other) :
      ¬ cut < other := by
    intro before
    rcases isOther.goesOn cut before with ⟨long, large⟩
    rcases isCut.stops with short | small
    · exact absurd short (Nat.not_le_of_lt long)
    · exact absurd small (Int.not_le.mpr large)
  exact Nat.le_antisymm (Nat.le_of_not_lt (notBefore isOther isCut)) (Nat.le_of_not_lt (notBefore isCut isOther))

theorem dropResults_drop : ∃ place, dropResults items = items.drop place := by
  fun_induction dropResults items with
  | case1 => exact ⟨0, rfl⟩
  | case2 item => exact ⟨0, rfl⟩
  | case3 item next later isTool ih =>
    rcases ih with ⟨place, same⟩
    exact ⟨place + 1, same⟩
  | case4 item next later notTool => exact ⟨0, rfl⟩

theorem dropResults_other {items : List Item} (other : items.all Item.isTool -> items = []) :
  dropResults items = items.dropWhile Item.isTool := by
  fun_induction dropResults items with
  | case1 => rfl
  | case2 item =>
    by_cases isTool : item.isTool
    · rw [all_cons, isTool] at other
      cases other rfl
    · rw [dropWhile_cons_of_neg isTool]
  | case3 item next later isTool ih =>
    rw [dropWhile_cons_of_pos isTool]
    apply ih
    intro tools
    rw [all_cons, isTool, tools] at other
    cases other rfl
  | case4 item next later notTool => rw [dropWhile_cons_of_neg notTool]

theorem answered_dropResults_tools {items : List Item} (some : items ≠ []) (tools : items.all Item.isTool) :
  answered 0 (dropResults items) = false := by
  fun_induction dropResults items with
  | case1 => exact absurd rfl some
  | case2 item =>
    have isTool : item.role = .tool := of_decide_eq_true (and_eq_true_iff.mp tools).1
    unfold answered
    rw [isTool]
    rfl
  | case3 item next later isTool ih =>
    exact ih (cons_ne_nil _ _) (and_eq_true_iff.mp tools).2
  | case4 item next later notTool =>
    exact absurd (and_eq_true_iff.mp tools).1 notTool

theorem length_spared : (spared rest).length = rest.length := (kept_spared rest).length_eq.symm

theorem drop_transcript (system task : Text) (rest : List Item) : (transcript system task rest).drop 2 = rest := rfl

theorem answered_transcript (system task : Text) (rest : List Item) :
    answered 0 (transcript system task rest) = answered 0 rest := rfl

theorem fitContext_shortened {rest : List Item} (small : estimate system task rest <= limit) :
  ∃ kept, fitContext limit keepTail (transcript system task rest) = transcript system task kept /\
    List.Forall₂ Survives rest kept /\ sizes (transcript system task kept) <= limit := by
  unfold fitContext
  by_cases fits : sizes (transcript system task rest) <= limit
  · rw [if_pos fits]
    exact ⟨rest, rfl, kept_refl rest, fits⟩
  · rw [if_neg fits]
    have oldLength : (transcript system task rest).length - keepTail - 2 = rest.length - keepTail := by
      change rest.length + 2 - keepTail - 2 = _
      omega
    rw [oldLength, drop_transcript]
    rcases shortenOld_spec limit (sizes (transcript system task rest)) (rest.take (rest.length - keepTail)) with
      ⟨done, later, split, items, left, enough, notEnough⟩
    have returned : (shortenOld limit (sizes (transcript system task rest)) (rest.take (rest.length - keepTail))).fits := by
      rw [<- not_eq_false]
      intro goesOn
      rcases notEnough goesOn with ⟨nothing, large⟩
      have still := large (Int.not_le.mp fits)
      rw [nothing, append_nil] at split
      rw [left, <- split] at still
      exact absurd small (Int.not_le.mpr still)
    have whole : rest = done ++ (later ++ rest.drop (rest.length - keepTail)) := by
      rw [<- append_assoc, <- split, take_append_drop]
    have behind : (transcript system task rest).drop (2 + (rest.take (rest.length - keepTail)).length) =
        rest.drop (rest.length - keepTail) := by
      rw [<- drop_drop, drop_transcript, length_take, Nat.min_eq_left (Nat.sub_le _ _)]
    have total := enough returned
    rw [if_pos returned, items, behind, append_assoc]
    refine ⟨done.map Item.shortened ++ (later ++ rest.drop (rest.length - keepTail)), rfl, ?_, ?_⟩
    · have kept := rel_append (kept_shortened done) (kept_refl (later ++ rest.drop (rest.length - keepTail)))
      dsimp only at kept
      rw [<- whole] at kept
      exact kept
    · have shorter := sizes_shortened_le done
      have sum := sizes_append done (later ++ rest.drop (rest.length - keepTail))
      rw [<- whole] at sum
      rw [left, sizes_transcript, sum] at total
      rw [sizes_transcript, sizes_append]
      omega

theorem fitContext_dropped {rest : List Item} (large : limit < estimate system task rest) :
  ∃ cut, IsCut limit keepTail (estimate system task rest) (spared rest) cut /\
    fitContext limit keepTail (transcript system task rest) =
      transcript system task ((if cut = 0 then [] else [earlier]) ++ dropResults ((spared rest).drop cut)) := by
  have notFits : ¬ sizes (transcript system task rest) <= limit := by
    have savings := saved_nonneg (rest.take (rest.length - keepTail))
    unfold estimate at large
    omega
  unfold fitContext
  rw [if_neg notFits]
  have oldLength : (transcript system task rest).length - keepTail - 2 = rest.length - keepTail := by
    change rest.length + 2 - keepTail - 2 = _
    omega
  rw [oldLength, drop_transcript]
  rcases shortenOld_spec limit (sizes (transcript system task rest)) (rest.take (rest.length - keepTail)) with
    ⟨done, later, split, items, left, enough, notEnough⟩
  have goesOn : (shortenOld limit (sizes (transcript system task rest)) (rest.take (rest.length - keepTail))).fits = false := by
    rw [<- not_eq_true]
    intro returned
    have total := enough returned
    have more := saved_nonneg later
    unfold estimate at large
    rw [split, saved_append] at large
    omega
  rcases notEnough goesOn with ⟨nothing, _⟩
  rw [nothing, append_nil] at split items
  have behind : (transcript system task rest).drop (2 + (rest.take (rest.length - keepTail)).length) =
      rest.drop (rest.length - keepTail) := by
    rw [<- drop_drop, drop_transcript, length_take, Nat.min_eq_left (Nat.sub_le _ _)]
  rw [if_neg (by rw [goesOn]; exact false_ne_true), left, items, behind, <- split]
  change ∃ cut, _ /\ (if (dropOldest limit keepTail (estimate system task rest) (spared rest)).2 then _ else _) ++ _ = _
  rcases dropOldest_spec limit keepTail (estimate system task rest) (spared rest) with ⟨cut, isCut, outcome⟩
  refine ⟨cut, isCut, ?_⟩
  have same : dropOldest limit keepTail (estimate system task rest)
      (((transcript system task rest).take 2 ++ spared rest).drop 2) = ((spared rest).drop cut, decide (cut ≠ 0)) := outcome
  change (if _ then _ else _) ++ dropResults (dropOldest limit keepTail (estimate system task rest)
      (((transcript system task rest).take 2 ++ spared rest).drop 2)).1 = _
  rw [outcome, same]
  by_cases none : cut = 0
  · rw [if_pos none, if_neg (by rw [none]; exact false_ne_true)]
    rfl
  · rw [if_neg none, if_pos (decide_eq_true none)]
    rfl

theorem fitContext_keeps (limit : ℤ) (system task : Text) (rest : List Item) : ∃ notice kept start,
    fitContext limit keepTail (transcript system task rest) = transcript system task (notice ++ kept) /\
      (notice = [] \/ notice = [earlier]) /\ List.Forall₂ Survives (rest.drop start) kept := by
  by_cases small : estimate system task rest <= limit
  · rcases fitContext_shortened small with ⟨kept, outcome, same, _⟩
    exact ⟨[], kept, 0, outcome, .inl rfl, same⟩
  · rcases fitContext_dropped (Int.not_le.mp small) with ⟨cut, _, outcome⟩
    rcases dropResults_drop ((spared rest).drop cut) with ⟨place, same⟩
    refine ⟨_, _, cut + place, outcome, ?_, ?_⟩
    · by_cases none : cut = 0
      · exact .inl (if_pos none)
      · exact .inr (if_neg none)
    · rw [same, drop_drop]
      exact forall₂_drop _ (kept_spared rest)

theorem all_kept (kept : List.Forall₂ Survives before after) : after.all Item.isTool = before.all Item.isTool := by
  induction kept with
  | nil => rfl
  | cons first later ih => rw [all_cons, all_cons, first.isTool, ih]

theorem kept_nil_iff (kept : List.Forall₂ Survives before after) : after = [] ↔ before = [] := by
  rw [<- length_eq_zero_iff, <- kept.length_eq, length_eq_zero_iff]

theorem answered_notice {notice : List Item} (isNotice : notice = [] \/ notice = [earlier]) (system task : Text)
  (kept : List Item) : answered 0 (transcript system task (notice ++ kept)) = answered 0 kept := by
  rcases isNotice with rfl | rfl
  · rfl
  · rfl

theorem answered_dropResults_iff (cut : ℕ) : answered 0 (dropResults ((spared rest).drop cut)) ↔
    ((rest.drop cut).all Item.isTool -> rest.drop cut = []) /\
      answered 0 ((rest.drop cut).dropWhile Item.isTool) := by
  have kept := forall₂_drop cut (kept_spared rest)
  rw [<- all_kept kept, <- kept_nil_iff kept, <- answered_kept (kept_dropWhile kept)]
  by_cases other : ((spared rest).drop cut).all Item.isTool -> (spared rest).drop cut = []
  · rw [dropResults_other other, and_iff_right other]
  · rcases Classical.not_imp.mp other with ⟨tools, some⟩
    rw [answered_dropResults_tools some tools]
    constructor
    · intro clash
      cases clash
    · intro both
      exact absurd both.1 other

theorem tail_fits {rest : List Item} {cut : ℕ} (large : limit < estimate system task rest)
  (isCut : IsCut limit keepTail (estimate system task rest) (spared rest) cut) (short : rest.length - cut <= keepTail)
  (permits : sizes (transcript system task (earlier :: rest.drop (rest.length - keepTail))) <= limit) :
  sizes (transcript system task ((if cut = 0 then [] else [earlier]) ++ ((spared rest).drop cut).dropWhile Item.isTool)) <=
    limit := by
  have notice := size_nonneg earlier
  rw [sizes_transcript, sizes_cons] at permits
  by_cases none : cut = 0
  · have savings := saved_nonneg (rest.take (rest.length - keepTail))
    have all : rest.length - keepTail = 0 := by omega
    unfold estimate at large
    rw [sizes_transcript] at large
    rw [all, drop_zero] at permits
    omega
  · have before := (isCut.goesOn (cut - 1) (by omega)).1
    rw [length_spared] at before
    have exactly : cut = rest.length - keepTail := by omega
    have oldLength : ((rest.take (rest.length - keepTail)).map Item.shortened).length = cut := by
      rw [length_map, length_take]
      omega
    have tail : (spared rest).drop cut = rest.drop (rest.length - keepTail) := by
      unfold spared
      rw [drop_append_of_le_length (Nat.le_of_eq oldLength.symm), drop_of_length_le (Nat.le_of_eq oldLength)]
      rfl
    have smaller := sizes_dropWhile_le (rest.drop (rest.length - keepTail))
    rw [tail, if_neg none, singleton_append, sizes_transcript, sizes_cons]
    omega

/-- The context is sound exactly where the transcript can be trimmed. -/
theorem fitContext_sound_iff (limit : ℤ) (system task : Text) (rest : List Item) :
  Sound limit system task rest (fitContext limit keepTail (transcript system task rest)) ↔
    Trimmable limit system task rest := by
  by_cases small : estimate system task rest <= limit
  · rcases fitContext_shortened small with ⟨kept, outcome, same, fits⟩
    have answers : answered 0 (fitContext limit keepTail (transcript system task rest)) = answered 0 rest := by
      rw [outcome, answered_transcript, answered_kept same]
    constructor
    · intro sound
      refine ⟨fun _ => ?_, fun large => absurd small (Int.not_le.mpr large)⟩
      rw [<- answers]
      exact sound.answers
    · intro trimmable
      refine ⟨fitContext_keeps limit system task rest, ?_, fun _ => ?_⟩
      · rw [answers]
        exact trimmable.1 small
      · rw [outcome]
        exact fits
  · have large := Int.not_le.mp small
    rcases fitContext_dropped large with ⟨cut, isCut, outcome⟩
    have isNotice : (if cut = 0 then [] else [earlier]) = [] \/ (if cut = 0 then [] else [earlier]) = [earlier] := by
      by_cases none : cut = 0
      · exact .inl (if_pos none)
      · exact .inr (if_neg none)
    have answers : answered 0 (fitContext limit keepTail (transcript system task rest)) ↔
        ((rest.drop cut).all Item.isTool -> rest.drop cut = []) /\
          answered 0 ((rest.drop cut).dropWhile Item.isTool) := by
      rw [outcome, answered_notice isNotice]
      exact answered_dropResults_iff rest cut
    -- With the calls answered, the last loop stops at the first other message.
    have left (other : (rest.drop cut).all Item.isTool -> rest.drop cut = []) :
        dropResults ((spared rest).drop cut) = ((spared rest).drop cut).dropWhile Item.isTool := by
      have kept := forall₂_drop cut (kept_spared rest)
      apply dropResults_other
      rw [all_kept kept, kept_nil_iff kept]
      exact other
    have dropped (long : keepTail < rest.length - cut) : cut ≠ 0 := by
      intro none
      rcases isCut.stops with short | fits
      · rw [length_spared] at short
        exact absurd short (Nat.not_le_of_lt long)
      · rw [none, take_zero] at fits
        change estimate system task rest - 0 <= limit at fits
        rw [sub_zero] at fits
        exact small fits
    constructor
    · intro sound
      refine ⟨fun fits => absurd fits small, fun _ other isOther => ?_⟩
      cases isCut.unique isOther
      rcases answers.mp sound.answers with ⟨another, behind⟩
      refine ⟨another, behind, fun permits long => ?_⟩
      have fits := sound.fits permits
      rw [outcome, left another, if_neg (dropped long)] at fits
      exact fits
    · intro trimmable
      rcases trimmable.2 large cut isCut with ⟨another, behind, room⟩
      refine ⟨fitContext_keeps limit system task rest, answers.mpr ⟨another, behind⟩, fun permits => ?_⟩
      rw [outcome, left another]
      by_cases long : keepTail < rest.length - cut
      · rw [if_neg (dropped long)]
        exact room permits long
      · exact tail_fits large isCut (Nat.le_of_not_lt long) permits

def eightCalls : List Item :=
  ⟨.assistant, [], replicate 8 ⟨Text.ofString "\x7b\"function\": \x7b\"name\": \"write_file\"\x7d\x7d"⟩⟩ ::
    replicate 8 ⟨.tool, Text.ofString "ok", []⟩

/-- The step is dropped without its last result. -/
theorem eightCalls_unsound : ¬ Sound 300 (Text.ofString "rules") (Text.ofString "task") eightCalls
    (fitContext 300 keepTail (transcript (Text.ofString "rules") (Text.ofString "task") eightCalls)) := by
  intro sound
  have answers := sound.answers
  revert answers
  decide +kernel

end BananaChat.Agents

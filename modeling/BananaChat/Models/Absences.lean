import BananaChat.SignIn.Totp

namespace BananaChat.Models

/-!
# Models that the server no longer lists

`sync_ollama` takes a listing as complete.  It counts the listings that a model is absent
from and marks a model that stays away.
-/

open Foundation SignIn List Option

/-- A model of the server's answer; what is not a text, or not a whole number, is none. -/
structure Listed where
  name : Text
  description : Text
  digest : Option Text
  size : Option ℤ
  family : Option Text
  parameterSize : Option Text
  quantization : Option Text

structure Details where
  digest : Option Text
  size : Option ℕ
  family : Text
  parameterSize : Text
  quantization : Text

structure Item where
  name : Text
  description : Text
  details : Details

def clip (value : Option Text) (limit : ℕ) : Text := (value.getD []).take limit

def whole (value : Option ℤ) : Option ℕ := (value.filter fun number => 0 <= number).map Int.toNat

/-- `_listing`, behind the names it has seen. -/
def listing (seen : List Text) : List Listed -> List Item
  | [] => []
  | model :: rest =>
    let name := strip model.name
    if name = [] \/ .scalar (Char.ofNat 0) ∈ name \/ 300 < name.length \/ name ∈ seen then
      listing seen rest
    else
      let digest := clip model.digest 128
      ⟨name, model.description.take 500, ⟨if digest = [] then none else some digest, whole model.size, clip model.family 80,
        clip model.parameterSize 40, clip model.quantization 40⟩⟩ :: listing (name :: seen) rest

structure Edited where
  displayName : Text
  rolledOut : Bool
  enrollment : String
  parameters : Text

structure Row where
  name : Text
  isOllama : Bool
  edited : Edited
  description : Text
  available : Bool
  details : Details
  absentSyncs : ℕ
  absentSince : Option ℤ
  absentCountedAt : Option ℤ
  missingAt : Option ℤ

structure Policy where
  missingSyncs : ℕ
  missingMinutes : ℚ
  isIgnored : Text -> Bool
  displayName : Text -> Text

def absentCountSpacing : ℤ := 20

section

variable (policy : Policy)

def Row.insert (item : Item) : Row where
  name := item.name
  isOllama := true
  edited := ⟨policy.displayName item.name, false, if policy.isIgnored item.name then "ignored" else "new", []⟩
  description := item.description
  available := true
  details := item.details
  absentSyncs := 0
  absentSince := none
  absentCountedAt := none
  missingAt := none

def Row.listed (row : Row) (item : Item) : Row :=
  let filled (new old : Text) : Text := if new = [] then old else new
  { row with
    available := true
    description := if row.description = [] then item.description else row.description
    details := ⟨item.details.digest.or row.details.digest, item.details.size.or row.details.size, filled item.details.family row.details.family,
      filled item.details.parameterSize row.details.parameterSize, filled item.details.quantization row.details.quantization⟩
    absentSyncs := 0
    absentSince := none
    absentCountedAt := none
    missingAt := none }

def Row.absent (now : ℤ) (row : Row) : Row :=
  let isCounted :=
    match row.absentSince, row.absentCountedAt with
    | some _, some last => decide (absentCountSpacing <= now - last)
    | _, _ => true
  let count := if row.absentSince.isNone then 1 else if isCounted then row.absentSyncs + 1 else row.absentSyncs
  let since := row.absentSince.getD now
  { row with
    available := false
    absentSyncs := count
    absentSince := some since
    absentCountedAt := if isCounted then some now else row.absentCountedAt
    missingAt :=
      if row.missingAt.isSome then
        row.missingAt
      else if max 1 policy.missingSyncs <= count \/ 0 < policy.missingMinutes /\ policy.missingMinutes <= ((now - since : ℤ) : ℚ) / 60 then
        some now
      else
        none }

def syncRow (clean : List Item) (now : ℤ) (row : Row) : Row :=
  if row.isOllama then
    match clean.find? fun item => decide (item.name = row.name) with
    | some item => row.listed item
    | none => row.absent policy now
  else
    row

/-- `sync_ollama`; a name that another backend has is not inserted. -/
def syncOllama (rows : List Row) (call : List Listed × ℤ) : List Row :=
  let clean := listing [] call.1
  rows.map (syncRow policy clean call.2) ++
    (clean.filter fun item => rows.all fun row => row.name ≠ item.name).map (Row.insert policy)

end

abbrev History : Type := List (List Listed × ℤ)

def isListed (name : Text) (models : List Listed) : Bool := (listing [] models).any fun item => item.name = name

def absences (name : Text) (past : History) : List ℤ :=
  past.foldl (fun times call => if isListed name call.1 then [] else times ++ [call.2]) []

/-- The absences that count: the first one, and each at least the spacing behind the last that counts. -/
def counted (times : List ℤ) : List ℤ :=
  times.foldl (fun counts time =>
    match counts.getLast? with
    | some last => if absentCountSpacing <= time - last then counts ++ [time] else counts
    | none => [time]) []

def Passed (minutes : ℚ) (times : List ℤ) : Prop :=
  ∃ first last, times.head? = some first /\ times.getLast? = some last /\ minutes <= ((last - first : ℤ) : ℚ) / 60

def Missing (policy : Policy) (times : List ℤ) : Prop :=
  max 1 policy.missingSyncs <= (counted times).length \/ 0 < policy.missingMinutes /\ Passed policy.missingMinutes times

/-- `m` is the time of the listing that made the model missing. -/
def Since (policy : Policy) (times : List ℤ) (m : ℤ) : Prop :=
  ∃ before after, times = before ++ m :: after /\ ¬ Missing policy before /\ Missing policy (before ++ [m])

structure Row.Told (policy : Policy) (times : List ℤ) (row : Row) : Prop where
  count : row.absentSyncs = (counted times).length
  since : row.absentSince = times.head?
  last : row.absentCountedAt = (counted times).getLast?
  marked : Missing policy times -> row.missingAt.isSome
  set : ∀ m, row.missingAt = some m -> Since policy times m

variable {policy : Policy} {row : Row} {times : List ℤ} {now : ℤ}

theorem counted_snoc (times : List ℤ) (time : ℤ) : counted (times ++ [time]) = match (counted times).getLast? with
  | some last => if absentCountSpacing <= time - last then counted times ++ [time] else counted times
  | none => [time] := by
  unfold counted
  rw [foldl_append]
  rfl

theorem counted_eq_nil_iff : counted times = [] ↔ times = [] := by
  induction times using reverseRecOn with
  | nil => exact ⟨fun _ => rfl, fun _ => rfl⟩
  | append_singleton times time ih =>
    refine ⟨fun empty => ?_, fun empty => absurd empty (append_ne_nil_of_right_ne_nil _ (cons_ne_nil _ _))⟩
    rw [counted_snoc] at empty
    split at empty
    · rename_i last isLast
      split at empty
      · exact absurd empty (append_ne_nil_of_right_ne_nil _ (cons_ne_nil _ _))
      · rw [empty] at isLast
        cases isLast
    · cases empty

theorem not_missing_nil : ¬ Missing policy [] := by
  rintro (enough | ⟨_, first, _, isFirst, _⟩)
  · exact absurd (le_trans (le_max_left _ _) enough) (by decide)
  · cases isFirst

theorem Missing.snoc (missing : Missing policy times) (later : ∀ time ∈ times, time <= now) : Missing policy (times ++ [now]) := by
  rcases missing with enough | ⟨positive, first, last, isFirst, isLast, passed⟩
  · refine .inl (enough.trans ?_)
    rw [counted_snoc]
    split
    · split
      · rw [length_append]
        exact Nat.le_add_right _ _
      · exact le_rfl
    · rename_i none
      rw [getLast?_eq_none_iff.mp none]
      exact Nat.zero_le _
  · refine .inr ⟨positive, first, now, ?_, getLast?_concat, passed.trans ?_⟩
    · rw [head?_append, isFirst]
      rfl
    · have le := later last (mem_of_getLast? isLast)
      have further : ((last - first : ℤ) : ℚ) <= ((now - first : ℤ) : ℚ) := Int.cast_le.mpr (by omega)
      exact div_le_div_of_nonneg_right further (by decide)

theorem Row.Told.absent (told : row.Told policy times) : (row.absent policy now).Told policy (times ++ [now]) := by
  have counts : (row.absent policy now).absentSyncs = (counted (times ++ [now])).length /\
      (row.absent policy now).absentCountedAt = (counted (times ++ [now])).getLast? := by
    rw [counted_snoc]
    unfold Row.absent
    rw [told.since, told.last, told.count]
    cases times with
    | nil => exact ⟨rfl, rfl⟩
    | cons first rest =>
      cases isLast : (counted (first :: rest)).getLast? with
      | none => exact absurd (counted_eq_nil_iff.mp (getLast?_eq_none_iff.mp isLast)) (cons_ne_nil _ _)
      | some last =>
        dsimp only [head?_cons]
        by_cases apart : absentCountSpacing <= now - last
        · simp only [decide_eq_true apart, if_pos apart, isNone_some, Bool.false_eq_true, if_false, if_true, length_append,
            getLast?_concat, length_singleton, and_self]
        · simp only [decide_eq_false apart, if_neg apart, isNone_some, Bool.false_eq_true, if_false, isLast, and_self]
  have since : (row.absent policy now).absentSince = (times ++ [now]).head? := by
    change some (row.absentSince.getD now) = _
    rw [told.since]
    cases times <;> rfl
  have missing : (row.absent policy now).missingAt =
      if row.missingAt.isSome then row.missingAt else
        if max 1 policy.missingSyncs <= (row.absent policy now).absentSyncs \/
          0 < policy.missingMinutes /\ policy.missingMinutes <= ((now - row.absentSince.getD now : ℤ) : ℚ) / 60 then some now else none := rfl
  have isMissing : (max 1 policy.missingSyncs <= (row.absent policy now).absentSyncs \/
      0 < policy.missingMinutes /\ policy.missingMinutes <= ((now - row.absentSince.getD now : ℤ) : ℚ) / 60) ↔ Missing policy (times ++ [now]) := by
    rw [counts.1]
    refine or_congr Iff.rfl (and_congr Iff.rfl ⟨fun passed => ⟨row.absentSince.getD now, now, ?_, getLast?_concat, passed⟩, ?_⟩)
    · exact since.symm
    · rintro ⟨_, _, isFirst, isLast, passed⟩
      cases getLast?_concat.symm.trans isLast
      cases since.trans isFirst
      exact passed
  refine ⟨counts.1, since, counts.2, fun isNow => ?_, fun m isSet => ?_⟩
  · rw [missing]
    split
    · assumption
    · rw [if_pos (isMissing.mpr isNow)]
      rfl
  · rw [missing] at isSet
    split at isSet
    · rcases told.set m isSet with ⟨before, after, rfl, notBefore, isThen⟩
      exact ⟨before, after ++ [now], by rw [append_assoc, cons_append], notBefore, isThen⟩
    · rename_i unmarked
      split at isSet
      · rename_i isNow
        cases isSet
        exact ⟨times, [], rfl, fun already => unmarked (told.marked already), isMissing.mp isNow⟩
      · cases isSet

theorem told_nil (row : Row) (cleared : row.absentSyncs = 0 /\ row.absentSince = none /\ row.absentCountedAt = none /\ row.missingAt = none) :
  row.Told policy [] :=
  ⟨cleared.1, cleared.2.1, cleared.2.2.1, fun missing => absurd missing not_missing_nil, fun m isSet => by cases cleared.2.2.2.symm.trans isSet⟩

theorem absences_snoc (name : Text) (past : History) (call : List Listed × ℤ) :
  absences name (past ++ [call]) = if isListed name call.1 then [] else absences name past ++ [call.2] := by
  unfold absences
  rw [foldl_append]
  rfl

theorem syncRow_told {past : History} (call : List Listed × ℤ) (isOllama : row.isOllama)
  (told : row.Told policy (absences row.name past)) : (syncRow policy (listing [] call.1) call.2 row).name = row.name /\
    (syncRow policy (listing [] call.1) call.2 row).Told policy (absences row.name (past ++ [call])) := by
  unfold syncRow
  rw [if_pos isOllama, absences_snoc]
  cases found : (listing [] call.1).find? fun item => decide (item.name = row.name) with
  | none =>
    have unlisted : isListed row.name call.1 = false :=
      any_eq_false.mpr fun item mem same => find?_eq_none.mp found item mem same
    rw [unlisted, if_neg Bool.false_ne_true]
    exact ⟨rfl, told.absent⟩
  | some item =>
    have same := find?_some (p := fun item : Item => decide (item.name = row.name)) found
    have isListed : isListed row.name call.1 := any_eq_true.mpr ⟨item, mem_of_find?_eq_some found, same⟩
    rw [isListed, if_pos rfl]
    exact ⟨rfl, told_nil _ ⟨rfl, rfl, rfl, rfl⟩⟩

theorem run_told {rows : List Row} (past : History) (cleared : ∀ row ∈ rows, row.isOllama ->
    row.absentSyncs = 0 /\ row.absentSince = none /\ row.absentCountedAt = none /\ row.missingAt = none) :
  ∀ row ∈ past.foldl (syncOllama policy) rows, row.isOllama -> row.Told policy (absences row.name past) := by
  induction past using reverseRecOn with
  | nil => exact fun row mem isOllama => told_nil row (cleared row mem isOllama)
  | append_singleton past call ih =>
    intro _ mem isOllama
    rw [foldl_append] at mem
    rcases mem_append.mp mem with old | new
    · rcases mem_map.mp old with ⟨before, isBefore, rfl⟩
      by_cases own : before.isOllama
      · have told := syncRow_told call own (ih before isBefore own)
        rw [told.1]
        exact told.2
      · rw [syncRow, if_neg own] at isOllama
        exact absurd isOllama own
    · rcases mem_map.mp new with ⟨item, isItem, rfl⟩
      have isListed : isListed item.name call.1 :=
        any_eq_true.mpr ⟨item, (mem_filter.mp isItem).1, decide_eq_true rfl⟩
      have none : absences (Row.insert policy item).name (past ++ [call]) = [] := by
        rw [absences_snoc]
        exact if_pos isListed
      rw [none]
      exact told_nil _ ⟨rfl, rfl, rfl, rfl⟩

theorem absences_sorted (name : Text) (past : History) (sorted : (past.map Prod.snd).Pairwise (· <= ·)) :
  (absences name past).Sublist (past.map Prod.snd) := by
  induction past using reverseRecOn with
  | nil => exact .slnil
  | append_singleton past call ih =>
    rw [map_append] at sorted ⊢
    rw [absences_snoc]
    split
    · exact nil_sublist _
    · exact (ih (pairwise_append.mp sorted).1).append (List.Sublist.refl _)

theorem Missing.append {first : List ℤ} (rest : List ℤ) (missing : Missing policy first) (sorted : (first ++ rest).Pairwise (· <= ·)) :
  Missing policy (first ++ rest) := by
  induction rest generalizing first with
  | nil =>
    rw [append_nil]
    exact missing
  | cons time rest ih =>
    rw [<- singleton_append, <- append_assoc] at sorted ⊢
    have before := (pairwise_append.mp (pairwise_append.mp sorted).1).2.2
    exact ih (missing.snoc fun earlier mem => before earlier mem time mem_cons_self) sorted

/-- Behind a whole history, and for each listing. -/
theorem absent_models_marked (policy : Policy) (rows : List Row) (past : History)
  (cleared : ∀ row ∈ rows, row.isOllama ->
    row.absentSyncs = 0 /\ row.absentSince = none /\ row.absentCountedAt = none /\ row.missingAt = none)
  (sorted : (past.map Prod.snd).Pairwise (· <= ·)) :
  (∀ row ∈ past.foldl (syncOllama policy) rows, row.isOllama ->
    (row.missingAt.isSome ↔ Missing policy (absences row.name past)) /\
    (∀ m, row.missingAt = some m -> Since policy (absences row.name past) m) /\
    (absences row.name past = [] ->
      row.absentSyncs = 0 /\ row.absentSince = none /\ row.absentCountedAt = none /\ row.missingAt = none)) /\
  ∀ (rows : List Row) (call : List Listed × ℤ) (row : Row), row ∈ rows ->
    ∃ after ∈ syncOllama policy rows call, after.name = row.name /\ after.isOllama = row.isOllama /\
      after.edited = row.edited /\ (row.description ≠ [] -> after.description = row.description) := by
  refine ⟨fun row mem isOllama => ?_, fun rows call row mem => ?_⟩
  · have told := run_told past cleared row mem isOllama
    refine ⟨⟨fun marked => ?_, told.marked⟩, told.set, fun none => ?_⟩
    · rcases isSome_iff_exists.mp marked with ⟨m, isSet⟩
      rcases told.set m isSet with ⟨before, after, same, _, isThen⟩
      have times := sorted.sublist (absences_sorted row.name past sorted)
      rw [same, <- singleton_append, <- append_assoc] at times ⊢
      exact isThen.append after times
    · rw [none] at told
      refine ⟨told.count, told.since, told.last, ?_⟩
      cases marked : row.missingAt with
      | none => rfl
      | some m =>
        rcases told.set m marked with ⟨before, after, same, _⟩
        exact absurd same.symm (append_ne_nil_of_right_ne_nil _ (cons_ne_nil _ _))
  · refine ⟨syncRow policy (listing [] call.1) call.2 row, mem_append_left _ (mem_map_of_mem mem), ?_⟩
    unfold syncRow
    split
    · split
      · exact ⟨rfl, rfl, rfl, fun filled => if_neg filled⟩
      · exact ⟨rfl, rfl, rfl, fun _ => rfl⟩
    · exact ⟨rfl, rfl, rfl, fun _ => rfl⟩

def oneModel : Row :=
  ⟨Text.ofString "m", true, ⟨[], true, "enrolled", []⟩, [], true, ⟨none, none, [], [], []⟩, 0, none, none, none⟩

def threeListings : Policy := ⟨3, 30, fun _ => false, id⟩

theorem absent_models_marked_one : (oneModel.absent threeListings 0).missingAt.isSome ↔
  Missing threeListings (absences oneModel.name [([], 0)]) :=
  ((absent_models_marked threeListings [oneModel] [([], 0)] (fun row mem _ => by
    cases mem_singleton.mp mem
    exact ⟨rfl, rfl, rfl, rfl⟩) (by decide)).1 (oneModel.absent threeListings 0) (.head _) rfl).1

/-- The minutes do not count where the setting is 0. -/
theorem absent_model_not_marked : ¬ ∀ (policy : Policy) (rows : List Row) (past : History),
  (∀ row ∈ rows, row.isOllama ->
    row.absentSyncs = 0 /\ row.absentSince = none /\ row.absentCountedAt = none /\ row.missingAt = none) ->
  (past.map Prod.snd).Pairwise (· <= ·) ->
  ∀ row ∈ past.foldl (syncOllama policy) rows, row.isOllama ->
    (row.missingAt.isSome ↔ absences row.name past ≠ [] /\
      (policy.missingSyncs <= (counted (absences row.name past)).length \/ Passed policy.missingMinutes (absences row.name past))) := by
  intro always
  have marked := always ⟨3, 0, fun _ => false, id⟩ [oneModel] [([], 0)] (fun row mem _ => by
    cases mem_singleton.mp mem
    exact ⟨rfl, rfl, rfl, rfl⟩) (by decide) (oneModel.absent ⟨3, 0, fun _ => false, id⟩ 0) (.head _) rfl
  have unmarked : (oneModel.absent ⟨3, 0, fun _ => false, id⟩ 0).missingAt = none := by decide +kernel
  have isMarked := marked.mpr ⟨cons_ne_nil _ _, .inr ⟨0, 0, rfl, rfl, by decide +kernel⟩⟩
  cases isMarked

end BananaChat.Models

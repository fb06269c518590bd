import Mathlib.Data.List.Infix

namespace BananaChat.Foundation

open List

universe u v

/-!
# Reading a list page by page

A cursor stands between two rows of a list.
-/

structure Pager (Cursor : Type u) (Row : Type v) where
  /-- All rows behind the cursor, in the order in which they are read. -/
  rest : Cursor -> List Row
  page : Cursor -> List Row
  /-- The cursor behind a row. -/
  cursorOf : Row -> Cursor
  begins : ∀ cursor, page cursor <+: rest cursor
  nonempty : ∀ cursor, page cursor = [] -> rest cursor = []
  moves : ∀ cursor before row after, rest cursor = before ++ row :: after -> rest (cursorOf row) = after

namespace Pager

variable {Cursor : Type u} {Row : Type v} (pager : Pager Cursor Row)

def more (cursor : Cursor) : Bool := (pager.page cursor).length < (pager.rest cursor).length

def untilEmpty : ℕ -> Cursor -> Option (List (List Row))
  | 0, _ => none
  | fuel + 1, cursor =>
    match (pager.page cursor).getLast? with
    | none => some []
    | some last => (untilEmpty fuel (pager.cursorOf last)).map (pager.page cursor :: ·)

def whileMore : ℕ -> Cursor -> Option (List (List Row))
  | 0, _ => none
  | fuel + 1, cursor =>
    match (pager.page cursor).getLast? with
    | none => some [pager.page cursor]
    | some last =>
      if pager.more cursor then (whileMore fuel (pager.cursorOf last)).map (pager.page cursor :: ·)
      else some [pager.page cursor]

variable {cursor : Cursor} {last : Row}

theorem rest_split (isLast : (pager.page cursor).getLast? = some last) :
  pager.rest cursor = pager.page cursor ++ pager.rest (pager.cursorOf last) := by
  rcases pager.begins cursor with ⟨after, joined⟩
  rcases getLast?_eq_some_iff.mp isLast with ⟨before, isPage⟩
  rw [isPage, append_assoc] at joined
  rw [pager.moves cursor before last after joined.symm, isPage, <- joined, append_assoc]

theorem rest_shorter (isLast : (pager.page cursor).getLast? = some last) :
  (pager.rest (pager.cursorOf last)).length < (pager.rest cursor).length := by
  have positive : 0 < (pager.page cursor).length :=
    length_pos_of_mem (mem_of_getLast? isLast)
  rw [pager.rest_split isLast, length_append]
  omega

theorem page_nil (noLast : (pager.page cursor).getLast? = none) : pager.page cursor = [] /\ pager.rest cursor = [] :=
  ⟨getLast?_eq_none_iff.mp noLast, pager.nonempty cursor (getLast?_eq_none_iff.mp noLast)⟩

theorem untilEmpty_covers (fuel : ℕ) (cursor : Cursor) (enough : (pager.rest cursor).length < fuel) :
  ∃ pages, pager.untilEmpty fuel cursor = some pages /\ pages.flatten = pager.rest cursor /\
    ∀ page ∈ pages, page ≠ [] := by
  induction fuel generalizing cursor with
  | zero => exact absurd enough (Nat.not_lt_zero _)
  | succ fuel ih =>
    unfold untilEmpty
    cases isLast : (pager.page cursor).getLast? with
    | none =>
      refine ⟨[], rfl, (pager.page_nil isLast).2.symm, ?_⟩
      intro page clash
      cases clash
    | some last =>
      have shorter := pager.rest_shorter isLast
      rcases ih (pager.cursorOf last) (by omega) with ⟨pages, walked, covered, filled⟩
      refine ⟨pager.page cursor :: pages, ?_, ?_, ?_⟩
      · dsimp only
        rw [walked, Option.map_some]
      · rw [flatten_cons, covered, <- pager.rest_split isLast]
      · intro page mem
        rcases mem_cons.mp mem with isFirst | later
        · rw [isFirst]
          exact ne_nil_of_mem (mem_of_getLast? isLast)
        · exact filled page later

theorem whileMore_covers (fuel : ℕ) (cursor : Cursor) (enough : (pager.rest cursor).length < fuel) :
  ∃ pages, pager.whileMore fuel cursor = some pages /\ pages.flatten = pager.rest cursor /\
    (pager.rest cursor ≠ [] -> ∀ page ∈ pages, page ≠ []) := by
  induction fuel generalizing cursor with
  | zero => exact absurd enough (Nat.not_lt_zero _)
  | succ fuel ih =>
    unfold whileMore
    cases isLast : (pager.page cursor).getLast? with
    | none =>
      rcases pager.page_nil isLast with ⟨isNil, nothing⟩
      refine ⟨_, rfl, ?_, fun some => absurd nothing some⟩
      rw [isNil, nothing]
      rfl
    | some last =>
      have filled : pager.page cursor ≠ [] := ne_nil_of_mem (mem_of_getLast? isLast)
      have split := pager.rest_split isLast
      have shorter := pager.rest_shorter isLast
      dsimp only
      by_cases goesOn : pager.more cursor
      · rw [if_pos goesOn]
        have left : pager.rest (pager.cursorOf last) ≠ [] := by
          intro nothing
          rw [nothing, append_nil] at split
          have more := of_decide_eq_true goesOn
          rw [split] at more
          exact Nat.lt_irrefl _ more
        rcases ih (pager.cursorOf last) (by omega) with ⟨pages, walked, covered, later⟩
        refine ⟨pager.page cursor :: pages, ?_, ?_, ?_⟩
        · rw [walked, Option.map_some]
        · rw [flatten_cons, covered, <- split]
        · intro _ page mem
          rcases mem_cons.mp mem with isFirst | isLater
          · rw [isFirst]
            exact filled
          · exact later left page isLater
      · rw [if_neg goesOn]
        have whole : pager.rest cursor = pager.page cursor :=
          ((pager.begins cursor).eq_of_length_le
            (Nat.le_of_not_lt (of_decide_eq_false (Bool.not_eq_true _ ▸ goesOn)))).symm
        refine ⟨_, rfl, ?_, ?_⟩
        · rw [whole, flatten_singleton]
        · intro _ _ mem
          rw [mem_singleton.mp mem]
          exact filled

end Pager

section Bounded

variable {Row : Type u}

def fitting (size : Row -> ℕ) (bound : ℤ) : Bool -> ℕ -> List Row -> List Row
  | _, _, [] => []
  | started, total, row :: rest =>
    if started /\ bound < total + size row then []
    else row :: fitting size bound true (total + size row) rest

variable {size : Row -> ℕ} {bound : ℤ}

theorem fitting_prefix (started : Bool) (total : ℕ) (rows : List Row) : fitting size bound started total rows <+: rows := by
  induction rows generalizing started total with
  | nil => exact prefix_refl _
  | cons row rest ih =>
    unfold fitting
    split
    · exact nil_prefix
    · exact (prefix_cons_inj row).mpr (ih true _)

theorem fitting_nil {rows : List Row} (nothing : fitting size bound false 0 rows = []) : rows = [] := by
  cases rows with
  | nil => rfl
  | cons row rest =>
    unfold fitting at nothing
    cases nothing

theorem fitting_map {Other : Type v} (view : Row -> Other) (sizeOf : Other -> ℕ) (started : Bool) (total : ℕ) (rows : List Row) :
  (fitting (fun row => sizeOf (view row)) bound started total rows).map view =
    fitting sizeOf bound started total (rows.map view) := by
  induction rows generalizing started total with
  | nil => rfl
  | cons row rest ih =>
    rw [map_cons]
    unfold fitting
    by_cases full : started /\ bound < total + sizeOf (view row)
    · rw [if_pos full, if_pos full, map_nil]
    · rw [if_neg full, if_neg full, map_cons, ih]

end Bounded

section Keyed

variable {Row : Type u} {key : Row -> ℕ}

variable {rows before after : List Row} {row : Row}

theorem filter_behind (rising : rows.Pairwise fun one other => key one < key other)
  (split : rows = before ++ row :: after) : rows.filter (key row < key ·) = after := by
  subst split
  have sorted := pairwise_append.mp rising
  have behind := pairwise_cons.mp sorted.2.1
  rw [filter_append, filter_cons_of_neg (by simp), filter_eq_nil_iff.mpr, nil_append, filter_eq_self.mpr]
  · intro other mem
    exact decide_eq_true (behind.1 other mem)
  · intro other mem
    have less := sorted.2.2 other mem row mem_cons_self
    simpa using Nat.le_of_lt less

theorem filter_before (rising : rows.Pairwise fun one other => key one < key other)
  (split : rows = before ++ row :: after) : rows.filter (key · < key row) = before := by
  subst split
  have sorted := pairwise_append.mp rising
  have behind := pairwise_cons.mp sorted.2.1
  rw [filter_append, filter_cons_of_neg (by simp), filter_eq_self.mpr, filter_eq_nil_iff.mpr, append_nil]
  · intro other mem
    have less := behind.1 other mem
    simpa using Nat.le_of_lt less
  · intro other mem
    exact decide_eq_true (sorted.2.2 other mem row mem_cons_self)

theorem filter_keys {part : List Row} (distinct : (rows.map key).Nodup) (isPart : part.Sublist rows) :
  rows.filter (key · ∈ part.map key) = part := by
  induction isPart with
  | slnil => rfl
  | cons row isPart ih =>
    rcases nodup_cons.mp distinct with ⟨fresh, others⟩
    rw [filter_cons_of_neg]
    · exact ih others
    · intro mem
      exact fresh ((isPart.map key).subset (of_decide_eq_true mem))
  | cons_cons row isPart ih =>
    rcases nodup_cons.mp distinct with ⟨fresh, others⟩
    rw [filter_cons_of_pos]
    · refine congrArg (row :: ·) ((filter_congr ?_).trans (ih others))
      intro other mem
      have apart : key other ≠ key row := fun same => fresh (same ▸ mem_map_of_mem mem)
      simp [apart]
    · exact decide_eq_true mem_cons_self

def Pager.rising {rows : List Row} (rising : rows.Pairwise fun one other => key one < key other) (page : ℕ -> List Row)
  (begins : ∀ cursor, page cursor <+: rows.filter (cursor < key ·))
  (nonempty : ∀ cursor, page cursor = [] -> rows.filter (cursor < key ·) = []) : Pager ℕ Row where
  rest cursor := rows.filter (cursor < key ·)
  page := page
  cursorOf := key
  begins := begins
  nonempty := nonempty
  moves := by
    intro cursor before row after split
    have sorted : (rows.filter (cursor < key ·)).Pairwise (fun one other => key one < key other) :=
      rising.filter _
    have above : cursor < key row := by
      have mem : row ∈ rows.filter (cursor < key ·) := by
        rw [split]
        exact mem_append_right _ mem_cons_self
      exact of_decide_eq_true (mem_filter.mp mem).2
    rw [<- filter_behind sorted split, filter_filter]
    apply filter_congr
    intro other _
    by_cases behind : key row < key other
    · rw [decide_eq_true behind, decide_eq_true (Nat.lt_trans above behind), Bool.true_and]
    · rw [decide_eq_false behind, Bool.false_and]

def olderThan (cursor : Option ℕ) (row : ℕ) : Bool := cursor.all (row < ·)

def Pager.falling {rows : List Row} (rising : rows.Pairwise fun one other => key one < key other)
  (page : Option ℕ -> List Row)
  (ends : ∀ cursor, page cursor <:+ rows.filter fun row => olderThan cursor (key row))
  (nonempty : ∀ cursor, page cursor = [] -> rows.filter (fun row => olderThan cursor (key row)) = []) :
  Pager (Option ℕ) Row where
  rest cursor := (rows.filter fun row => olderThan cursor (key row)).reverse
  page cursor := (page cursor).reverse
  cursorOf row := some (key row)
  begins cursor := reverse_prefix.mpr (ends cursor)
  nonempty cursor nothing := reverse_eq_nil_iff.mpr (nonempty cursor (reverse_eq_nil_iff.mp nothing))
  moves := by
    intro cursor before row after split
    have turned : rows.filter (fun other => olderThan cursor (key other)) = after.reverse ++ row :: before.reverse := by
      rw [reverse_eq_iff.mp split, reverse_append, reverse_cons, append_assoc, singleton_append]
    have sorted : (rows.filter fun other => olderThan cursor (key other)).Pairwise (fun one other => key one < key other) :=
      rising.filter _
    have older : olderThan cursor (key row) := by
      have mem : row ∈ rows.filter (fun other => olderThan cursor (key other)) := by
        rw [turned]
        exact mem_append_right _ mem_cons_self
      exact (mem_filter.mp mem).2
    rw [<- reverse_eq_iff.mpr (filter_before sorted turned), filter_filter]
    refine congrArg reverse (filter_congr ?_)
    intro other _
    unfold olderThan
    rw [Option.all_some]
    by_cases below : key other < key row
    · rw [decide_eq_true below, Bool.true_and]
      cases cursor with
      | none => rfl
      | some bound => exact (decide_eq_true (Nat.lt_trans below (of_decide_eq_true older))).symm
    · rw [decide_eq_false below, Bool.false_and]

end Keyed

end BananaChat.Foundation

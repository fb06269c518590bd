import Mathlib.Algebra.GroupWithZero.Nat
import Mathlib.Algebra.Order.BigOperators.Group.List
import Mathlib.Algebra.Order.Group.Nat
import Mathlib.Data.List.Nodup
import Mathlib.Data.Prod.Lex
import BananaChat.Foundation.Lists

namespace BananaChat.Foundation

open List Bool Function

universe u v

/-!
# Tables as lists of rows

A database table is the list of its rows, in the order of their insertion.
-/

namespace Rows

/-- The order of two columns, the one that `LinearOrder` computes. -/
instance columnsPreorder {First : Type u} {Second : Type v} [LinearOrder First] [LinearOrder Second] :
  Preorder (First ×ₗ Second) :=
  (Prod.Lex.instLinearOrder First Second).toPartialOrder.toPreorder

variable {Row : Type u} {Key : Type v}

section

variable (selected : Row -> Bool)

/-- `UPDATE ... SET change WHERE selected`. -/
def updateWhere (change : Row -> Row) (rows : List Row) : List Row :=
  rows.map (fun row => if selected row then change row else row)

/-- `DELETE ... WHERE selected`. -/
def deleteWhere (rows : List Row) : List Row := rows.filter (!selected ·)

/-- `cursor.rowcount` of a statement. -/
def affected (rows : List Row) : ℕ := rows.countP selected

end

variable {selected : Row -> Bool} {change : Row -> Row} {rows : List Row}

theorem affected_eq_zero_iff : affected selected rows = 0 ↔ ∀ row ∈ rows, ¬ selected row := countP_eq_zero

variable {row : Row} {key : Row -> Key}

theorem mem_updateWhere : row ∈ updateWhere selected change rows ↔
    (row ∈ rows /\ ¬ selected row) \/ ∃ old ∈ rows, selected old /\ change old = row := by
  unfold updateWhere
  rw [mem_map]
  constructor
  · rintro ⟨old, mem, same⟩
    by_cases chosen : selected old
    · rw [if_pos chosen] at same
      exact .inr ⟨old, mem, chosen, same⟩
    · rw [if_neg chosen] at same
      exact .inl (same ▸ ⟨mem, chosen⟩)
  · rintro (⟨mem, unchosen⟩ | ⟨old, mem, chosen, same⟩)
    · exact ⟨row, mem, if_neg unchosen⟩
    · exact ⟨old, mem, by rw [if_pos chosen, same]⟩

theorem updateWhere_eq_self (unselected : ∀ row ∈ rows, ¬ selected row) : updateWhere selected change rows = rows := by
  unfold updateWhere
  rw [map_congr_left (fun row mem => if_neg (unselected row mem)), map_id']

theorem map_updateWhere_of_mem (key : Row -> Key) (kept : ∀ row ∈ rows, selected row -> key (change row) = key row) :
  (updateWhere selected change rows).map key = rows.map key := by
  unfold updateWhere
  rw [map_map]
  apply map_congr_left
  intro row mem
  simp only [comp_apply]
  split
  · rename_i chosen
    exact kept row mem chosen
  · rfl

theorem map_updateWhere (key : Row -> Key) (kept : ∀ row, key (change row) = key row) :
  (updateWhere selected change rows).map key = rows.map key :=
  map_updateWhere_of_mem key (fun row _ _ => kept row)

theorem map_updateWhere_sublist (key : Row -> Key) (kept : ∀ row, key (change row) = key row) :
  ((updateWhere selected change rows).map key).Sublist (rows.map key) := by
  rw [map_updateWhere key kept]

theorem mem_deleteWhere : row ∈ deleteWhere selected rows ↔ row ∈ rows /\ ¬ selected row := by
  unfold deleteWhere
  rw [mem_filter, Bool.not_eq_eq_eq_not, Bool.not_true, Bool.not_eq_true]

theorem deleteWhere_eq_self (unselected : ∀ row ∈ rows, ¬ selected row) : deleteWhere selected rows = rows := by
  unfold deleteWhere
  rw [filter_eq_self]
  intro row mem
  simpa using unselected row mem

theorem deleteWhere_sublist : (deleteWhere selected rows).Sublist rows := filter_sublist

theorem eq_of_key (distinct : (rows.map key).Nodup) {first second : Row} (firstMember : first ∈ rows)
  (secondMember : second ∈ rows) (same : key first = key second) : first = second :=
  inj_on_of_nodup_map distinct firstMember secondMember same

theorem mem_updateWhere_key (distinct : (rows.map key).Nodup) (mem : row ∈ rows)
  (chosen : ∀ other, selected other -> key other = key row) (itself : selected row) {other : Row} :
  other ∈ updateWhere selected change rows ↔ (other ∈ rows /\ key other ≠ key row) \/ other = change row := by
  rw [mem_updateWhere]
  constructor
  · rintro (⟨otherIn, unchosen⟩ | ⟨old, oldIn, oldChosen, same⟩)
    · refine .inl ⟨otherIn, fun sameKey => unchosen ?_⟩
      rw [eq_of_key distinct otherIn mem sameKey]
      exact itself
    · rw [<- same, eq_of_key distinct oldIn mem (chosen old oldChosen)]
      exact .inr rfl
  · rintro (⟨otherIn, otherKey⟩ | same)
    · exact .inl ⟨otherIn, fun otherChosen => otherKey (chosen other otherChosen)⟩
    · exact .inr ⟨row, mem, itself, same.symm⟩

theorem of_find_key [DecidableEq Key] {value : Key}
  (found : rows.find? (key · = value) = some row) : row ∈ rows /\ key row = value := by
  have named := find?_some found
  exact ⟨mem_of_find?_eq_some found, of_decide_eq_true named⟩

theorem find_of_key [DecidableEq Key] (distinct : (rows.map key).Nodup) (mem : row ∈ rows) :
  rows.find? (key · = key row) = some row := by
  cases found : rows.find? (key · = key row) with
  | none => exact absurd (decide_eq_true rfl) (find?_eq_none.mp found row mem)
  | some other =>
    rcases of_find_key found with ⟨otherIn, same⟩
    rw [eq_of_key distinct otherIn mem same]

theorem find_updateWhere_key [DecidableEq Key] (kept : ∀ row, key (change row) = key row) {value : Key}
  (found : rows.find? (key · = value) = some row) : (updateWhere (key · = value) change rows).find? (key · = value) =
    some (change row) := by
  induction rows with
  | nil => cases found
  | cons head rows ih =>
    unfold updateWhere at ih ⊢
    by_cases named : key head = value
    · simp only [find?_cons, decide_eq_true named, Option.some_inj] at found
      subst found
      simp only [map_cons, find?_cons, decide_eq_true named, if_true, decide_eq_true ((kept head).trans named)]
    · simp only [find?_cons, decide_eq_false named] at found
      simp only [map_cons, find?_cons, decide_eq_false named, false_eq_true, if_false]
      exact ih found

theorem affected_key [DecidableEq Key] (distinct : (rows.map key).Nodup) (value : Key) :
  affected (key · = value) rows = if value ∈ rows.map key then 1 else 0 := by
  have counted : affected (key · = value) rows = (rows.map key).count value := by
    rw [count, countP_map]
    apply countP_congr
    intro _ _
    simp
  rw [counted]
  by_cases mem : value ∈ rows.map key
  · rw [if_pos mem, count_eq_one_of_mem distinct mem]
  · rw [if_neg mem, count_eq_zero_of_not_mem mem]

theorem filter_flatMap_key {Event : Type*} {reports : Row -> List Event} {about : Event -> Bool}
  (distinct : (rows.map key).Nodup) (mem : row ∈ rows) (own : ∀ event ∈ reports row, about event)
  (others : ∀ other, key other ≠ key row -> ∀ event ∈ reports other, about event = false) :
  (rows.flatMap reports).filter about = reports row := by
  induction rows with
  | nil => exact absurd mem not_mem_nil
  | cons head rest ih =>
    rw [map_cons, nodup_cons] at distinct
    rw [flatMap_cons, filter_append]
    rcases mem_cons.mp mem with rfl | later
    · have restNone : (rest.flatMap reports).filter about = [] := by
        rw [filter_eq_nil_iff]
        intro event eventMember
        rcases mem_flatMap.mp eventMember with ⟨other, otherIn, reported⟩
        rw [others other (fun same => distinct.1 (same ▸ mem_map_of_mem otherIn)) event reported]
        exact false_ne_true
      rw [restNone, append_nil, filter_eq_self]
      exact own
    · have headNone : (reports head).filter about = [] := by
        rw [filter_eq_nil_iff]
        intro event reported
        rw [others head (fun same => distinct.1 (same ▸ mem_map_of_mem later)) event reported]
        exact false_ne_true
      rw [headNone, nil_append]
      exact ih distinct.2 later

theorem countP_updateWhere (counted : Row -> Bool) : (updateWhere selected change rows).countP counted =
    rows.countP (fun row => if selected row then counted (change row) else counted row) := by
  unfold updateWhere
  rw [countP_map]
  apply countP_congr
  intro _ _
  simp only [comp_apply]
  split <;> exact Iff.rfl

theorem countP_updateWhere_le {counted : Row -> Bool}
  (kept : ∀ row ∈ rows, selected row -> counted (change row) -> counted row) :
  (updateWhere selected change rows).countP counted <= rows.countP counted := by
  rw [countP_updateWhere]
  apply countP_mono_left
  intro row mem isCounted
  by_cases chosen : selected row
  · rw [if_pos chosen] at isCounted
    exact kept row mem chosen isCounted
  · rwa [if_neg chosen] at isCounted

theorem countP_updateWhere_le_add (counted : Row -> Bool) :
  (updateWhere selected change rows).countP counted <= rows.countP counted + affected selected rows := by
  rw [countP_updateWhere]
  unfold affected
  induction rows with
  | nil => simp
  | cons row rest ih =>
    simp only [countP_cons]
    by_cases chosen : selected row
    · simp only [chosen, if_true]
      by_cases isCounted : counted (change row)
      · simp only [isCounted, if_true]
        omega
      · simp only [isCounted, false_eq_true, if_false]
        omega
    · simp only [chosen, false_eq_true, if_false]
      omega

theorem eq_of_countP_le_one {counted : Row -> Bool} (once : rows.countP counted <= 1) {first second : Row}
  (firstMember : first ∈ rows) (firstCounted : counted first) (secondMember : second ∈ rows)
  (secondCounted : counted second) : first = second := by
  rw [countP_eq_length_filter] at once
  have firstKept := mem_filter.mpr ⟨firstMember, firstCounted⟩
  have secondKept := mem_filter.mpr ⟨secondMember, secondCounted⟩
  cases filtered : rows.filter counted with
  | nil =>
    rw [filtered] at firstKept
    exact absurd firstKept not_mem_nil
  | cons row rest =>
    rw [filtered, length_cons] at once
    have single : rest = [] := length_eq_zero_iff.mp (by omega)
    rw [filtered, single, mem_singleton] at firstKept secondKept
    rw [firstKept, secondKept]

theorem countP_deleteWhere_le (counted : Row -> Bool) :
  (deleteWhere selected rows).countP counted <= rows.countP counted :=
  deleteWhere_sublist.countP_le

/-- `SELECT SUM(amount) WHERE counted`. -/
def sumWhere (counted : Row -> Bool) (amount : Row -> ℕ) (rows : List Row) : ℕ := ((rows.filter counted).map amount).sum

section Sums

variable {counted : Row -> Bool} {amount : Row -> ℕ}

theorem sumWhere_eq : sumWhere counted amount rows = (rows.map fun row => if counted row then amount row else 0).sum := by
  unfold sumWhere
  induction rows with
  | nil => rfl
  | cons row rest ih =>
    rw [map_cons, sum_cons, <- ih, filter_cons]
    cases counted row with
    | true => exact sum_cons
    | false => exact (Nat.zero_add _).symm

theorem sumWhere_append (others : List Row) :
  sumWhere counted amount (rows ++ others) = sumWhere counted amount rows + sumWhere counted amount others := by
  unfold sumWhere
  rw [filter_append, map_append, sum_append]

theorem le_sumWhere (mem : row ∈ rows) (counts : counted row) : amount row <= sumWhere counted amount rows :=
  single_le_sum (fun _ _ => Nat.zero_le _) _ (mem_map_of_mem (mem_filter.mpr ⟨mem, counts⟩))

theorem sumWhere_singleton_le {bound : ℕ} (small : counted row -> amount row <= bound) :
  sumWhere counted amount [row] <= bound := by
  rw [sumWhere_eq, map_singleton, sum_singleton]
  split
  · rename_i counts
    exact small counts
  · exact Nat.zero_le _

theorem sumWhere_updateWhere_le {otherCounted : Row -> Bool}
  (fewer : ∀ row ∈ rows, selected row -> otherCounted (change row) ->
    counted row /\ amount (change row) <= amount row)
  (kept : ∀ row ∈ rows, ¬ selected row -> otherCounted row -> counted row) :
  sumWhere otherCounted amount (updateWhere selected change rows) <= sumWhere counted amount rows := by
  rw [sumWhere_eq, sumWhere_eq]
  unfold updateWhere
  rw [map_map]
  refine sum_le_sum ?_
  intro row mem
  rw [comp_apply]
  by_cases chosen : selected row
  · rw [if_pos chosen]
    by_cases counts : otherCounted (change row)
    · have before := fewer row mem chosen counts
      rw [if_pos counts, if_pos before.1]
      exact before.2
    · rw [if_neg counts]
      exact Nat.zero_le _
  · rw [if_neg chosen]
    by_cases counts : otherCounted row
    · rw [if_pos counts, if_pos (kept row mem chosen counts)]
    · rw [if_neg counts]
      exact Nat.zero_le _

theorem sumWhere_le_updateWhere (kept : ∀ row ∈ rows, selected row -> counted row ->
    amount row = 0 \/ (counted (change row) /\ amount row <= amount (change row))) :
  sumWhere counted amount rows <= sumWhere counted amount (updateWhere selected change rows) := by
  rw [sumWhere_eq, sumWhere_eq]
  unfold updateWhere
  rw [map_map]
  refine sum_le_sum ?_
  intro row mem
  rw [comp_apply]
  by_cases counts : counted row
  · rw [if_pos counts]
    by_cases chosen : selected row
    · rw [if_pos chosen]
      rcases kept row mem chosen counts with nothing | ⟨still, more⟩
      · rw [nothing]
        exact Nat.zero_le _
      · rw [if_pos still]
        exact more
    · rw [if_neg chosen, if_pos counts]
  · rw [if_neg counts]
    exact Nat.zero_le _

theorem sumWhere_mono {otherCounted : Row -> Bool} (fewer : ∀ row ∈ rows, otherCounted row -> counted row) :
  sumWhere otherCounted amount rows <= sumWhere counted amount rows := by
  have same := @sumWhere_updateWhere_le _ (fun _ => false) id rows counted amount otherCounted
    (fun _ _ chosen => absurd chosen false_ne_true) (fun row mem _ => fewer row mem)
  rw [updateWhere_eq_self fun _ _ => false_ne_true] at same
  exact same

theorem sumWhere_updateWhere_le_add {bound : ℕ}
  (small : ∀ row ∈ rows, selected row -> counted (change row) -> amount (change row) <= bound) :
  sumWhere counted amount (updateWhere selected change rows) <=
    sumWhere (fun row => counted row && !selected row) amount rows + bound * affected selected rows := by
  rw [sumWhere_eq, sumWhere_eq]
  unfold updateWhere affected
  induction rows with
  | nil => exact Nat.zero_le _
  | cons row rest ih =>
    have others := ih (fun other mem => small other (.tail _ mem))
    have own := small row mem_cons_self
    rw [map_cons, map_cons, map_cons, sum_cons, sum_cons, countP_cons]
    by_cases chosen : selected row
    · rw [if_pos chosen, if_pos chosen, chosen, Bool.not_true, Bool.and_false, if_neg Bool.false_ne_true, Nat.mul_add]
      by_cases counts : counted (change row)
      · have few := own chosen counts
        rw [if_pos counts]
        omega
      · rw [if_neg counts]
        omega
    · rw [if_neg chosen, if_neg chosen, Bool.eq_false_of_not_eq_true chosen, Bool.not_false, Bool.and_true,
        Nat.add_zero]
      omega

theorem sumWhere_deleteWhere_le : sumWhere counted amount (deleteWhere selected rows) <= sumWhere counted amount rows := by
  exact ((deleteWhere_sublist.filter counted).map amount).sum_le_sum (fun _ _ => Nat.zero_le _)

end Sums
end Rows
end BananaChat.Foundation

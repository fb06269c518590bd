import Mathlib.Data.List.Sort

namespace BananaChat.Foundation

open List

universe u v

/-!
# Largest first

A stable sort by a key, largest first.  It commutes with dropping elements, so what
stands before an element only changes by what was dropped.
-/

variable {Element : Type u} {Key : Type v} [LinearOrder Key]

def descending (key : Element -> Key) (elements : List Element) : List Element :=
  elements.insertionSort (fun first second => key second <= key first)

variable {key : Element -> Key} {elements : List Element} {element : Element}

theorem mem_descending : element ∈ descending key elements ↔ element ∈ elements := mem_insertionSort _

theorem descending_nodup : (descending key elements).Nodup ↔ elements.Nodup :=
  (perm_insertionSort _ elements).nodup_iff

theorem descending_pairwise (key : Element -> Key) (elements : List Element) :
  (descending key elements).Pairwise (fun first second => key second <= key first) := by
  have total : Std.Total (fun first second : Element => key second <= key first) := ⟨fun first second => le_total _ _⟩
  have trans : IsTrans Element (fun first second => key second <= key first) := ⟨fun _ _ _ first second => second.trans first⟩
  exact pairwise_insertionSort _ elements

variable {sorted : List Element}

theorem orderedInsert_filter (key : Element -> Key) (keeps : Element -> Bool) (element : Element)
  (pairwise : sorted.Pairwise fun first second => key second <= key first) :
  (sorted.orderedInsert (fun first second => key second <= key first) element).filter keeps =
    if keeps element then (sorted.filter keeps).orderedInsert (fun first second => key second <= key first) element
    else sorted.filter keeps := by
  induction sorted with
  | nil =>
    rw [orderedInsert_nil]
    cases kept : keeps element with
    | true => rw [if_pos rfl, filter_singleton, kept]; rfl
    | false => rw [if_neg Bool.false_ne_true, filter_singleton, kept]; rfl
  | cons head rest ih =>
    rcases pairwise_cons.mp pairwise with ⟨first, later⟩
    have rest' := ih later
    rw [orderedInsert_cons]
    by_cases before : key head <= key element
    · rw [if_pos before]
      have front : ((head :: rest).filter keeps).orderedInsert (fun first second => key second <= key first) element =
          element :: (head :: rest).filter keeps := by
        cases remaining : (head :: rest).filter keeps with
        | nil => rfl
        | cons next others =>
          refine orderedInsert_cons_of_le _ others ?_
          have mem : next ∈ head :: rest := mem_of_mem_filter (remaining ▸ mem_cons_self)
          rcases mem_cons.mp mem with same | inRest
          · rw [same]
            exact before
          · exact (first next inRest).trans before
      rw [front, filter_cons]
    · rw [if_neg before, filter_cons, filter_cons, rest']
      cases keptHead : keeps head with
      | false => rfl
      | true =>
        cases keeps element with
        | true =>
          exact (@orderedInsert_of_not_le _ (fun first second => key second <= key first) _ _ _ _ before).symm
        | false => rfl

theorem descending_filter (key : Element -> Key) (keeps : Element -> Bool) (elements : List Element) :
  descending key (elements.filter keeps) = (descending key elements).filter keeps := by
  induction elements with
  | nil => rfl
  | cons element rest ih =>
    have inserted := orderedInsert_filter key keeps element (descending_pairwise key rest)
    have unfolded : descending key (element :: rest) =
        (descending key rest).orderedInsert (fun first second => key second <= key first) element := rfl
    rw [unfolded, inserted, filter_cons]
    cases keeps element with
    | true =>
      rw [if_pos rfl, if_pos rfl, <- ih]
      rfl
    | false =>
      exact ih

theorem eq_above_append (pairwise : sorted.Pairwise fun first second => key second <= key first)
  (mem : element ∈ sorted) (only : ∀ other ∈ sorted, key other = key element -> other = element) :
  ∃ below, sorted = sorted.filter (key element < key ·) ++ element :: below := by
  induction sorted with
  | nil => cases mem
  | cons head rest ih =>
    rcases pairwise_cons.mp pairwise with ⟨first, later⟩
    by_cases same : head = element
    · rw [same] at first ⊢
      have none : (element :: rest).filter (key element < key ·) = [] := by
        rw [filter_eq_nil_iff]
        intro other isOther
        rcases mem_cons.mp isOther with isElement | inRest
        · rw [isElement]
          simp
        · simp [first other inRest]
      exact ⟨rest, by rw [none, nil_append]⟩
    · have inRest : element ∈ rest := (mem_cons.mp mem).resolve_left (same ·.symm)
      have larger : key element < key head :=
        lt_of_le_of_ne (first element inRest) (fun equal => same (only head (.head _) equal.symm))
      rcases ih later inRest (fun other isOther => only other (.tail _ isOther)) with ⟨below, isRest⟩
      refine ⟨below, ?_⟩
      rw [filter_cons, if_pos (decide_eq_true larger), cons_append, <- isRest]

end BananaChat.Foundation

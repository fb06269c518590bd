import Mathlib.Data.List.Induction
import Mathlib.Data.List.Nodup

namespace BananaChat.Foundation

open List Prod

universe u v

/-!
# Dictionaries in the order of insertion

A dictionary is the list of its entries, with each key once.
-/

namespace Dictionary

variable {Key : Type u} {Value : Type v} [DecidableEq Key]

/-- `entries[key] = value`. -/
def put (key : Key) (value : Value) : List (Key × Value) -> List (Key × Value)
  | [] => [(key, value)]
  | (other, old) :: rest => if other = key then (key, value) :: rest else (other, old) :: put key value rest

/-- `entries.get(key)`. -/
def get? (key : Key) : List (Key × Value) -> Option Value
  | [] => none
  | (other, value) :: rest => if other = key then some value else get? key rest

def ofEntries (entries : List (Key × Value)) : List (Key × Value) :=
  entries.foldl (fun found entry => put entry.1 entry.2 found) []

theorem get?_put (key other : Key) (value : Value) (entries : List (Key × Value)) :
  get? other (put key value entries) = if key = other then some value else get? other entries := by
  induction entries with
  | nil => rfl
  | cons entry rest ih =>
    rcases entry with ⟨first, _⟩
    unfold put
    by_cases isKey : first = key
    · subst isKey
      rw [if_pos rfl]
      unfold get?
      by_cases same : first = other
      · rw [if_pos same, if_pos same]
      · rw [if_neg same, if_neg same, if_neg same]
    · rw [if_neg isKey]
      unfold get?
      rw [ih]
      by_cases isOther : first = other
      · subst isOther
        rw [if_pos rfl, if_neg (Ne.symm isKey), if_pos rfl]
      · rw [if_neg isOther, if_neg isOther]

variable {entries : List (Key × Value)} {key : Key}

theorem mem_keys_put {other : Key} {value : Value} :
  other ∈ (put key value entries).map fst ↔ other = key \/ other ∈ entries.map fst := by
  induction entries with
  | nil => simp [put]
  | cons entry rest ih =>
    rcases entry with ⟨first, _⟩
    unfold put
    by_cases isKey : first = key
    · rw [if_pos isKey, isKey]
      simp
    · rw [if_neg isKey, map_cons, mem_cons, ih, map_cons, mem_cons]
      exact or_left_comm

theorem nodup_put (distinct : (entries.map fst).Nodup) (key : Key) (value : Value) :
  ((put key value entries).map fst).Nodup := by
  induction entries with
  | nil => simp [put]
  | cons entry rest ih =>
    rcases entry with ⟨first, _⟩
    rcases nodup_cons.mp distinct with ⟨fresh, others⟩
    unfold put
    by_cases isKey : first = key
    · rw [if_pos isKey]
      exact isKey ▸ distinct
    · rw [if_neg isKey, map_cons]
      refine nodup_cons.mpr ⟨?_, ih others⟩
      intro mem
      rcases mem_keys_put.mp mem with same | isLater
      · exact isKey same
      · exact fresh isLater

theorem mem_iff_get? (distinct : (entries.map fst).Nodup) {value : Value} :
  (key, value) ∈ entries ↔ get? key entries = some value := by
  induction entries with
  | nil => simp [get?]
  | cons entry rest ih =>
    rcases entry with ⟨first, old⟩
    rcases nodup_cons.mp distinct with ⟨fresh, others⟩
    unfold get?
    by_cases isKey : first = key
    · rw [if_pos isKey, <- isKey]
      have absent : (first, value) ∉ rest := fun mem => fresh (mem_map.mpr ⟨_, mem, rfl⟩)
      simp [absent, eq_comm]
    · rw [if_neg isKey, <- ih others]
      have apart : ¬ (key = first /\ value = old) := fun same => isKey same.1.symm
      simp [apart]

theorem get?_isSome_iff : (get? key entries).isSome ↔ key ∈ entries.map fst := by
  induction entries with
  | nil => simp [get?]
  | cons entry rest ih =>
    rcases entry with ⟨first, _⟩
    unfold get?
    by_cases isKey : first = key
    · simp [isKey]
    · rw [if_neg isKey, ih, map_cons, mem_cons]
      exact ⟨.inr, fun either => either.resolve_left (Ne.symm isKey)⟩

theorem ofEntries_append (entries : List (Key × Value)) (entry : Key × Value) :
  ofEntries (entries ++ [entry]) = put entry.1 entry.2 (ofEntries entries) := by
  unfold ofEntries
  rw [foldl_append]
  rfl

theorem nodup_ofEntries (entries : List (Key × Value)) : ((ofEntries entries).map fst).Nodup := by
  induction entries using reverseRecOn with
  | nil => exact nodup_nil
  | append_singleton entries entry ih =>
    rw [ofEntries_append]
    exact nodup_put ih _ _

theorem mem_keys_ofEntries : key ∈ (ofEntries entries).map fst ↔ key ∈ entries.map fst := by
  induction entries using reverseRecOn with
  | nil => rfl
  | append_singleton entries entry ih =>
    rw [ofEntries_append, mem_keys_put, ih, map_append, mem_append, or_comm]
    simp

theorem get?_ofEntries (entries : List (Key × Value)) (key : Key) :
  get? key (ofEntries entries) = ((entries.filter (·.1 = key)).getLast?).map snd := by
  induction entries using reverseRecOn with
  | nil => rfl
  | append_singleton entries entry ih =>
    rw [ofEntries_append, get?_put, filter_append]
    by_cases isKey : entry.1 = key
    · rw [if_pos isKey, filter_singleton, decide_eq_true isKey]
      simp
    · rw [if_neg isKey, filter_singleton, decide_eq_false isKey]
      simp [ih]

theorem put_absent {value : Value} (absent : key ∉ entries.map Prod.fst) : put key value entries = entries ++ [(key, value)] := by
  induction entries with
  | nil => rfl
  | cons entry rest ih =>
    rcases entry with ⟨_, _⟩
    rw [map_cons, mem_cons, not_or] at absent
    unfold put
    rw [if_neg (Ne.symm absent.1), ih absent.2]
    rfl

theorem ofEntries_self (distinct : (entries.map Prod.fst).Nodup) : ofEntries entries = entries := by
  induction entries using reverseRecOn with
  | nil => rfl
  | append_singleton entries entry ih =>
    rw [map_append, nodup_append] at distinct
    rw [ofEntries_append, ih distinct.1]
    apply put_absent
    intro mem
    exact distinct.2.2 _ mem _ (.head _) rfl

end Dictionary

end BananaChat.Foundation

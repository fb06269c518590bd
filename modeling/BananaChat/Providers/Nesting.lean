import BananaChat.Providers.Json

namespace BananaChat.Providers.Json

open List

/-!
# The nesting guard under any bounds

Its stack holds the values that are still to be counted, the next one first.
-/

theorem child_lt {child value : Json} (mem : child ∈ value.children) : sizeOf child < sizeOf value := by
  cases value with
  | array items =>
    have inside : sizeOf child < sizeOf items := sizeOf_lt_of_mem mem
    simp only [array.sizeOf_spec]
    omega
  | object entries =>
    rcases mem_map.mp mem with ⟨entry, isEntry, rfl⟩
    have inside := sizeOf_lt_of_mem isEntry
    have second : sizeOf entry.2 < sizeOf entry := by
      cases entry
      simp only [Prod.mk.sizeOf_spec]
      omega
    simp only [object.sizeOf_spec]
    omega
  | _ => cases mem

def depth (value : Json) : ℕ := (value.children.attach.map fun child => depth child.1 + 1).foldr max 0
termination_by sizeOf value
decreasing_by exact child_lt child.2

def nodes (value : Json) : ℕ := (value.children.attach.map fun child => nodes child.1).sum + 1
termination_by sizeOf value
decreasing_by exact child_lt child.2

theorem nodes_eq (value : Json) : value.nodes = (value.children.map nodes).sum + 1 := by
  rw [nodes, attach_map_val]

/-- `nesting_too_deep` from a stack on, after `counted` values. -/
def tooDeepFrom (maxDepth maxNodes : ℤ) : List (Json × ℤ) -> ℤ -> Bool
  | [], _ => false
  | (item, depth) :: stack, counted =>
    if maxDepth < depth \/ maxNodes < counted + 1 then true
    else tooDeepFrom maxDepth maxNodes ((item.children.map (·, depth + 1)).reverse ++ stack) (counted + 1)
termination_by stack => (stack.map (nodes ·.1)).sum
decreasing_by simp [nodes_eq item, sum_reverse, Function.comp_def]

def tooDeep (value : Json) (maxDepth maxNodes : ℤ) : Bool := tooDeepFrom maxDepth maxNodes [(value, 0)] 0

variable {maxDepth maxNodes : ℤ}

theorem lt_foldr (level : ℤ) (measure : Json -> ℕ) (values : List Json) :
  maxDepth < level + ((values.map (measure · + 1)).foldr max 0 : ℕ) ↔
    maxDepth < level \/ ∃ value ∈ values, maxDepth < level + 1 + measure value := by
  induction values with
  | nil => simp
  | cons value rest ih =>
    have either (first second : ℕ) : maxDepth < level + (max first second : ℕ) ↔ maxDepth < level + first \/ maxDepth < level + second := by
      omega
    have here : level + ((measure value + 1 : ℕ) : ℤ) = level + 1 + measure value := by omega
    rw [map_cons, foldr_cons, either, ih, here, or_left_comm]
    simp

theorem lt_depth (value : Json) (level : ℤ) :
  maxDepth < level + value.depth ↔ maxDepth < level \/ ∃ child ∈ value.children, maxDepth < level + 1 + child.depth := by
  rw [depth, attach_map_val (f := (depth · + 1)), lt_foldr]

/-- What the loop finds: a value of the stack that is too deep, or too many values in all. -/
theorem tooDeepFrom_iff (stack : List (Json × ℤ)) (counted : ℤ) (within : stack = [] -> counted <= maxNodes) :
  tooDeepFrom maxDepth maxNodes stack counted ↔
    (∃ entry ∈ stack, maxDepth < entry.2 + entry.1.depth) \/ maxNodes < counted + (stack.map (nodes ·.1)).sum := by
  induction stack, counted using tooDeepFrom.induct maxDepth maxNodes with
  | case1 counted => simp [tooDeepFrom, within rfl]
  | case2 item level stack counted exceeds =>
    rw [tooDeepFrom, if_pos exceeds]
    refine iff_of_true rfl ?_
    have positive : 0 < item.nodes := nodes_eq item ▸ Nat.succ_pos _
    rw [map_cons, sum_cons]
    rcases exceeds with deep | _
    · exact .inl ⟨_, mem_cons_self, deep.trans_le (le_add_of_nonneg_right (Int.natCast_nonneg _))⟩
    · exact .inr (by dsimp only; omega)
  | case3 item level stack counted below ih =>
    have total : (((item.children.map (·, level + 1)).reverse ++ stack).map (nodes ·.1)).sum + 1 =
        (((item, level) :: stack).map (nodes ·.1)).sum := by
      simp only [map_append, map_reverse, map_map, sum_append, sum_reverse, map_cons, sum_cons, nodes_eq item]
      change (item.children.map nodes).sum + _ + 1 = _
      omega
    have shallow : ¬ maxDepth < level := fun deep => below (.inl deep)
    rw [tooDeepFrom, if_neg below, ih fun _ => by omega, <- total]
    simp only [mem_cons, exists_eq_left, mem_append, mem_reverse, mem_map, or_and_right, exists_or, exists_exists_and_eq_and]
    rw [lt_depth item level, or_iff_right shallow]
    refine or_congr Iff.rfl ?_
    omega

/-- The guard tells exactly the values that are too deep or too large. -/
theorem tooDeep_iff (value : Json) (maxDepth maxNodes : ℤ) :
  value.tooDeep maxDepth maxNodes ↔ maxDepth < value.depth \/ maxNodes < value.nodes := by
  simp [tooDeep, tooDeepFrom_iff]

end BananaChat.Providers.Json

import Mathlib.Data.Rat.Floor
import BananaChat.Foundation.LazyWindow

namespace BananaChat.Limits

open Foundation List LazyWindow

/-!
# The 5-hour and weekly windows

`limit_windows` keeps, for one account and scope, when its 5-hour and its weekly window were opened
last.
-/

def windowSeconds : ℤ := 5 * 3600
def weekSeconds : ℤ := 7 * 86400

/-- `POOLS`. -/
inductive Pool
  | api
  | chat
  | agent
deriving DecidableEq

inductive Scope
  | pool (pool : Pool)
  | model (modelId : ℕ)
deriving DecidableEq

/-- A row of `limit_windows`, whose key is the account and the scope. -/
structure LimitWindow where
  userId : ℕ
  scope : Scope
  windowStartedAt : Option ℤ
  weekStartedAt : Option ℤ

/-- The `CASE` of one column in the upsert: a start at or before the cutoff
gives way to the new stamp. -/
def reopen (cutoff stamp : ℤ) (started : Option ℤ) : Option ℤ :=
  match started with
  | none => some stamp
  | some start => if start <= cutoff then some stamp else some start

/-- The upsert of `open_windows` for one scope. -/
def openWindow (userId : ℕ) (now : ℚ) (rows : List LimitWindow) (scope : Scope) : List LimitWindow :=
  let stamp := ⌊now⌋
  let windowCutoff := ⌊now - windowSeconds⌋
  let weekCutoff := ⌊now - weekSeconds⌋
  if rows.any (fun row => row.userId = userId /\ row.scope = scope) then
    rows.map (fun row =>
      if row.userId = userId /\ row.scope = scope then
        { row with
          windowStartedAt := reopen windowCutoff stamp row.windowStartedAt
          weekStartedAt := reopen weekCutoff stamp row.weekStartedAt }
      else row)
  else rows ++ [⟨userId, scope, some stamp, some stamp⟩]

def openWindows (rows : List LimitWindow) (userId : ℕ) (scopes : List Scope) (now : ℚ) : List LimitWindow :=
  scopes.foldl (openWindow userId now) rows

/-- `windows`: the stored starts of one account and scope, open or not. -/
def storedWindow (rows : List LimitWindow) (userId : ℕ) (scope : Scope) : Option ℤ × Option ℤ :=
  match rows.find? (fun row => row.userId = userId /\ row.scope = scope) with
  | none => (none, none)
  | some row => (row.windowStartedAt, row.weekStartedAt)

/-- `_open_since`: when a stored window started, if it is still open. -/
def openSince (startedAt : Option ℤ) (length : ℤ) (now : ℚ) : Option ℤ :=
  match startedAt with
  | none => none
  | some start => if (start : ℚ) + length <= now then none else some start

theorem floor_sub_whole (now : ℚ) (length : ℤ) : ⌊now - length⌋ = ⌊now⌋ - length := Int.floor_sub_intCast now length

theorem reopen_eq_renew (now : ℚ) (length : ℤ) (started : Option ℤ) :
  reopen ⌊now - length⌋ ⌊now⌋ started = some (renew length started ⌊now⌋) := by
  cases started with
  | none => rfl
  | some start =>
    simp only [reopen, renew, floor_sub_whole]
    by_cases ended : start <= ⌊now⌋ - length
    · rw [if_pos ended, if_neg (by omega)]
    · rw [if_neg ended, if_pos (by omega)]

private theorem find?_map_of_key {Row : Type} (rows : List Row) (change : Row -> Row) (selected : Row -> Bool)
  (kept : ∀ row, selected (change row) = selected row) :
  (rows.map change).find? selected = (rows.find? selected).map change := by
  rw [find?_map]
  exact congrArg (fun found => Option.map change (rows.find? found)) (funext kept)

section

variable (rows : List LimitWindow) (userId : ℕ)
include rows userId

theorem storedWindow_openWindow (scope : Scope) (now : ℚ) :
  storedWindow (openWindow userId now rows scope) userId scope =
    (reopen ⌊now - windowSeconds⌋ ⌊now⌋ (storedWindow rows userId scope).1,
      reopen ⌊now - weekSeconds⌋ ⌊now⌋ (storedWindow rows userId scope).2) := by
  unfold openWindow storedWindow
  cases found : rows.find? (fun row => row.userId = userId /\ row.scope = scope) with
  | none =>
    have absent : rows.any (fun row => row.userId = userId /\ row.scope = scope) = false := by
      rw [<- Bool.not_eq_true, any_eq_true]
      rintro ⟨row, mem, selected⟩
      exact find?_eq_none.mp found row mem selected
    simp only [absent, Bool.false_eq_true, if_false, find?_append, found, Option.none_or]
    simp [reopen]
  | some row =>
    have selected := find?_some found
    have present : rows.any (fun row => row.userId = userId /\ row.scope = scope) :=
      any_eq_true.mpr ⟨row, mem_of_find?_eq_some found, selected⟩
    simp only [present, if_true]
    rw [find?_map_of_key _ _ _ (fun row => by split <;> rfl), found]
    simp only [Option.map_some, if_pos (of_decide_eq_true selected)]

theorem storedWindow_openWindow_of_ne (scope : Scope) (now : ℚ) (other : ℕ)
  (otherScope : Scope) (different : ¬ (userId = other /\ scope = otherScope)) :
  storedWindow (openWindow userId now rows scope) other otherScope = storedWindow rows other otherScope := by
  unfold openWindow storedWindow
  by_cases present : rows.any (fun row => row.userId = userId /\ row.scope = scope)
  · simp only [present, if_true]
    rw [find?_map_of_key _ _ _ fun row => by split <;> rfl]
    cases found : rows.find? (fun row => row.userId = other /\ row.scope = otherScope) with
    | none => rfl
    | some row =>
      have selected : row.userId = other /\ row.scope = otherScope := by simpa using find?_some found
      have untouched : ¬ (row.userId = userId /\ row.scope = scope) := by
        rintro ⟨owner, kind⟩
        exact different ⟨owner.symm.trans selected.1, kind.symm.trans selected.2⟩
      simp only [Option.map_some, if_neg untouched]
  · have unselected : ([⟨userId, scope, some ⌊now⌋, some ⌊now⌋⟩] : List LimitWindow).find?
        (fun row => decide (row.userId = other /\ row.scope = otherScope)) = none := by
      simpa using different
    simp only [if_neg present, find?_append, unselected, Option.or_none]

theorem storedWindow_openWindows (scopes : List Scope) (now : ℚ) (distinct : scopes.Nodup) (other : ℕ) (scope : Scope) :
  storedWindow (openWindows rows userId scopes now) other scope = if other = userId /\ scope ∈ scopes then
      (some (renew windowSeconds (storedWindow rows other scope).1 ⌊now⌋),
        some (renew weekSeconds (storedWindow rows other scope).2 ⌊now⌋))
    else storedWindow rows other scope := by
  induction scopes generalizing rows with
  | nil => simp [openWindows]
  | cons head rest ih =>
    rw [nodup_cons] at distinct
    change storedWindow (openWindows (openWindow userId now rows head) userId rest now) other scope = _
    rw [ih _ distinct.2]
    by_cases same : userId = other /\ head = scope
    · rcases same with ⟨rfl, rfl⟩
      rw [if_neg (distinct.1 ·.2), if_pos ⟨rfl, mem_cons_self⟩, storedWindow_openWindow,
        reopen_eq_renew, reopen_eq_renew]
    · rw [storedWindow_openWindow_of_ne _ _ _ _ _ _ same]
      by_cases owner : other = userId
      · have otherHead : scope ≠ head := fun equal => same ⟨owner.symm, equal.symm⟩
        simp [owner, otherHead]
      · simp only [owner, false_and, if_false]

end

/-- The two readers of a stored start agree at every instant: the service calls
the window open exactly when a counted request made then would keep it. -/
theorem openSince_isSome_iff (started : Option ℤ) (length : ℤ) (positive : 0 < length) (now : ℚ) :
  (openSince started length now).isSome ↔ reopen ⌊now - length⌋ ⌊now⌋ started = started := by
  cases started with
  | none => simp [openSince, reopen]
  | some start =>
    rw [reopen_eq_renew, Option.some_inj]
    have boundary : (start : ℚ) + length <= now ↔ start + length <= ⌊now⌋ := by
      rw [Int.le_floor]
      push_cast
      rfl
    simp only [openSince, renew]
    by_cases ended : start + length <= ⌊now⌋
    · rw [if_pos (boundary.mpr ended), if_neg (not_lt.mpr ended)]
      constructor
      · intro clash
        cases clash
      · intro _
        omega
    · rw [if_neg (fun late => ended (boundary.mp late)), if_pos (not_le.mp ended)]
      exact ⟨fun _ => rfl, fun _ => rfl⟩

end BananaChat.Limits

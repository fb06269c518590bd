import BananaChat.Foundation.Machine
import BananaChat.Credits.Ledger

namespace BananaChat.Credits

open Limits List

/-!
# What an account has used

`starts` finds the open windows of an account and since when each counts; `usage` sums the counted
tokens of the ledger from there, in one query over both windows.
-/

/-- `9999-12-31 23:59:59` in seconds since the epoch: the start of a window
that is not open. -/
def never : ℤ := 253402300799

/-- A row of `image_credit_reservations`: allowance held for an image or for an
answer that is running. -/
structure Reservation where
  id : ℕ
  userId : ℕ
  tokenId : Option ℕ
  modelId : Option ℕ
  creditsReserved : ℚ
  createdAt : ℤ
  updatedAt : Option ℤ
deriving DecidableEq

/-- Manual resets: of the account (`usage_reset_at`, `weekly_reset_at`) and of
the site. -/
structure Resets where
  usageResetAt : Option ℤ
  weeklyResetAt : Option ℤ
  globalWindow : Option ℤ
  globalWeek : Option ℤ

def noResets : Resets := ⟨none, none, none, none⟩

def latest (stamps : List (Option ℤ)) : Option ℤ := stamps.reduceOption.max?

/-- The result of `_starts`. -/
structure Starts where
  windowStart : Option ℤ
  weekStart : Option ℤ
  windowSince : Option ℤ
  weekSince : Option ℤ

/-- `_starts`: the open windows, and since when each counts. -/
def starts (windows : List LimitWindow) (userId : ℕ) (scope : Scope) (resets : Resets) (now : ℚ) : Starts :=
  let stored := storedWindow windows userId scope
  let windowStart := openSince stored.1 windowSeconds now
  let weekStart := openSince stored.2 weekSeconds now
  { windowStart := windowStart
    weekStart := weekStart
    windowSince :=
      if windowStart.isSome then
        latest [windowStart, resets.usageResetAt, resets.weeklyResetAt, resets.globalWindow, resets.globalWeek]
      else none
    weekSince :=
      if weekStart.isSome then latest [weekStart, resets.weeklyResetAt, resets.globalWeek] else none }

section

variable (ledger : List LedgerRow)

/-- The ledger rows `usage` reads. -/
def usageRows (userId : ℕ) (pool : Pool) (earliest : ℤ) : List LedgerRow :=
  ledger.filter (fun row => row.userId = userId /\ earliest <= row.createdAt /\ poolOf row.requestType = pool)

/-- `SUM(CASE WHEN created_at>=since THEN credits_used ELSE 0 END)`. -/
def creditsSince (rows : List LedgerRow) (since : ℤ) : ℚ :=
  (rows.map fun row => if since <= row.createdAt then row.creditsUsed else 0).sum

def reservedCredits (reservations : List Reservation) (userId : ℕ) (pool : Pool) : ℚ :=
  match pool with
  | .api => ((reservations.filter (·.userId = userId)).map Reservation.creditsReserved).sum
  | .chat => 0
  | .agent => 0

/-- `usage`: the tokens counted since the 5-hour and since the weekly window
opened, with the pending reservations. -/
def usage (reservations : List Reservation) (userId : ℕ) (pool : Pool)
  (windowSince weeklySince : Option ℤ) : ℚ × ℚ :=
  let starts := [windowSince, weeklySince].reduceOption
  if starts = [] /\ pool ≠ .api then (0, 0)
  else
    let rows := usageRows ledger userId pool (starts.min?.getD never)
    let reserved := reservedCredits reservations userId pool
    (creditsSince rows (windowSince.getD never) * tokensPerCredit + reserved * tokensPerCredit,
      creditsSince rows (weeklySince.getD never) * tokensPerCredit + reserved * tokensPerCredit)

/-- The counted tokens of one pool since one window opened, or nothing when it
is not open. -/
def countedSince (userId : ℕ) (pool : Pool) (since : Option ℤ) : ℚ :=
  match since with
  | none => 0
  | some start => ((usageRows ledger userId pool start).map LedgerRow.creditsUsed).sum * tokensPerCredit

end

theorem usageRows_cons (row : LedgerRow) (rest : List LedgerRow) (userId : ℕ) (pool : Pool) (earliest : ℤ) :
  usageRows (row :: rest) userId pool earliest =
    if row.userId = userId /\ earliest <= row.createdAt /\ poolOf row.requestType = pool then
      row :: usageRows rest userId pool earliest
    else usageRows rest userId pool earliest := by
  simp only [usageRows, filter_cons, decide_eq_true_eq]

theorem creditsSince_cons (row : LedgerRow) (rest : List LedgerRow) (since : ℤ) : creditsSince (row :: rest) since =
    (if since <= row.createdAt then row.creditsUsed else 0) + creditsSince rest since := by
  simp [creditsSince]

private theorem creditsSince_usageRows (ledger : List LedgerRow) (userId : ℕ) (pool : Pool) (earliest since : ℤ)
  (before : earliest <= since) :
  creditsSince (usageRows ledger userId pool earliest) since =
    ((usageRows ledger userId pool since).map LedgerRow.creditsUsed).sum := by
  induction ledger with
  | nil => rfl
  | cons row rest ih =>
    rw [usageRows_cons, usageRows_cons]
    by_cases ours : row.userId = userId /\ poolOf row.requestType = pool
    · by_cases late : since <= row.createdAt
      · rw [if_pos ⟨ours.1, before.trans late, ours.2⟩, if_pos ⟨ours.1, late, ours.2⟩, creditsSince_cons, if_pos late,
          map_cons, sum_cons, ih]
      · have unread : ¬ (row.userId = userId /\ since <= row.createdAt /\ poolOf row.requestType = pool) :=
          fun selected => late selected.2.1
        split
        · rw [creditsSince_cons, if_neg late, zero_add, ih]
        · exact ih
    · rw [if_neg (fun selected => ours ⟨selected.1, selected.2.2⟩),
        if_neg (fun selected => ours ⟨selected.1, selected.2.2⟩), ih]

private theorem usageRows_eq_nil {ledger : List LedgerRow} (dated : ∀ row ∈ ledger, row.createdAt < never)
  (userId : ℕ) (pool : Pool) {earliest : ℤ} (late : never <= earliest) : usageRows ledger userId pool earliest = [] := by
  rw [usageRows, filter_eq_nil_iff]
  intro row mem selected
  have after := (of_decide_eq_true selected).2.1
  exact absurd ((dated row mem).trans_le late) (not_lt.mpr after)

/-- One figure of the query: rows before the earliest start are not missed,
because a closed window counts from a start after every row. -/
private theorem creditsSince_getD {ledger : List LedgerRow} (dated : ∀ row ∈ ledger, row.createdAt < never)
  (userId : ℕ) (pool : Pool) (since : Option ℤ) (earliest : ℤ)
  (before : ∀ start, since = some start -> earliest <= start) :
  creditsSince (usageRows ledger userId pool earliest) (since.getD never) * tokensPerCredit =
    countedSince ledger userId pool since := by
  cases since with
  | none =>
    rw [Option.getD_none]
    by_cases late : earliest <= never
    · rw [creditsSince_usageRows ledger userId pool earliest never late, usageRows_eq_nil dated userId pool (le_refl never)]
      simp [countedSince]
    · rw [usageRows_eq_nil dated userId pool (not_le.mp late).le]
      simp [countedSince, creditsSince]
  | some start =>
    rw [Option.getD_some, creditsSince_usageRows ledger userId pool earliest start (before start rfl)]
    rfl

theorem usage_eq {ledger : List LedgerRow} (dated : ∀ row ∈ ledger, row.createdAt < never)
  (reservations : List Reservation) (userId : ℕ) (pool : Pool) (windowSince weeklySince : Option ℤ) :
  usage ledger reservations userId pool windowSince weeklySince =
    (countedSince ledger userId pool windowSince + reservedCredits reservations userId pool * tokensPerCredit,
      countedSince ledger userId pool weeklySince + reservedCredits reservations userId pool * tokensPerCredit) := by
  have earliest : (∀ start, windowSince = some start ->
        [windowSince, weeklySince].reduceOption.min?.getD never <= start) /\
      (∀ start, weeklySince = some start -> [windowSince, weeklySince].reduceOption.min?.getD never <= start) := by
    constructor
    · rintro start rfl
      cases weeklySince with
      | none => exact le_refl start
      | some week => exact min_le_left start week
    · rintro start rfl
      cases windowSince with
      | none => exact le_refl start
      | some window => exact min_le_right window start
  unfold usage
  by_cases closed : [windowSince, weeklySince].reduceOption = [] /\ pool ≠ .api
  · rw [if_pos closed]
    rcases closed with ⟨noStarts, notApi⟩
    cases windowSince with
    | some window => cases weeklySince <;> cases noStarts
    | none =>
      cases weeklySince with
      | some week => cases noStarts
      | none =>
        cases pool with
        | api => exact absurd rfl notApi
        | chat | agent => simp [countedSince, reservedCredits]
  · simp only [if_neg closed, creditsSince_getD dated userId pool windowSince _ earliest.1,
      creditsSince_getD dated userId pool weeklySince _ earliest.2]

theorem starts_noResets (windows : List LimitWindow) (userId : ℕ) (scope : Scope) (now : ℚ) :
  (starts windows userId scope noResets now).windowSince =
      openSince (storedWindow windows userId scope).1 windowSeconds now /\
    (starts windows userId scope noResets now).weekSince =
      openSince (storedWindow windows userId scope).2 weekSeconds now := by
  constructor
  · simp only [starts, noResets]
    cases openSince (storedWindow windows userId scope).1 windowSeconds now <;> rfl
  · simp only [starts, noResets]
    cases openSince (storedWindow windows userId scope).2 weekSeconds now <;> rfl

end BananaChat.Credits

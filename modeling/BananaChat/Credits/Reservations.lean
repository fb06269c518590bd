import BananaChat.Credits.Usage

namespace BananaChat.Credits

open Foundation

/-!
# Held allowance

An answer is charged when it ends, so what it may cost is held before it runs, as a row of
`image_credit_reservations` that counts as used.
-/

def Hundredths (amount : ℚ) : Prop := ∃ hundredths : ℕ, amount = hundredths / 100

namespace Hundredths

theorem ofNat (amount : ℕ) : Hundredths amount := ⟨amount * 100, by push_cast; ring⟩

theorem zero : Hundredths 0 := ⟨0, by norm_num⟩

theorem add {first second : ℚ} (firstExact : Hundredths first) (secondExact : Hundredths second) :
  Hundredths (first + second) := by
  rcases firstExact with ⟨one, rfl⟩
  rcases secondExact with ⟨two, rfl⟩
  refine ⟨one + two, ?_⟩
  push_cast
  ring

theorem min {first second : ℚ} (firstExact : Hundredths first) (secondExact : Hundredths second) :
  Hundredths (Min.min first second) := by
  rcases min_choice first second with same | same
  · rw [same]
    exact firstExact
  · rw [same]
    exact secondExact

theorem left {used : ℚ} (exact : Hundredths used) (limit : ℕ) : Hundredths (max 0 ((limit : ℚ) - used)) := by
  rcases exact with ⟨hundredths, rfl⟩
  by_cases within : hundredths <= limit * 100
  · refine ⟨limit * 100 - hundredths, ?_⟩
    have bound : (hundredths : ℚ) <= limit * 100 := by exact_mod_cast within
    rw [max_eq_right (by linarith), Nat.cast_sub within]
    push_cast
    ring
  · refine ⟨0, ?_⟩
    have bound : (limit : ℚ) * 100 <= hundredths := by exact_mod_cast (not_le.mp within).le
    rw [max_eq_left (by linarith)]
    norm_num

theorem list_sum {amounts : List ℚ} (exact : ∀ amount ∈ amounts, Hundredths amount) : Hundredths amounts.sum := by
  induction amounts with
  | nil => exact zero
  | cons amount rest ih =>
    exact (exact amount List.mem_cons_self).add
      (ih fun other mem => exact other (List.mem_cons_of_mem _ mem))

end Hundredths

/-- `round(amount, 2)`, to the even hundredth at a half. -/
def roundHundredths (amount : ℚ) : ℚ :=
  let low := ⌊amount * 100⌋
  let rest := amount * 100 - low
  let rounded := if rest < 1 / 2 then low else if 1 / 2 < rest then low + 1 else if low % 2 = 0 then low else low + 1
  rounded / 100

theorem roundHundredths_exact {amount : ℚ} (exact : Hundredths amount) : roundHundredths amount = amount := by
  rcases exact with ⟨hundredths, rfl⟩
  have scaled : (hundredths : ℚ) / 100 * 100 = ((hundredths : ℤ) : ℚ) := by
    push_cast
    ring
  unfold roundHundredths
  norm_num

/-- `image_credit_reservations`, with the next id of its `AUTOINCREMENT` key. -/
structure Reservations where
  rows : List Reservation
  nextId : ℕ

/-- `hold_answer`: the table, and the new reservation's id. -/
def holdAnswer (reservations : Reservations) (userId : ℕ) (tokens : ℚ) (modelId tokenId : Option ℕ) (now : ℚ) :
  Reservations × ℕ :=
  let stamp := ⌊now⌋
  let row : Reservation :=
    { id := reservations.nextId
      userId := userId
      tokenId := tokenId
      modelId := modelId
      creditsReserved := tokensToCredits tokens
      createdAt := stamp
      updatedAt := some stamp }
  ({ rows := reservations.rows ++ [row], nextId := reservations.nextId + 1 }, reservations.nextId)

def refundReservation (reservationId : Option ℕ) (reservations : Reservations) : Reservations :=
  match reservationId with
  | none => reservations
  | some id => { reservations with rows := Rows.deleteWhere (·.id = id) reservations.rows }

def touchReservation (reservationId : ℕ) (now : ℚ) (reservations : Reservations) : Reservations :=
  { reservations with
    rows := Rows.updateWhere (·.id = reservationId) (fun row => { row with updatedAt := some ⌊now⌋ })
      reservations.rows }

/-- Whether `purge_expired_reservations` deletes a row. -/
def Reservation.expired (ttlSeconds now : ℚ) (row : Reservation) : Bool :=
  row.updatedAt.getD row.createdAt < ⌊now - ttlSeconds⌋

def purgeExpiredReservations (ttlSeconds now : ℚ) (reservations : Reservations) : Reservations :=
  { reservations with rows := Rows.deleteWhere (Reservation.expired ttlSeconds now) reservations.rows }

/-- `UNLIMITED`. -/
def unlimitedTokens : ℕ := 10 ^ 12

/-- The tokens of an account's 5-hour and weekly windows in one pool, as
`effective` works them out; none where the window is not limited. -/
structure TokenLimits where
  window : Option ℕ
  weekly : Option ℕ

/-- `Budget`, without the times of its windows. -/
structure Budget where
  unlimited : Bool
  regularLimit : ℕ
  regularUsed : ℚ
  weeklyLimit : Option ℕ
  weeklyUsed : ℚ

namespace Budget

def weeklyLeft (budget : Budget) : ℚ :=
  if budget.unlimited then unlimitedTokens
  else
    match budget.weeklyLimit with
    | none => unlimitedTokens
    | some limit => max 0 ((limit : ℚ) - budget.weeklyUsed)

def regularLeft (budget : Budget) : ℚ :=
  if budget.unlimited then unlimitedTokens
  else min (max 0 ((budget.regularLimit : ℚ) - budget.regularUsed)) budget.weeklyLeft

def available (budget : Budget) : Bool := budget.unlimited || (0 < budget.regularLeft)

end Budget

def adminBudget : Budget := ⟨true, unlimitedTokens, 0, none, 0⟩

/-- `effective(user, pool).budget()`, from the figures of `usage`. -/
def budget (admin : Bool) (limits : TokenLimits) (used : ℚ × ℚ) : Budget :=
  if admin \/ (limits.window = none /\ limits.weekly = none) then adminBudget
  else
    { unlimited := false
      regularLimit := limits.window.getD unlimitedTokens
      regularUsed := roundHundredths used.1
      weeklyLimit := limits.weekly
      weeklyUsed := roundHundredths used.2 }

/-- The amount `_take_hold` holds for an answer whose prompt and longest output
are estimated at `estimate` tokens. -/
def takeHold (budget : Budget) (weight : ℚ) (estimate : ℕ) : Option ℚ :=
  if budget.unlimited then none
  else
    let wanted := estimate * weight
    let tokens := min wanted budget.regularLeft
    if 0 < tokens then some tokens else none

variable {tokens : ℚ}

theorem Budget.fits {budget : Budget} (metered : budget.unlimited = false) (positive : 0 < tokens)
  (left : tokens <= budget.regularLeft) : budget.regularUsed + tokens <= budget.regularLimit /\
    ∀ limit, budget.weeklyLimit = some limit -> budget.weeklyUsed + tokens <= limit := by
  simp only [Budget.regularLeft, Budget.weeklyLeft, metered, Bool.false_eq_true, if_false] at left
  -- a positive amount is not bounded by the zero of the maximum
  have fits : ∀ {limit : ℕ} {used : ℚ}, tokens <= max 0 ((limit : ℚ) - used) -> used + tokens <= limit := by
    intro limit _ bounded
    rcases le_max_iff.mp bounded with clash | _
    · exact absurd clash (not_le.mpr positive)
    · linarith
  constructor
  · exact fits (left.trans (min_le_left _ _))
  · intro _ limited
    rw [limited] at left
    exact fits (left.trans (min_le_right _ _))

theorem Budget.regularLeft_hundredths {budget : Budget} (windowExact : Hundredths budget.regularUsed)
  (weekExact : Hundredths budget.weeklyUsed) : Hundredths budget.regularLeft := by
  have week : Hundredths budget.weeklyLeft := by
    unfold Budget.weeklyLeft
    split
    · exact Hundredths.ofNat unlimitedTokens
    · cases budget.weeklyLimit with
      | none => exact Hundredths.ofNat unlimitedTokens
      | some limit => exact weekExact.left limit
  unfold Budget.regularLeft
  split
  · exact Hundredths.ofNat unlimitedTokens
  · exact (windowExact.left _).min week

variable {weight : ℚ} {estimate : ℕ}

theorem takeHold_eq_some {budget : Budget} (taken : takeHold budget weight estimate = some tokens) :
  budget.unlimited = false /\ 0 < tokens /\ tokens = min (estimate * weight) budget.regularLeft := by
  unfold takeHold at taken
  by_cases free : budget.unlimited
  · rw [if_pos free] at taken
    cases taken
  · rw [if_neg free] at taken
    by_cases positive : 0 < min ((estimate : ℚ) * weight) budget.regularLeft
    · rw [if_pos positive] at taken
      cases taken
      exact ⟨Bool.eq_false_of_not_eq_true free, positive, rfl⟩
    · rw [if_neg positive] at taken
      cases taken

theorem takeHold_within {admin : Bool} {limits : TokenLimits} {used : ℚ × ℚ}
  (windowExact : Hundredths used.1) (weekExact : Hundredths used.2) (weighted : Hundredths ((estimate : ℚ) * weight))
  (taken : takeHold (budget admin limits used) weight estimate = some tokens) :
  (∀ limit, limits.window = some limit -> used.1 + tokens <= limit) /\
    (∀ limit, limits.weekly = some limit -> used.2 + tokens <= limit) /\ Hundredths tokens := by
  rcases takeHold_eq_some taken with ⟨metered, positive, amount⟩
  have left : tokens <= (budget admin limits used).regularLeft := amount ▸ min_le_right _ _
  rcases Budget.fits metered positive left with ⟨window, week⟩
  by_cases free : admin \/ (limits.window = none /\ limits.weekly = none)
  · rw [budget, if_pos free] at metered
    cases metered
  · have exact : Hundredths (budget admin limits used).regularLeft := by
      rw [budget, if_neg free]
      apply Budget.regularLeft_hundredths
      · rw [roundHundredths_exact windowExact]
        exact windowExact
      · rw [roundHundredths_exact weekExact]
        exact weekExact
    rw [budget, if_neg free] at window week
    simp only [roundHundredths_exact windowExact] at window
    simp only [roundHundredths_exact weekExact] at week
    refine ⟨?_, week, amount ▸ weighted.min exact⟩
    intro _ limited
    rw [limited, Option.getD_some] at window
    exact window

end BananaChat.Credits

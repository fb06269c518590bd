import BananaChat.Allowances.Models

namespace BananaChat.Allowances

open Foundation List Rows Credits

/-!
# The figures of a model's own limits

A pool counts weighted tokens, a model's own limit raw ones.
-/

structure PlacedHold where
  row : Credits.Reservation
  tokens : ℚ
  weight : ℚ
  counted : row.creditsReserved = tokensToCredits (tokens * weight)

section

variable (holds : List PlacedHold) (userId modelId : ℕ)

def holdsOf : List PlacedHold :=
  holds.filter (fun hold => hold.row.userId = userId /\ hold.row.modelId = some modelId)

def heldTokens : ℚ := ((holdsOf holds userId modelId).map PlacedHold.tokens).sum

def heldCounted : ℚ := ((holdsOf holds userId modelId).map fun hold => hold.tokens * hold.weight).sum

end

/-- The unweighted tokens of the metered charges since a window opened, or nothing when it is
not open. -/
def rawSince (ledger : List Credits.LedgerRow) (userId modelId : ℕ) (since : Option ℤ) : ℚ :=
  match since with
  | none => 0
  | some start => (((modelRows ledger userId modelId start).map fun row => row.tokensIn + row.tokensOut).sum : ℕ)

def reservedTokens (reservations : List Credits.Reservation) (userId modelId : ℕ) : ℚ :=
  ((reservations.filter fun row => row.userId = userId /\ row.modelId = some modelId).map
    Credits.Reservation.creditsReserved).sum * tokensPerCredit

variable {earliest : ℤ} {ledger : List Credits.LedgerRow} {modelId userId : ℕ}

theorem modelRows_later (ledger : List Credits.LedgerRow) (userId modelId : ℕ) {since : ℤ} (before : earliest <= since) :
  (modelRows ledger userId modelId earliest).filter (since <= ·.createdAt) =
    modelRows ledger userId modelId since := by
  unfold modelRows
  rw [filter_filter]
  refine filter_congr fun row _ => ?_
  by_cases late : since <= row.createdAt
  · simp [late, before.trans late]
  · simp [late]

theorem modelRows_nil (older : ∀ row ∈ ledger, row.createdAt < earliest) :
  modelRows ledger userId modelId earliest = [] := by
  rw [modelRows, filter_eq_nil_iff]
  intro row mem selected
  have after := (of_decide_eq_true (Bool.and_eq_true_iff.mp selected).1).2.2
  exact absurd (older row mem) (not_lt.mpr after)

variable {since : Option ℤ}

theorem queried_since (dated : since = none -> ∀ row ∈ ledger, row.createdAt < never)
  (before : ∀ start, since = some start -> earliest <= start) : ((((modelRows ledger userId modelId earliest).map
    (fun row => if since.getD never <= row.createdAt then row.tokensIn + row.tokensOut else 0)).sum : ℕ) : ℚ) =
      rawSince ledger userId modelId since := by
  rw [sum_map_ite]
  cases since with
  | none =>
    have closed : (modelRows ledger userId modelId earliest).filter
        (fun row => decide ((none : Option ℤ).getD never <= row.createdAt)) = [] := by
      rw [filter_eq_nil_iff]
      intro row mem late
      have inLedger : row ∈ ledger := mem_of_mem_filter mem
      exact absurd (dated rfl row inLedger) (not_lt.mpr (of_decide_eq_true late))
    rw [closed]
    simp [rawSince]
  | some start =>
    have later := modelRows_later ledger userId modelId (before start rfl)
    simp only [Option.getD_some, later, rawSince]
    simp

variable {windowSince weeklySince : Option ℤ}

theorem modelUsage_eq (dated : windowSince = none \/ weeklySince = none -> ∀ row ∈ ledger, row.createdAt < never)
  (reservations : List Credits.Reservation) (userId modelId : ℕ) :
  modelUsage ledger reservations userId modelId windowSince weeklySince =
    (rawSince ledger userId modelId windowSince + reservedTokens reservations userId modelId,
      rawSince ledger userId modelId weeklySince + reservedTokens reservations userId modelId) := by
  have window : ∀ start, windowSince = some start ->
      [windowSince, weeklySince].reduceOption.min?.getD never <= start := by
    rintro start rfl
    cases weeklySince with
    | none => exact le_refl start
    | some week => exact min_le_left start week
  have weekly : ∀ start, weeklySince = some start ->
      [windowSince, weeklySince].reduceOption.min?.getD never <= start := by
    rintro start rfl
    cases windowSince with
    | none => exact le_refl start
    | some opened => exact min_le_right opened start
  simp only [modelUsage, queried_since (fun closed => dated (.inl closed)) window,
    queried_since (fun closed => dated (.inr closed)) weekly, reservedTokens]

theorem reservedTokens_holds (holds : List PlacedHold) (userId modelId : ℕ) :
  reservedTokens (holds.map PlacedHold.row) userId modelId = heldCounted holds userId modelId := by
  unfold reservedTokens heldCounted holdsOf
  induction holds with
  | nil => simp
  | cons hold rest ih =>
    simp only [map_cons, filter_cons]
    split
    · have amount : hold.row.creditsReserved * tokensPerCredit = hold.tokens * hold.weight := by
        rw [hold.counted, tokensToCredits, tokensPerCredit]
        ring
      simp only [map_cons, sum_cons, add_mul, amount, ih]
    · exact ih

theorem reservedTokens_holdAnswer (reservations : Credits.Reservations) (userId modelId : ℕ) (tokens : ℚ)
  (tokenId : Option ℕ) (now : ℚ) :
  reservedTokens (holdAnswer reservations userId tokens (some modelId) tokenId now).1.rows userId modelId =
    reservedTokens reservations.rows userId modelId + tokens := by
  have amount : tokensToCredits tokens * tokensPerCredit = tokens := by
    rw [tokensToCredits, tokensPerCredit]
    ring
  simp only [reservedTokens, holdAnswer, filter_append, map_append, sum_append, add_mul]
  simp [amount]

theorem refund_holdAnswer {reservations : Credits.Reservations}
  (numbered : ∀ row ∈ reservations.rows, row.id < reservations.nextId) (userId : ℕ) (tokens : ℚ)
  (modelId tokenId : Option ℕ) (now : ℚ) :
  (refundReservation (some (holdAnswer reservations userId tokens modelId tokenId now).2)
    (holdAnswer reservations userId tokens modelId tokenId now).1).rows = reservations.rows := by
  have others : deleteWhere (fun row : Credits.Reservation => decide (row.id = reservations.nextId)) reservations.rows =
      reservations.rows := by
    refine deleteWhere_eq_self fun row mem selected => ?_
    exact absurd (of_decide_eq_true selected) (numbered row mem).ne
  change deleteWhere (fun row : Credits.Reservation => decide (row.id = reservations.nextId)) (reservations.rows ++ [_]) = _
  rw [deleteWhere, filter_append, <- deleteWhere, others]
  simp

variable {row : Credits.LedgerRow}

section

variable (ours : row.userId = userId /\ row.modelId = some modelId /\ row.consumesLimits)
include ours

theorem modelRows_append (late : earliest <= row.createdAt) :
  modelRows (ledger ++ [row]) userId modelId earliest = modelRows ledger userId modelId earliest ++ [row] := by
  have taken : (decide (row.userId = userId /\ row.modelId = some modelId /\ earliest <= row.createdAt) && row.consumesLimits) =
      true := by
    rw [decide_eq_true ⟨ours.1, ours.2.1, late⟩, ours.2.2]
    rfl
  unfold modelRows
  rw [filter_append]
  simp only [filter_cons, taken, if_true, filter_nil]

theorem rawSince_charge (opened : ∀ start, since = some start -> start <= row.createdAt)
  (closed : since = none -> ∀ earlier ∈ ledger, earlier.createdAt < row.createdAt) :
  rawSince (ledger ++ [row]) userId modelId (some (since.getD row.createdAt)) =
    rawSince ledger userId modelId since + (row.tokensIn + row.tokensOut : ℕ) := by
  cases since with
  | none =>
    have nothing : modelRows ledger userId modelId row.createdAt = [] := modelRows_nil (closed rfl)
    simp only [rawSince, Option.getD_none, modelRows_append ours (le_refl _), nothing]
    simp
  | some start =>
    simp only [rawSince, Option.getD_some, modelRows_append ours (opened start rfl), map_append, sum_append]
    simp

end

theorem settled_figures (row : Credits.LedgerRow)
  (ours : row.userId = userId /\ row.modelId = some modelId /\ row.consumesLimits)
  (dated : windowSince = none \/ weeklySince = none -> ∀ earlier ∈ ledger, earlier.createdAt < never)
  (opened : ∀ start, windowSince = some start \/ weeklySince = some start -> start <= row.createdAt)
  (closed : windowSince = none \/ weeklySince = none -> ∀ earlier ∈ ledger, earlier.createdAt < row.createdAt)
  (before after : List Credits.Reservation) {counted : ℚ}
  (held : reservedTokens before userId modelId = reservedTokens after userId modelId + counted) :
  modelUsage (ledger ++ [row]) after userId modelId (some (windowSince.getD row.createdAt))
      (some (weeklySince.getD row.createdAt)) =
    modelUsage ledger before userId modelId windowSince weeklySince ↔ counted = (row.tokensIn + row.tokensOut : ℕ) := by
  have openAfter : some (windowSince.getD row.createdAt) = none \/ some (weeklySince.getD row.createdAt) = none ->
      ∀ earlier ∈ ledger ++ [row], earlier.createdAt < never := by
    rintro (clash | clash) <;> cases clash
  rw [modelUsage_eq openAfter, modelUsage_eq dated,
    rawSince_charge ours (fun start same => opened start (.inl same)) (fun none => closed (.inl none)),
    rawSince_charge ours (fun start same => opened start (.inr same)) (fun none => closed (.inr none)), held,
    Prod.mk.injEq]
  constructor
  · rintro ⟨_, _⟩
    linarith
  · intro _
    constructor <;> linarith

def tripledHold : PlacedHold where
  row := ⟨1, 1, none, some 7, 3 / 10, 0, none⟩
  tokens := 100
  weight := 3
  counted := by decide +kernel

def tripledSite : Credits.Site := ⟨[⟨1, false⟩], [], [⟨7, .hosted, ⟨300, some true⟩⟩], [], none, none⟩

end BananaChat.Allowances

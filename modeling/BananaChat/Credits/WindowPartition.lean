import BananaChat.Credits.Usage

namespace BananaChat.Credits

open Foundation Limits List

/-!
# The windows partition the charges

`chargeMachine` is one account charged by one request after another.
-/

inductive Period
  | window
  | week

namespace Period

def seconds : Period -> ℤ
  | .window => windowSeconds
  | .week => weekSeconds

/-- The window's part of a stored row or of the figures of `usage`. -/
def part {Value : Type} : Period -> Value × Value -> Value
  | .window, values => values.1
  | .week, values => values.2

def since : Period -> Starts -> Option ℤ
  | .window, starts => starts.windowSince
  | .week, starts => starts.weekSince

theorem seconds_pos (period : Period) : 0 < period.seconds := by
  cases period <;> decide

section

variable (period : Period) (windows : List LimitWindow) (userId : ℕ)
include period windows userId

theorem since_starts (scope : Scope) (now : ℚ) : period.since (starts windows userId scope noResets now) =
    openSince (period.part (storedWindow windows userId scope)) period.seconds now := by
  have counts := starts_noResets windows userId scope now
  cases period with
  | window => exact counts.1
  | week => exact counts.2

theorem part_openWindows (scopes : List Scope) (now : ℚ) (distinct : scopes.Nodup) (scope : Scope) :
  period.part (storedWindow (openWindows windows userId scopes now) userId scope) = if scope ∈ scopes then
      some (LazyWindow.renew period.seconds (period.part (storedWindow windows userId scope)) ⌊now⌋)
    else period.part (storedWindow windows userId scope) := by
  rw [storedWindow_openWindows windows userId scopes now distinct userId scope]
  by_cases mem : scope ∈ scopes
  · rw [if_pos ⟨rfl, mem⟩, if_pos mem]
    cases period <;> rfl
  · rw [if_neg (mem ·.2), if_neg mem]

/-- The service's reading and the upsert of a counted request agree on whether the window is open. -/
theorem openSince_isSome_iff_kept (scope : Scope) (now : ℚ) :
  ((openSince (period.part (storedWindow windows userId scope)) period.seconds now).isSome ↔
      period.part (storedWindow (openWindows windows userId [scope] now) userId scope) =
        period.part (storedWindow windows userId scope)) /\
    ((openSince (period.part (storedWindow windows userId scope)) period.seconds now).isSome ↔
      period.part (storedWindow (openWindows windows userId [scope] ⌊now⌋) userId scope) =
        period.part (storedWindow windows userId scope)) := by
  have agree := openSince_isSome_iff (period.part (storedWindow windows userId scope)) period.seconds
    period.seconds_pos now
  rw [reopen_eq_renew] at agree
  constructor
  · rw [part_openWindows _ _ _ _ _ (nodup_singleton scope), if_pos (mem_singleton.mpr rfl)]
    exact agree
  · rw [part_openWindows _ _ _ _ _ (nodup_singleton scope), if_pos (mem_singleton.mpr rfl), Int.floor_intCast]
    exact agree

end

end Period

structure Account where
  books : Books
  clock : ℚ

structure ChargeStep where
  site : Site
  now : ℚ
  request : ChargeRequest

def chargeMachine (userId : ℕ) : Machine Account ChargeStep where
  initial := fun account => account.books = ⟨[], []⟩
  enabled := fun account step => step.request.userId = userId /\ account.clock <= step.now /\ step.now < never
  next := fun account step => ⟨(charge step.site step.now step.request account.books).1, step.now⟩

/-- A charge that counts toward its pool: its stamp, its tokens and the starts
of the windows stored when it was recorded. -/
structure CountedCharge where
  pool : Pool
  stamp : ℤ
  tokens : ℚ
  window : ℤ
  week : ℤ

def CountedCharge.start (charge : CountedCharge) (period : Period) : ℤ := period.part (charge.window, charge.week)

def countedCharges (userId : ℕ) (account : Account) (step : ChargeStep) : List CountedCharge :=
  if (step.site.user userId).isSome /\ step.request.counted step.site then
    let pool := poolOf step.request.requestType
    let stored := storedWindow ((chargeMachine userId).next account step).books.windows userId (.pool pool)
    [{ pool := pool
       stamp := ⌊step.now⌋
       tokens := step.request.countedTokens step.site
       window := stored.1.getD ⌊step.now⌋
       week := stored.2.getD ⌊step.now⌋ }]
  else []

section

variable (history : List CountedCharge) (pool : Pool)

def chargesOf : List CountedCharge := history.filter (·.pool = pool)

/-- The windows of one pool, as their starts, in the order of the charges that
found them open or opened them. -/
def windowsOpened (period : Period) : List ℤ := (chargesOf history pool).map (·.start period)

def tokensSince (start : ℤ) : ℚ := (((chargesOf history pool).filter (start <= ·.stamp)).map CountedCharge.tokens).sum

def visits (period : Period) : List (ℤ × ℤ) :=
  (chargesOf history pool).map (fun charge => (charge.stamp, charge.start period))

end

theorem chargesOf_append_self (history : List CountedCharge) {charge : CountedCharge} {pool : Pool}
  (ours : charge.pool = pool) : chargesOf (history ++ [charge]) pool = chargesOf history pool ++ [charge] := by
  simp [chargesOf, ours]

theorem usageRows_append (ledger : List LedgerRow) (row : LedgerRow) (userId : ℕ) (pool : Pool) (start : ℤ) :
  usageRows (ledger ++ [row]) userId pool start =
    usageRows ledger userId pool start ++ usageRows [row] userId pool start :=
  filter_append ..

/-- The part of the machine's state one pool and window depend on, related to
the charges so far. -/
structure Partitioned (userId : ℕ) (pool : Pool) (period : Period) (history : List CountedCharge)
  (account : Account) : Prop where
  windowed : LazyWindow.Windowed period.seconds
    (period.part (storedWindow account.books.windows userId (.pool pool))) (visits history pool period)
  /-- Every window opened at a counted charge. -/
  opened : ∀ start, period.part (storedWindow account.books.windows userId (.pool pool)) = some start ->
    ∃ charge ∈ chargesOf history pool, charge.stamp = start
  openings : ∀ start ∈ windowsOpened history pool period,
    ∃ charge ∈ chargesOf history pool, charge.stamp = start
  past : ∀ charge ∈ history, charge.stamp <= ⌊account.clock⌋
  dated : ∀ row ∈ account.books.ledger, row.createdAt < never
  /-- The ledger sums to the counted tokens, from every start on. -/
  summed : ∀ start, ((usageRows account.books.ledger userId pool start).map LedgerRow.creditsUsed).sum *
    tokensPerCredit = tokensSince history pool start

private theorem partitioned_initial (userId : ℕ) (pool : Pool) (period : Period) (account : Account)
  (isInitial : (chargeMachine userId).initial account) : Partitioned userId pool period [] account := by
  have empty : account.books = ⟨[], []⟩ := isInitial
  constructor
  · exact LazyWindow.windowed_nil ..
  · intro start stored
    rw [empty] at stored
    cases period <;> cases stored
  · intro start mem
    cases mem
  · intro charge mem
    cases mem
  · intro row mem
    rw [empty] at mem
    cases mem
  · intro start
    rw [empty]
    simp [usageRows, tokensSince, chargesOf]

section Step

variable {userId : ℕ} {pool : Pool} {period : Period} {history : List CountedCharge} {account : Account} {step : ChargeStep}

private theorem next_books (known : (step.site.user userId).isSome) (owner : step.request.userId = userId) :
  ((chargeMachine userId).next account step).books =
    { ledger := account.books.ledger ++ [step.request.row step.site ⌊step.now⌋]
      windows := openWindows account.books.windows userId (step.request.scopes step.site) ⌊step.now⌋ } := by
  subst owner
  exact charge_of_user known step.now account.books

private theorem part_next (account : Account) (known : (step.site.user userId).isSome) (owner : step.request.userId = userId)
  (pool : Pool) (period : Period) :
  period.part (storedWindow ((chargeMachine userId).next account step).books.windows userId (.pool pool)) =
    if step.request.counted step.site /\ poolOf step.request.requestType = pool then
      some (LazyWindow.renew period.seconds
        (period.part (storedWindow account.books.windows userId (.pool pool))) ⌊step.now⌋)
    else period.part (storedWindow account.books.windows userId (.pool pool)) := by
  rw [next_books known owner]
  simp only [Period.part_openWindows _ _ _ _ _ (scopes_nodup step.site step.request), pool_mem_scopes_iff,
    Int.floor_intCast]

private theorem countedCharges_counted (account : Account) (known : (step.site.user userId).isSome)
  (owner : step.request.userId = userId) (counted : step.request.counted step.site) :
  ∃ charge, countedCharges userId account step = [charge] /\
    charge.pool = poolOf step.request.requestType /\ charge.stamp = ⌊step.now⌋ /\
    charge.tokens = step.request.countedTokens step.site /\
    ∀ period, charge.start period = LazyWindow.renew period.seconds
      (period.part (storedWindow account.books.windows userId (.pool (poolOf step.request.requestType)))) ⌊step.now⌋ := by
  unfold countedCharges
  rw [if_pos ⟨known, counted⟩]
  refine ⟨_, rfl, rfl, rfl, rfl, ?_⟩
  intro period
  have stored := part_next account known owner (poolOf step.request.requestType) period
  rw [if_pos ⟨counted, rfl⟩] at stored
  cases period with
  | window | week =>
    simp only [Period.part] at stored
    simp only [CountedCharge.start, Period.part, stored, Option.getD_some]

private theorem countedCharges_free (free : ¬ ((step.site.user userId).isSome /\
    step.request.counted step.site)) : countedCharges userId account step = [] := if_neg free

private theorem Partitioned.keep (partitioned : Partitioned userId pool period history account) {after : Account}
  {added : List CountedCharge} (same : chargesOf (history ++ added) pool = chargesOf history pool)
  (stored : period.part (storedWindow after.books.windows userId (.pool pool)) =
    period.part (storedWindow account.books.windows userId (.pool pool)))
  (past : ∀ charge ∈ history ++ added, charge.stamp <= ⌊after.clock⌋)
  (dated : ∀ row ∈ after.books.ledger, row.createdAt < never)
  (summed : ∀ start, ((usageRows after.books.ledger userId pool start).map LedgerRow.creditsUsed).sum =
    ((usageRows account.books.ledger userId pool start).map LedgerRow.creditsUsed).sum) :
  Partitioned userId pool period (history ++ added) after := by
  constructor
  · rw [stored]
    unfold visits
    rw [same]
    exact partitioned.windowed
  · rw [stored, same]
    exact partitioned.opened
  · unfold windowsOpened
    rw [same]
    exact partitioned.openings
  · exact past
  · exact dated
  · intro start
    unfold tokensSince
    rw [summed start, same]
    exact partitioned.summed start

/-- A charge that the pool does not count leaves its part of the state alone:
the row carries no credits, or belongs to another pool. -/
private theorem Partitioned.free (partitioned : Partitioned userId pool period history account)
  (enabled : (chargeMachine userId).enabled account step)
  (free : ¬ ((step.site.user userId).isSome /\ step.request.counted step.site /\
    poolOf step.request.requestType = pool))
  (added : List CountedCharge) (others : ∀ charge ∈ added, charge.pool ≠ pool)
  (stamped : ∀ charge ∈ added, charge.stamp = ⌊step.now⌋) :
  Partitioned userId pool period (history ++ added) ((chargeMachine userId).next account step) := by
  rcases enabled with ⟨owner, notBefore, dated⟩
  have same : chargesOf (history ++ added) pool = chargesOf history pool := by
    have elsewhere : chargesOf added pool = [] := by
      rw [chargesOf, filter_eq_nil_iff]
      intro charge mem
      simpa using others charge mem
    unfold chargesOf at elsewhere ⊢
    rw [filter_append, elsewhere, append_nil]
  have later : ⌊account.clock⌋ <= ⌊((chargeMachine userId).next account step).clock⌋ := Int.floor_le_floor notBefore
  have past : ∀ charge ∈ history ++ added,
      charge.stamp <= ⌊((chargeMachine userId).next account step).clock⌋ := by
    intro charge mem
    rcases mem_append.mp mem with before | new
    · exact (partitioned.past charge before).trans later
    · exact (stamped charge new).le
  by_cases known : (step.site.user userId).isSome
  · have uncounted : ¬ (step.request.counted step.site /\ poolOf step.request.requestType = pool) :=
      fun both => free ⟨known, both⟩
    have kept := part_next account known owner pool period
    rw [if_neg uncounted] at kept
    apply partitioned.keep same kept past
    · intro row mem
      rw [next_books known owner] at mem
      rcases mem_snoc.mp mem with before | new
      · exact partitioned.dated row before
      · cases new
        exact Int.floor_lt.mpr dated
    · intro start
      have nothing : ((usageRows [step.request.row step.site ⌊step.now⌋] userId pool start).map
          LedgerRow.creditsUsed).sum = 0 := by
        rw [usageRows_cons]
        split
        · rename_i selected
          have zero := countedTokens_of_not_counted (fun counted => uncounted ⟨counted, selected.2.2⟩)
          simp [usageRows, ChargeRequest.row, tokensToCredits, zero]
        · rfl
      rw [next_books known owner, usageRows_append, map_append, sum_append, nothing, add_zero]
  · have unknown : step.site.user step.request.userId = none := by
      rw [owner]
      simpa using known
    have unchanged : ((chargeMachine userId).next account step).books = account.books :=
      charge_of_no_user unknown step.now account.books
    apply partitioned.keep same (by rw [unchanged]) past
    · rw [unchanged]
      exact partitioned.dated
    · intro start
      rw [unchanged]

private theorem Partitioned.visited (partitioned : Partitioned userId pool period history account)
  (enabled : (chargeMachine userId).enabled account step) (known : (step.site.user userId).isSome)
  (counted : step.request.counted step.site) (ours : poolOf step.request.requestType = pool) :
  Partitioned userId pool period (history ++ countedCharges userId account step)
    ((chargeMachine userId).next account step) := by
  rcases enabled with ⟨owner, notBefore, dated⟩
  rcases countedCharges_counted account known owner counted with
    ⟨charge, reported, chargePool, stamp, tokens, begins⟩
  rw [ours] at chargePool begins
  have same := chargesOf_append_self history chargePool
  have later : ⌊account.clock⌋ <= ⌊step.now⌋ := Int.floor_le_floor notBefore
  have kept := part_next account known owner pool period
  rw [if_pos ⟨counted, ours⟩] at kept
  -- a stored start is the stamp of an earlier charge
  have startedBefore : ∀ start, period.part (storedWindow account.books.windows userId (.pool pool)) = some start ->
      start <= ⌊step.now⌋ := by
    intro start stored
    rcases partitioned.opened start stored with ⟨opening, mem, opens⟩
    exact opens ▸ (partitioned.past opening (mem_filter.mp mem).1).trans later
  have openedBy : ∃ opening ∈ chargesOf (history ++ [charge]) pool,
      opening.stamp = charge.start period := by
    rw [same, begins period]
    cases stored : period.part (storedWindow account.books.windows userId (.pool pool)) with
    | none => exact ⟨charge, mem_append_right _ (mem_singleton.mpr rfl), stamp⟩
    | some start =>
      simp only [LazyWindow.renew]
      split
      · rcases partitioned.opened start stored with ⟨opening, mem, opens⟩
        exact ⟨opening, mem_append_left _ mem, opens⟩
      · exact ⟨charge, mem_append_right _ (mem_singleton.mpr rfl), stamp⟩
  rw [reported]
  constructor
  · rw [kept, show visits (history ++ [charge]) pool period =
      visits history pool period ++ [(⌊step.now⌋, charge.start period)] by
        unfold visits
        rw [same, map_append, map_singleton, stamp], begins period]
    exact partitioned.windowed.visit period.seconds_pos ⌊step.now⌋ startedBefore
  · intro start stored
    rw [kept, <- begins period] at stored
    cases stored
    exact openedBy
  · intro start mem
    unfold windowsOpened at mem
    rw [same, map_append, mem_append, map_singleton, mem_singleton] at mem
    rcases mem with before | rfl
    · rcases partitioned.openings start before with ⟨opening, openingMember, opens⟩
      exact ⟨opening, same ▸ mem_append_left _ openingMember, opens⟩
    · exact openedBy
  · intro other mem
    rcases mem_snoc.mp mem with before | new
    · exact (partitioned.past other before).trans later
    · cases new
      exact stamp.le
  · intro row mem
    rw [next_books known owner] at mem
    rcases mem_snoc.mp mem with before | new
    · exact partitioned.dated row before
    · cases new
      exact Int.floor_lt.mpr dated
  · intro start
    have rowSum : ((usageRows [step.request.row step.site ⌊step.now⌋] userId pool start).map
        LedgerRow.creditsUsed).sum * tokensPerCredit = if start <= charge.stamp then charge.tokens else 0 := by
      rw [usageRows_cons, stamp, tokens]
      by_cases since : start <= ⌊step.now⌋
      · rw [if_pos ⟨owner, since, ours⟩, if_pos since]
        simp [usageRows, ChargeRequest.row, tokensToCredits, tokensPerCredit]
      · have unread : ¬ ((step.request.row step.site ⌊step.now⌋).userId = userId /\
            start <= (step.request.row step.site ⌊step.now⌋).createdAt /\
            poolOf (step.request.row step.site ⌊step.now⌋).requestType = pool) := fun selected => since selected.2.1
        rw [if_neg unread, if_neg since]
        simp [usageRows]
    have tokenSum : tokensSince (history ++ [charge]) pool start =
        tokensSince history pool start + if start <= charge.stamp then charge.tokens else 0 := by
      unfold tokensSince
      rw [same, filter_append, map_append, sum_append]
      by_cases since : start <= charge.stamp
      · simp [since]
      · simp [since]
    rw [next_books known owner, usageRows_append, map_append, sum_append, add_mul, partitioned.summed start,
      rowSum, tokenSum]

private theorem Partitioned.next (partitioned : Partitioned userId pool period history account)
  (enabled : (chargeMachine userId).enabled account step) :
  Partitioned userId pool period (history ++ countedCharges userId account step)
    ((chargeMachine userId).next account step) := by
  by_cases counts : (step.site.user userId).isSome /\ step.request.counted step.site
  · by_cases ours : poolOf step.request.requestType = pool
    · exact partitioned.visited enabled counts.1 counts.2 ours
    · rcases countedCharges_counted account counts.1 enabled.1 counts.2 with
        ⟨charge, reported, chargePool, stamp, _, _⟩
      apply partitioned.free enabled (ours ·.2.2)
      · intro other mem
        rw [reported, mem_singleton] at mem
        rw [mem, chargePool]
        exact ours
      · intro other mem
        rw [reported, mem_singleton] at mem
        rw [mem]
        exact stamp
  · apply partitioned.free enabled (fun all => counts ⟨all.1, all.2.1⟩)
    · intro charge mem
      rw [countedCharges_free counts] at mem
      cases mem
    · intro charge mem
      rw [countedCharges_free counts] at mem
      cases mem

end Step

theorem partitioned_of_trace {userId : ℕ} {history : List CountedCharge} {account : Account}
  (trace : (chargeMachine userId).Trace (countedCharges userId) history account) (pool : Pool) (period : Period) :
  Partitioned userId pool period history account :=
  trace.induct (partitioned_initial userId pool period) (fun _ _ _ partitioned enabled => partitioned.next enabled)

/-- The figures of `usage` are the counted tokens since the stored window
opened, if it is open. -/
theorem Partitioned.usage {userId : ℕ} {pool : Pool} {history : List CountedCharge} {account : Account}
  (partitioned : ∀ period, Partitioned userId pool period history account) (period : Period) (now : ℚ) :
  let counts := starts account.books.windows userId (.pool pool) noResets now
  period.part (usage account.books.ledger [] userId pool counts.windowSince counts.weekSince) =
    match openSince (period.part (storedWindow account.books.windows userId (.pool pool))) period.seconds now with
    | none => 0
    | some start => tokensSince history pool start := by
  intro counts
  have figures := usage_eq (partitioned period).dated [] userId pool counts.windowSince counts.weekSince
  have noneReserved : reservedCredits [] userId pool = 0 := by
    cases pool <;> rfl
  have onePart : period.part (Credits.usage account.books.ledger [] userId pool counts.windowSince counts.weekSince) =
      countedSince account.books.ledger userId pool (period.since counts) := by
    rw [figures, noneReserved, zero_mul, add_zero, add_zero]
    cases period <;> rfl
  rw [onePart, Period.since_starts]
  cases openSince (period.part (storedWindow account.books.windows userId (.pool pool))) period.seconds now with
  | none => rfl
  | some start => exact (partitioned period).summed start

/-- The windows partition the counted charges of a pool, and the used figure is the sum of the open one. -/
theorem windows_partition_charges {userId : ℕ} {history : List CountedCharge} {account : Account}
  (trace : (chargeMachine userId).Trace (countedCharges userId) history account) (pool : Pool) (period : Period) :
  (∀ charge ∈ chargesOf history pool, ExistsUnique fun start =>
    start ∈ windowsOpened history pool period /\ start <= charge.stamp /\ charge.stamp < start + period.seconds) /\
  (∀ start ∈ windowsOpened history pool period,
    ∃ charge ∈ chargesOf history pool, charge.stamp = start) /\
  (∀ (windows : List LimitWindow) (scope : Scope) (now : ℚ),
    ((openSince (period.part (storedWindow windows userId scope)) period.seconds now).isSome ↔
      period.part (storedWindow (openWindows windows userId [scope] now) userId scope) =
        period.part (storedWindow windows userId scope)) /\
    ((openSince (period.part (storedWindow windows userId scope)) period.seconds now).isSome ↔
      period.part (storedWindow (openWindows windows userId [scope] ⌊now⌋) userId scope) =
        period.part (storedWindow windows userId scope))) /\
  (∀ now : ℚ, account.clock <= now ->
    let counts := starts account.books.windows userId (.pool pool) noResets now
    period.part (usage account.books.ledger [] userId pool counts.windowSince counts.weekSince) =
      match openSince (period.part (storedWindow account.books.windows userId (.pool pool))) period.seconds now with
      | none => 0
      | some start => tokensSince history pool start) := by
  have partitioned := partitioned_of_trace trace pool
  refine ⟨?_, (partitioned period).openings, fun windows scope now =>
    period.openSince_isSome_iff_kept windows userId scope now, fun now _ => Partitioned.usage partitioned period now⟩
  intro charge mem
  have unique := (partitioned period).windowed.existsUnique (charge.stamp, charge.start period)
    (mem_map.mpr ⟨charge, mem, rfl⟩)
  unfold visits at unique
  rw [map_map] at unique
  exact unique

/-- Three API charges: one opens a window, one falls into its last half second,
one at its exact end opens the next. -/
theorem windows_partition_charges_witness : ∃ history account,
    (chargeMachine 1).Trace (countedCharges 1) history account /\
    windowsOpened history .api .window = [0, 0, 18000] /\
    (∀ charge ∈ chargesOf history .api, ExistsUnique fun start =>
      start ∈ windowsOpened history .api .window /\ start <= charge.stamp /\
        charge.stamp < start + Period.window.seconds) := by
  let request : ℤ -> ChargeRequest := fun tokens => ⟨1, tokens, 0, .api, none, none, false, none⟩
  let step : ℚ -> ℤ -> ChargeStep := fun now tokens => ⟨⟨[⟨1, false⟩], [], [], [], none, none⟩, now, request tokens⟩
  have charged : ∀ (account : Account) (now : ℚ) (tokens : ℤ), account.clock <= now -> now < never ->
      (chargeMachine 1).enabled account (step now tokens) :=
    fun _ _ _ notBefore dated => ⟨rfl, notBefore, dated⟩
  have start : (chargeMachine 1).Trace (countedCharges 1) [] ⟨⟨[], []⟩, 0⟩ := .start rfl
  have first := start.next (charged _ 0 10 (by decide +kernel) (by decide +kernel))
  have second := first.next (charged _ (17999 + 1 / 2) 20 (by decide +kernel) (by decide +kernel))
  have third := second.next (charged _ 18000 30 (by decide +kernel) (by decide +kernel))
  exact ⟨_, _, third, by decide +kernel, (windows_partition_charges third .api .window).1⟩

end BananaChat.Credits

import Mathlib.Data.List.Nodup
import BananaChat.SignIn.BudgetsKept

namespace BananaChat.SignIn

open Foundation List Function Nat ConfirmState

/-!
# Confirming a password within its budget

A wrong password keeps the two rows that counted it, and a right one gives its rows back.
-/

variable {budgets : Budgets} {account : Text}

/-- New rows have new ids, and only the rows of `gone` leave. -/
structure Grows (table next : HitTable) (gone : List ℕ) : Prop where
  ids : table.lastId <= next.lastId
  fresh : ∀ row ∈ next.rows, row ∈ table.rows \/ (table.lastId < row.id /\ row.id <= next.lastId)
  stays : ∀ row ∈ table.rows, row.id ∉ gone -> row ∈ next.rows
  leaves : ∀ row ∈ next.rows, row ∈ table.rows -> row.id ∉ gone

variable (table : HitTable) {past : List WrongPassword}

theorem grows_rows (rows : List HitRow)
  (fresh : ∀ row ∈ rows, table.lastId < row.id /\ row.id <= table.lastId + rows.length) :
  Grows table (table.insert rows) [] where
  ids := le_add_right _ _
  fresh := by
    intro row mem
    rcases mem_append.mp mem with old | new
    · exact .inl old
    · exact .inr (fresh row new)
  stays := fun row mem _ => mem_append_left _ mem
  leaves := fun _ _ _ => not_mem_nil

theorem grows_self : Grows table table [] where
  ids := le_refl _
  fresh := fun _ mem => .inl mem
  stays := fun _ mem _ => mem
  leaves := fun _ _ _ => not_mem_nil

theorem grows_release (ids : List ℕ) : Grows table (release table ids) ids where
  ids := le_refl _
  fresh := fun _ mem => .inl (mem_of_mem_filter mem)
  stays := fun _ mem outside => mem_filter.mpr ⟨mem, decide_eq_true outside⟩
  leaves := fun _ mem _ => of_decide_eq_true (mem_filter.mp mem).2

theorem reservedRows_ids (clock : List ℚ) (lastId place : ℕ) (limits : List KeyLimit) :
  (reservedRows lastId clock place limits).length = limits.length /\
    ∀ row ∈ reservedRows lastId clock place limits, lastId < row.id /\ row.id <= lastId + limits.length := by
  induction limits generalizing lastId place with
  | nil =>
    refine ⟨rfl, ?_⟩
    intro row mem
    cases mem
  | cons entry rest ih =>
    unfold reservedRows
    rw [length_cons, length_cons, (ih (lastId + 1) (place + 1)).1]
    refine ⟨rfl, ?_⟩
    intro row mem
    rcases mem_cons.mp mem with isFirst | isLater
    · rw [isFirst]
      exact ⟨lt_succ_self _, by dsimp only; omega⟩
    · have bounds := (ih (lastId + 1) (place + 1)).2 row isLater
      omega

theorem grows_reserve (limits : List KeyLimit) (windowSeconds : ℤ) (clock : List ℚ) :
  Grows table (reserve table limits windowSeconds clock).1 [] := by
  unfold reserve
  cases anyReached table windowSeconds clock 0 limits with
  | true => exact grows_self table
  | false =>
    apply grows_rows
    intro row mem
    rw [(reservedRows_ids _ _ _ _).1]
    exact (reservedRows_ids _ _ _ _).2 row mem

theorem grows_next (action : HitAction) : ∃ gone, Grows table (action.next table) gone /\
    ((∀ ids, action ≠ .release ids) -> gone = []) /\ (∀ ids, action = .release ids -> gone = ids) := by
  cases action with
  | release ids =>
    refine ⟨ids, grows_release table ids, fun other => absurd rfl (other ids), ?_⟩
    intro _ isRelease
    cases isRelease
    rfl
  | reserve limits windowSeconds clock =>
    exact ⟨[], grows_reserve table limits windowSeconds clock, fun _ => rfl, nofun⟩
  | hit key limit window record began now =>
    refine ⟨[], ?_, fun _ => rfl, nofun⟩
    simp only [HitAction.next, hit]
    cases reached table key limit (since began window) with
    | true => exact grows_self table
    | false =>
      cases record with
      | false => exact grows_self table
      | true =>
        apply grows_rows
        intro _ mem
        rw [mem_singleton.mp mem]
        exact ⟨lt_succ_self _, le_refl _⟩

def Confirmation.holds : Confirmation -> Option (HitRow × HitRow)
  | .counted first second => some (first, second)
  | .right first second => some (first, second)
  | .wrong first second => some (first, second)
  | _ => none

structure CallsKept (budgets : Budgets) (account : Text) (past : List WrongPassword) (state : ConfirmState) : Prop where
  kept : HitsKept budgets state.table
  ids : ∀ row ∈ state.table.rows, row.id <= state.table.lastId
  /-- What a call recorded is in the table, under its keys, and its own. -/
  present : ∀ call first second, (state.calls call).holds = some (first, second) ->
    (first ∈ state.table.rows /\ first.key = confirmKey account /\ first.id ∈ state.owned) /\
      (second ∈ state.table.rows /\ second.key = confirmDayKey account /\ second.id ∈ state.owned)
  /-- Two calls have no row in common. -/
  apart : ∀ call other first second first' second', call ≠ other -> (state.calls call).holds = some (first, second) ->
    (state.calls other).holds = some (first', second') ->
    (first.id ≠ first'.id /\ first.id ≠ second'.id) /\ (second.id ≠ first'.id /\ second.id ≠ second'.id)
  wrongs : ∀ wrong ∈ past, state.calls wrong.call = .wrong wrong.first wrong.second
  once : (past.map WrongPassword.call).Nodup
  confirmed : ∀ call first second, state.calls call = .confirmed first second ->
    (first.id <= state.table.lastId /\ second.id <= state.table.lastId) /\
      ∀ row ∈ state.table.rows, row.id ≠ first.id /\ row.id ≠ second.id

theorem callsKept_start : CallsKept budgets account [] .start where
  kept := fun _ => SlidingWindow.bounded_nil _ _
  ids := by
    intro _ mem
    cases mem
  present := by
    intro call first second clash
    cases clash
  apart := by
    intro call _ first second _ _ _ clash
    cases clash
  wrongs := by
    intro _ mem
    cases mem
  once := nodup_nil
  confirmed := by
    intro _ _ _ clash
    cases clash

namespace CallsKept

variable {past : List WrongPassword} {state : ConfirmState}

variable {next : HitTable} {gone : List ℕ}

theorem ids_grow (kept : CallsKept budgets account past state)
  (grows : Grows state.table next gone) : ∀ row ∈ next.rows, row.id <= next.lastId := by
  intro row mem
  rcases grows.fresh row mem with old | new
  · exact le_trans (kept.ids row old) grows.ids
  · exact new.2

variable {call : ℕ} {first second : HitRow}

section

variable (kept : CallsKept budgets account past state)
include kept

theorem confirmed_grow (grows : Grows state.table next gone) (was : state.calls call = .confirmed first second) :
  (first.id <= next.lastId /\ second.id <= next.lastId) /\
    ∀ row ∈ next.rows, row.id ≠ first.id /\ row.id ≠ second.id := by
  rcases kept.confirmed call first second was with ⟨⟨firstId, secondId⟩, absent⟩
  refine ⟨⟨le_trans firstId grows.ids, le_trans secondId grows.ids⟩, ?_⟩
  intro row mem
  rcases grows.fresh row mem with old | _
  · exact absent row old
  · exact ⟨by omega, by omega⟩

theorem other {action : HitAction} (proper : ConfirmAction.Proper budgets state (.other action)) :
  CallsKept budgets account past { state with table := action.next state.table } := by
  rcases grows_next state.table action with ⟨gone, grows, none, ids⟩
  have unowned : ∀ id ∈ state.owned, id ∉ gone := by
    intro id owned
    cases action with
    | release list =>
      rw [ids list rfl]
      exact fun released => proper id released owned
    | hit key limit window record began now | reserve limits windowSeconds clock =>
      rw [none nofun]
      exact not_mem_nil
  have isProper : action.Proper budgets := by
    cases action with
    | release list => exact True.intro
    | hit key limit window record began now | reserve limits windowSeconds clock => exact proper
  refine ⟨kept_next kept.kept isProper, kept.ids_grow grows, ?_, kept.apart, kept.wrongs, kept.once, ?_⟩
  · intro call first second holds
    rcases kept.present call first second holds with ⟨⟨firstIn, firstKey, firstOwned⟩, secondIn, secondKey, secondOwned⟩
    exact ⟨⟨grows.stays first firstIn (unowned _ firstOwned), firstKey, firstOwned⟩,
      grows.stays second secondIn (unowned _ secondOwned), secondKey, secondOwned⟩
  · intro _ _ _ was
    exact kept.confirmed_grow grows was

theorem move (call : ℕ) (place : Confirmation) (same : place.holds = none \/ place.holds = (state.calls call).holds)
  (unconfirmed : ∀ first second, place ≠ .confirmed first second)
  (notWrong : ∀ first second, state.calls call ≠ .wrong first second) :
  CallsKept budgets account past (state.move call place) := by
  have holdsNow (other : ℕ) (first second : HitRow)
      (holds : ((state.move call place).calls other).holds = some (first, second)) :
      (state.calls other).holds = some (first, second) := by
    change (update state.calls call place other).holds = some (first, second) at holds
    by_cases isCall : other = call
    · rw [isCall, update_self] at holds
      rcases same with none | equal
      · rw [none] at holds
        cases holds
      · rw [isCall, <- equal]
        exact holds
    · rw [update_of_ne isCall] at holds
      exact holds
  refine ⟨kept.kept, kept.ids, ?_, ?_, ?_, kept.once, ?_⟩
  · exact fun other first second holds => kept.present other first second (holdsNow other first second holds)
  · intro one other first second first' second' different holds holds'
    exact kept.apart one other first second first' second' different (holdsNow _ _ _ holds) (holdsNow _ _ _ holds')
  · intro wrong mem
    have was := kept.wrongs wrong mem
    have elsewhere : wrong.call ≠ call := by
      intro isCall
      rw [isCall] at was
      exact notWrong _ _ was
    change update state.calls call place wrong.call = _
    rw [update_of_ne elsewhere]
    exact was
  · intro other first second was
    change update state.calls call place other = .confirmed first second at was
    by_cases isCall : other = call
    · rw [isCall, update_self] at was
      exact absurd was (unconfirmed first second)
    · rw [update_of_ne isCall] at was
      exact kept.confirmed other first second was

theorem wrong (counted : state.calls call = .counted first second) (checkedAt : ℤ) :
  CallsKept budgets account (past ++ [⟨call, first, second, checkedAt⟩]) (state.move call (.wrong first second)) := by
  have moved := kept.move call (.wrong first second) (.inr (by rw [counted]; rfl))
    nofun (by
      intro _ _ clash
      rw [counted] at clash
      cases clash)
  have new : call ∉ past.map WrongPassword.call := by
    intro mem
    rcases mem_map.mp mem with ⟨earlier, isEarlier, isCall⟩
    have was := kept.wrongs earlier isEarlier
    rw [isCall, counted] at was
    cases was
  refine ⟨moved.kept, moved.ids, moved.present, moved.apart, ?_, ?_, moved.confirmed⟩
  · exact forall_mem_snoc moved.wrongs (update_self call _ state.calls)
  · rw [map_append]
    exact kept.once.append (nodup_singleton _) (disjoint_singleton.mpr new)

theorem released (right : state.calls call = .right first second) :
  CallsKept budgets account past { state.move call (.confirmed first second) with
    table := release state.table [first.id, second.id] } := by
  have grows := grows_release state.table [first.id, second.id]
  have own := kept.present call first second (by rw [right]; rfl)
  have others (other : ℕ) (different : other ≠ call) :
      update state.calls call (.confirmed first second) other = state.calls other :=
    update_of_ne different _ _
  have notCall {other : ℕ} {one two : HitRow}
      (holds : (update state.calls call (.confirmed first second) other).holds = some (one, two)) :
      other ≠ call /\ (state.calls other).holds = some (one, two) := by
    by_cases isCall : other = call
    · rw [isCall, update_self] at holds
      cases holds
    · rw [others other isCall] at holds
      exact ⟨isCall, holds⟩
  refine ⟨kept_release kept.kept _, kept.ids_grow grows, ?_, ?_, ?_, kept.once, ?_⟩
  · intro other one two holds
    rcases notCall holds with ⟨different, was⟩
    rcases kept.present other one two was with ⟨⟨oneIn, oneKey, oneOwned⟩, twoIn, twoKey, twoOwned⟩
    rcases kept.apart other call one two first second different was (by rw [right]; rfl) with ⟨⟨a, b⟩, c, d⟩
    refine ⟨⟨grows.stays one oneIn ?_, oneKey, oneOwned⟩, grows.stays two twoIn ?_, twoKey, twoOwned⟩
    · rw [mem_cons, mem_singleton]
      exact not_or.mpr ⟨a, b⟩
    · rw [mem_cons, mem_singleton]
      exact not_or.mpr ⟨c, d⟩
  · intro one other _ _ _ _ different holds holds'
    exact kept.apart one other _ _ _ _ different (notCall holds).2 (notCall holds').2
  · intro wrong mem
    have was := kept.wrongs wrong mem
    have elsewhere : wrong.call ≠ call := by
      intro isCall
      rw [isCall, right] at was
      cases was
    exact (others _ elsewhere).trans was
  · intro other one two was
    change update state.calls call (.confirmed first second) other = .confirmed one two at was
    by_cases isCall : other = call
    · rw [isCall, update_self] at was
      cases was
      refine ⟨⟨kept.ids _ own.1.1, kept.ids _ own.2.1⟩, ?_⟩
      intro row mem
      have outside := grows.leaves row mem (mem_of_mem_filter mem)
      rw [mem_cons, mem_singleton, not_or] at outside
      exact outside
    · rw [others other isCall] at was
      exact kept.confirmed_grow grows was

theorem reserved (constant : budgets.Agrees (confirmLimits account) confirmFailureWindow)
  (absent : state.calls call = .absent) {clock : List ℚ} (forward : Forward clock 4) :
  CallsKept budgets account past (state.reserve account call clock) := by
  have distinct : ((confirmLimits account).map KeyLimit.key).Nodup := by
    have different : confirmKey account ≠ confirmDayKey account := by
      intro same
      have lengths := congrArg length same
      unfold confirmKey confirmDayKey at lengths
      rw [length_append, length_append] at lengths
      have short : (Text.ofString "confirm-fail:").length = 13 := by decide
      have long : (Text.ofString "confirm-fail-day:").length = 17 := by decide
      omega
    exact nodup_cons.mpr ⟨fun mem => different (mem_singleton.mp mem), nodup_singleton _⟩
  have keptTable := kept_reserve kept.kept constant distinct forward
  have grows := grows_reserve state.table (confirmLimits account) confirmFailureWindow clock
  unfold ConfirmState.reserve
  cases found : anyReached state.table confirmFailureWindow clock 0 (confirmLimits account) with
  | true =>
    apply kept.move call .refused (.inl rfl) nofun
    intro first second clash
    rw [absent] at clash
    cases clash
  | false =>
    let first : HitRow := ⟨state.table.lastId + 1, confirmKey account, stamp (reading clock 2)⟩
    let second : HitRow := ⟨state.table.lastId + 2, confirmDayKey account, stamp (reading clock 3)⟩
    have rows : (reserve state.table (confirmLimits account) confirmFailureWindow clock).1.rows =
        state.table.rows ++ [first, second] := by
      unfold reserve
      rw [found]
      rfl
    have firstIn : first ∈ (reserve state.table (confirmLimits account) confirmFailureWindow clock).1.rows := by
      rw [rows]
      exact mem_append_right _ mem_cons_self
    have secondIn : second ∈ (reserve state.table (confirmLimits account) confirmFailureWindow clock).1.rows := by
      rw [rows]
      exact mem_append_right _ (mem_cons_of_mem _ mem_cons_self)
    have old {other : ℕ} {one two : HitRow} (holds : (state.calls other).holds = some (one, two)) :
        one.id <= state.table.lastId /\ two.id <= state.table.lastId :=
      ⟨kept.ids _ (kept.present other one two holds).1.1, kept.ids _ (kept.present other one two holds).2.1⟩
    have holdsNow {other : ℕ} {one two : HitRow}
        (holds : (update state.calls call (.counted first second) other).holds = some (one, two)) :
        (other = call /\ one = first /\ two = second) \/ (other ≠ call /\ (state.calls other).holds = some (one, two)) := by
      by_cases isCall : other = call
      · rw [isCall, update_self] at holds
        cases holds
        exact .inl ⟨isCall, rfl, rfl⟩
      · rw [update_of_ne isCall] at holds
        exact .inr ⟨isCall, holds⟩
    refine ⟨keptTable, kept.ids_grow grows, ?_, ?_, ?_, kept.once, ?_⟩
    · intro other one two holds
      rcases holdsNow holds with ⟨_, isFirst, isSecond⟩ | ⟨_, was⟩
      · rw [isFirst, isSecond]
        exact ⟨⟨firstIn, rfl, mem_append_right _ mem_cons_self⟩,
          secondIn, rfl, mem_append_right _ (mem_cons_of_mem _ mem_cons_self)⟩
      · rcases kept.present other one two was with ⟨⟨oneIn, oneKey, oneOwned⟩, twoIn, twoKey, twoOwned⟩
        exact ⟨⟨grows.stays one oneIn not_mem_nil, oneKey, mem_append_left _ oneOwned⟩,
          grows.stays two twoIn not_mem_nil, twoKey, mem_append_left _ twoOwned⟩
    · intro one other _ _ _ _ different holds holds'
      rcases holdsNow holds with ⟨isCall, isFirst, isSecond⟩ | ⟨_, was⟩
      · rcases holdsNow holds' with ⟨isCall', _, _⟩ | ⟨_, was'⟩
        · exact absurd (isCall.trans isCall'.symm) different
        · have bounds := old was'
          rw [isFirst, isSecond]
          refine ⟨⟨?_, ?_⟩, ?_, ?_⟩ <;> simp only [first, second] <;> omega
      · rcases holdsNow holds' with ⟨_, isFirst, isSecond⟩ | ⟨_, was'⟩
        · have bounds := old was
          rw [isFirst, isSecond]
          refine ⟨⟨?_, ?_⟩, ?_, ?_⟩ <;> simp only [first, second] <;> omega
        · exact kept.apart one other _ _ _ _ different was was'
    · intro wrong mem
      have was := kept.wrongs wrong mem
      have elsewhere : wrong.call ≠ call := by
        intro isCall
        rw [isCall, absent] at was
        cases was
      exact (update_of_ne elsewhere _ _).trans was
    · intro other one two was
      change update state.calls call (.counted first second) other = .confirmed one two at was
      by_cases isCall : other = call
      · rw [isCall, update_self] at was
        cases was
      · rw [update_of_ne isCall] at was
        exact kept.confirmed_grow grows was

end

end CallsKept

theorem callsKept_step {state : ConfirmState} (kept : CallsKept budgets account past state)
  (constant : budgets.Agrees (confirmLimits account) confirmFailureWindow) {action : ConfirmAction}
  (proper : action.Proper budgets state) {next : ConfirmState × List WrongPassword}
  (taken : state.step account action = some next) : CallsKept budgets account (past ++ next.2) next.1 := by
  cases action with
  | reserve call clock =>
    simp only [step] at taken
    by_cases absent : state.calls call = .absent
    · rw [if_pos absent] at taken
      cases taken
      rw [append_nil]
      exact kept.reserved constant absent proper
    · rw [if_neg absent] at taken
      cases taken
  | verify call correct now =>
    simp only [step] at taken
    cases place : state.calls call with
    | counted first second =>
      rw [place] at taken
      cases correct with
      | true =>
        cases taken
        change CallsKept budgets account (past ++ []) (state.move call (.right first second))
        rw [append_nil]
        refine kept.move call (.right first second) (.inr ?_) nofun ?_
        · rw [place]
          rfl
        · intro first' second' clash
          rw [place] at clash
          cases clash
      | false =>
        cases taken
        exact kept.wrong place (stamp now)
    | _ =>
      rw [place] at taken
      cases taken
  | release call =>
    simp only [step] at taken
    cases place : state.calls call with
    | right first second =>
      rw [place] at taken
      cases taken
      rw [append_nil]
      exact kept.released place
    | _ =>
      rw [place] at taken
      cases taken
  | kill call =>
    simp only [step] at taken
    cases place : state.calls call with
    | counted first second | right first second =>
      rw [place] at taken
      cases taken
      rw [append_nil]
      refine kept.move call .killed (.inl rfl) nofun ?_
      intro _ _ clash
      rw [place] at clash
      cases clash
    | _ =>
      rw [place] at taken
      cases taken
  | other action =>
    cases taken
    rw [append_nil]
    exact kept.other proper

theorem callsKept_trace (constant : budgets.Agrees (confirmLimits account) confirmFailureWindow) {state : ConfirmState}
  (trace : (confirmMachine budgets account).Trace (confirmReport account) past state) :
  CallsKept budgets account past state := by
  refine Machine.Trace.induct ?_ ?_ trace
  · intro state isStart
    rw [show state = .start from isStart]
    exact callsKept_start
  · intro past state action kept allowed
    rcases Option.isSome_iff_exists.mp allowed.2 with ⟨_, taken⟩
    have step := callsKept_step kept constant allowed.1 taken
    change CallsKept budgets account (past ++ ((state.step account action).map Prod.snd).getD [])
      (((state.step account action).map Prod.fst).getD state)
    rw [taken]
    exact step

theorem CallsKept.rows {state : ConfirmState} (kept : CallsKept budgets account past state) :
  (past.map WrongPassword.first).Subperm state.table.rows /\ (past.map WrongPassword.second).Subperm state.table.rows := by
  have holds {wrong : WrongPassword} (mem : wrong ∈ past) :
      (state.calls wrong.call).holds = some (wrong.first, wrong.second) := by
    rw [kept.wrongs wrong mem]
    rfl
  have calls : past.Pairwise (fun one other => one.call ≠ other.call) := pairwise_map.mp kept.once
  have apart {one other : WrongPassword} (isOne : one ∈ past) (isOther : other ∈ past) (different : one.call ≠ other.call) :=
    kept.apart one.call other.call _ _ _ _ different (holds isOne) (holds isOther)
  constructor
  · apply subperm_of_subset
    · rw [nodup_iff_pairwise_ne, pairwise_map]
      apply calls.imp_of_mem
      intro one other isOne isOther different same
      exact (apart isOne isOther different).1.1 (congrArg HitRow.id same)
    · intro row mem
      rcases mem_map.mp mem with ⟨wrong, isWrong, isRow⟩
      rw [<- isRow]
      exact (kept.present _ _ _ (holds isWrong)).1.1
  · apply subperm_of_subset
    · rw [nodup_iff_pairwise_ne, pairwise_map]
      apply calls.imp_of_mem
      intro _ _ isOne isOther different same
      exact (apart isOne isOther different).2.2 (congrArg HitRow.id same)
    · intro _ mem
      rcases mem_map.mp mem with ⟨_, isWrong, isRow⟩
      rw [<- isRow]
      exact (kept.present _ _ _ (holds isWrong)).2.1

theorem wrongs_bounded {table : HitTable} (kept : HitsKept budgets table) {key : Text} {counted : WrongPassword -> HitRow}
  (rows : (past.map counted).Subperm table.rows) (keys : ∀ wrong ∈ past, (counted wrong).key = key) (start : ℤ) :
  past.countP (fun wrong => SlidingWindow.inSpan start (budgets.windowOf key) (counted wrong).hitAt) <=
    (budgets.limitOf key).toNat := by
  have bounded := span_bounded kept rfl rows key start
  unfold countInSpan at bounded
  rw [countP_map] at bounded
  refine le_trans (le_of_eq ?_) bounded
  apply countP_congr
  intro wrong mem
  simp only [comp_apply, keys wrong mem, decide_true, Bool.true_and]

/--
However uses of the table interleave: no span of the window of a key holds more than its limit of events that
were recorded and never released.
-/
theorem budgets_kept (budgets : Budgets) : (∀ past table, (hitMachine budgets).Trace hitReport past table ->
    ∀ key start, countInSpan budgets (unreleasedOf past) key start <= (budgets.limitOf key).toNat) /\
  (∀ table limits windowSeconds clock, reserve table limits windowSeconds clock = (table, none) \/
    ∃ rows, rows.map HitRow.key = limits.map KeyLimit.key /\
      (reserve table limits windowSeconds clock).1.rows = table.rows ++ rows /\
      (reserve table limits windowSeconds clock).2 = some (rows.map HitRow.id)) /\
  (∀ account past state, budgets.Agrees (confirmLimits account) confirmFailureWindow ->
    (confirmMachine budgets account).Trace (confirmReport account) past state ->
    (∀ start, past.countP (fun wrong =>
      SlidingWindow.inSpan start confirmFailureWindow wrong.first.hitAt) <= confirmFailures.toNat) /\
    (∀ start, past.countP (fun wrong =>
      SlidingWindow.inSpan start daySeconds wrong.second.hitAt) <= confirmFailuresPerDay.toNat) /\
    (∀ call first second, state.calls call = .confirmed first second ->
      ∀ row ∈ state.table.rows, row.id ≠ first.id /\ row.id ≠ second.id)) := by
  refine ⟨?_, reserve_all_or_none, ?_⟩
  · intro past table trace key start
    rcases unreleased_trace trace with ⟨kept, stays⟩
    exact span_bounded kept rfl stays.subperm key start
  · intro account past state constant trace
    have kept := callsKept_trace constant trace
    have holds {wrong : WrongPassword} (mem : wrong ∈ past) :=
      kept.present wrong.call wrong.first wrong.second (by rw [kept.wrongs wrong mem]; rfl)
    have first := constant ⟨confirmKey account, confirmFailures, none⟩ mem_cons_self
    have second := constant ⟨confirmDayKey account, confirmFailuresPerDay, some daySeconds⟩
      (mem_cons_of_mem _ mem_cons_self)
    refine ⟨?_, ?_, fun call one two was => (kept.confirmed call one two was).2⟩
    · intro start
      have bounded := wrongs_bounded kept.kept kept.rows.1 (fun wrong mem => (holds mem).1.2.1) start
      rw [<- first.1, <- first.2] at bounded
      exact bounded
    · intro start
      have bounded := wrongs_bounded kept.kept kept.rows.2 (fun wrong mem => (holds mem).2.2.1) start
      rw [<- second.1, <- second.2] at bounded
      exact bounded

def sampleAccount : Text := [.scalar 'u', .scalar '1']

def sampleBudgets : Budgets where
  limitOf := fun key => if key = confirmKey sampleAccount then 10 else if key = confirmDayKey sampleAccount then 50 else 1
  windowOf := fun key => if key = confirmKey sampleAccount then 900 else if key = confirmDayKey sampleAccount then 86400 else 60

def lateChecks : List ConfirmAction :=
  (range 10).map (.reserve · [0, 0, 0, 0]) ++
    (range 10).map (fun call => .reserve (10 + call) [901, 901, 901, 901]) ++
    (range 20).map (.verify · false 902)

def wrongAndRight : List ConfirmAction :=
  [.reserve 0 [0, 0, 1, 1], .reserve 1 [1, 1, 1, 2], .verify 0 false 3, .other (.hit [.scalar 'k'] 1 60 true 2 4),
    .verify 1 true 5, .release 1]

def releasedInBetween : List HitAction :=
  [.reserve [⟨[.scalar 'k'], 1, none⟩] 60 [0, 0], .release [1], .hit [.scalar 'k'] 1 60 true 1 2,
    .hit [.scalar 'k'] 1 60 true 3 3]

instance decidableConfirmProper (state : ConfirmState) (action : ConfirmAction) : Decidable (action.Proper budgets state) :=
  match action with
  | .reserve _ clock => inferInstanceAs (Decidable (Forward clock 4))
  | .other (.release ids) => inferInstanceAs (Decidable (∀ id ∈ ids, id ∉ state.owned))
  | .other (.hit _ _ _ _ _ _) => inferInstanceAs (Decidable (_ /\ _))
  | .other (.reserve _ _ _) => inferInstanceAs (Decidable (_ /\ _ /\ _))
  | .verify _ _ _ => inferInstanceAs (Decidable True)
  | .release _ => inferInstanceAs (Decidable True)
  | .kill _ => inferInstanceAs (Decidable True)

instance decidableConfirmEnabled (state : ConfirmState) (action : ConfirmAction) :
  Decidable ((confirmMachine budgets account).enabled state action) :=
  inferInstanceAs (Decidable (action.Proper budgets state /\ (state.step account action).isSome))

instance decidableHitEnabled (table : HitTable) (action : HitAction) : Decidable ((hitMachine budgets).enabled table action) :=
  match action with
  | .release _ => inferInstanceAs (Decidable True)
  | .hit _ _ _ _ _ _ => inferInstanceAs (Decidable (_ /\ _))
  | .reserve _ _ _ => inferInstanceAs (Decidable (_ /\ _ /\ _))

/-- By the moment of the check there is no such bound, and a key that a reservation names twice is counted twice. -/
theorem late_checks_exceed : (∃ past state,
    (confirmMachine sampleBudgets sampleAccount).Trace (confirmReport sampleAccount) past state /\
      confirmFailures.toNat < past.countP (fun wrong =>
        SlidingWindow.inSpan 900 confirmFailureWindow wrong.checkedAt)) /\
    1 < countInSpan sampleBudgets
      (reserve ⟨[], 0⟩ [⟨[.scalar 'k'], 1, none⟩, ⟨[.scalar 'k'], 1, none⟩] 60 [0, 0, 0, 0]).1.rows [.scalar 'k'] 0 := by
  have admitted : (confirmMachine sampleBudgets sampleAccount).Admits .start lateChecks := by decide +kernel
  exact ⟨⟨_, _, (Machine.Trace.start rfl).run lateChecks admitted, by decide +kernel⟩, by decide +kernel⟩

theorem budgets_kept_wrongAndRight :
  (([] ++ (confirmMachine sampleBudgets sampleAccount).reports (confirmReport sampleAccount) .start wrongAndRight).countP
      (fun wrong : WrongPassword => SlidingWindow.inSpan 1 confirmFailureWindow wrong.first.hitAt) <= 10 /\
    ((confirmMachine sampleBudgets sampleAccount).run .start wrongAndRight).table.rows.length = 3) /\
    countInSpan sampleBudgets
      (unreleasedOf ([] ++ (hitMachine sampleBudgets).reports hitReport ⟨[], 0⟩ releasedInBetween)) [.scalar 'k'] 0 <= 1 := by
  have admitted : (confirmMachine sampleBudgets sampleAccount).Admits .start wrongAndRight := by decide +kernel
  have constant : sampleBudgets.Agrees (confirmLimits sampleAccount) confirmFailureWindow := by decide +kernel
  have hits : (hitMachine sampleBudgets).Admits ⟨[], 0⟩ releasedInBetween := by decide +kernel
  rcases budgets_kept sampleBudgets with ⟨spans, _, confirmations⟩
  refine ⟨⟨?_, by decide +kernel⟩, ?_⟩
  · exact (confirmations sampleAccount _ _ constant ((Machine.Trace.start rfl).run wrongAndRight admitted)).1 1
  · exact spans _ _ ((Machine.Trace.start rfl).run releasedInBetween hits) [.scalar 'k'] 0

end BananaChat.SignIn

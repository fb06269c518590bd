import BananaChat.Foundation.Shares
import BananaChat.Subscriptions.Pool

namespace BananaChat.Subscriptions.Pooled

open Foundation List Nat Shares

/-!
# The fractions of a pool

An account that is usable has a 5-hour budget and some of it left, so the divisors of the pooled
fractions are never zero where anything is usable, and where nothing is the answer is zero.
-/

theorem isFraction_none : IsFraction none := nofun

theorem isFraction_some {value : ℚ} (nonneg : 0 <= value) (atMost : value <= 1) : IsFraction (some value) := by
  intro _ same
  cases same
  exact ⟨nonneg, atMost⟩

theorem isFraction_zero : IsFraction (some 0) := isFraction_some (le_refl 0) zero_le_one

theorem isFraction_map (left : Option Fraction) : IsFraction (left.map Subtype.val) := by
  intro _ known
  rcases Option.map_eq_some_iff.mp known with ⟨fraction, _, rfl⟩
  exact fraction.property

section Account

variable {pool : Pool} {row : PoolAccount} {now : ℚ} {family : Option String}

theorem isFraction_capped {left : Option ℚ} (inside : IsFraction left) (percent : Option Percent) :
  IsFraction (capped left percent) := by
  cases percent with
  | none =>
    exact inside
  | some percent =>
    cases left with
    | none => exact isFraction_zero
    | some left =>
      simp only [capped]
      split
      · exact isFraction_zero
      · rename_i below
        have positive : (0 : ℚ) < percent.value := by exact_mod_cast percent.positive
        exact isFraction_some (le_min zero_le_one (div_nonneg (sub_nonneg.mpr (not_le.mp below).le) positive.le))
          (min_le_left _ _)

theorem upstreamCapacity_fraction (pool : Pool) (row : PoolAccount) (now : ℚ) (family : Option String) :
  IsFraction (upstreamCapacity pool row now family).1 /\ IsFraction (upstreamCapacity pool row now family).2 := by
  have nothing : IsFraction ((some 0, some 0) : Option ℚ × Option ℚ).1 /\ IsFraction ((some 0, some 0) : Option ℚ × Option ℚ).2 :=
    ⟨isFraction_zero, isFraction_zero⟩
  have unknown : IsFraction ((none, none) : Option ℚ × Option ℚ).1 /\ IsFraction ((none, none) : Option ℚ × Option ℚ).2 :=
    ⟨isFraction_none, isFraction_none⟩
  unfold upstreamCapacity
  dsimp only
  split
  · exact nothing
  · split
    · split
      · exact nothing
      · exact unknown
    · split
      · exact nothing
      · rename_i report _
        split
        · exact nothing
        · split
          · split
            · exact nothing
            · exact unknown
          · have window := isFraction_capped (isFraction_map report.windowLeft) row.windowCapPct
            have weekly := isFraction_capped (isFraction_map report.weeklyLeft) row.weeklyCapPct
            split
            · exact ⟨window, weekly⟩
            · split
              · exact ⟨window, weekly⟩
              · rename_i left found
                have scope : IsFraction ((report.scope family).map fun scope => scope.left.val) := by
                  have same : (report.scope family).map (·.left.val) =
                      ((report.scope family).map ScopedReport.left).map Subtype.val := by
                    rw [Option.map_map]
                    rfl
                  rw [same]
                  exact isFraction_map _
                have inside := isFraction_capped scope _ left found
                refine ⟨window, ?_⟩
                cases known : capped (report.weeklyLeft.map Subtype.val) row.weeklyCapPct with
                | none => exact isFraction_some inside.1 inside.2
                | some weeklyLeft =>
                  have bounds := weekly weeklyLeft known
                  exact isFraction_some (le_min bounds.1 inside.1) ((min_le_left _ _).trans bounds.2)

structure Serves (pool : Pool) (row : PoolAccount) (now : ℚ) (family : Option String) : Prop where
  active : row.status = .active
  rested : resting row.toAccount now = false
  fresh : quotaFresh row now
  upstream : ∀ value, (upstreamCapacity pool row now family).1 = some value \/
    (upstreamCapacity pool row now family).2 = some value -> 0 < value
  window : ∃ limit, row.windowLimit = some limit /\ (current row.toAccount now).1 < limit
  weekly : ∀ limit, row.weeklyLimit = some limit -> (current row.toAccount now).2 < limit
  inScope : scopedOk pool row family now

theorem usable_iff : usable pool row now family ↔ Serves pool row now family := by
  constructor
  · intro serving
    unfold usable at serving
    split at serving
    · cases serving
    · rename_i opened
      dsimp only at serving
      split at serving
      · cases serving
      · rename_i upstream
        split at serving
        · cases serving
        · rename_i window
          split at serving
          · cases serving
          · rename_i weekly
            simp only [not_or, not_ne_iff, Option.any_eq_true, not_exists, not_and, Bool.not_eq_true, Bool.not_eq_false,
              decide_eq_true_eq, not_le] at opened upstream window weekly
            rcases Option.ne_none_iff_exists'.mp opened.2.1 with ⟨limit, budget⟩
            refine ⟨opened.1, opened.2.2.1, opened.2.2.2, ?_, ⟨limit, budget, window limit budget⟩, weekly, serving⟩
            rintro value (known | known)
            · exact upstream.1 value known
            · exact upstream.2 value known
  · rintro ⟨active, rested, fresh, upstream, ⟨limit, budget, below⟩, weekly, inScope⟩
    have opened : ¬ (row.status ≠ .active \/ row.windowLimit = none \/ resting row.toAccount now \/
        quotaFresh row now = false) := by
      rw [active, budget, rested, fresh]
      simp
    have left : ¬ ((upstreamCapacity pool row now family).1.any (· <= 0) \/
        (upstreamCapacity pool row now family).2.any (· <= 0)) := by
      simp only [not_or, Option.any_eq_true, not_exists, not_and, decide_eq_true_eq, not_le]
      exact ⟨fun value known => upstream value (.inl known), fun value known => upstream value (.inr known)⟩
    have window : ¬ (row.windowLimit.any (fun limit => limit <= (current row.toAccount now).1)) := by
      simp only [budget, Option.any_some, decide_eq_true_eq, not_le]
      exact below
    have week : ¬ (row.weeklyLimit.any (fun limit => limit <= (current row.toAccount now).2)) := by
      simp only [Option.any_eq_true, not_exists, not_and, decide_eq_true_eq, not_le]
      exact weekly
    unfold usable
    rw [if_neg opened, if_neg left, if_neg window, if_neg week]
    exact inScope

end Account

theorem leftOf_zero (isUsable : Bool) (used : ℕ) (upstream : Option ℚ) : leftOf isUsable used upstream 0 = 0 := by
  have nothing : max 0 ((0 : ℚ) - used) = 0 := max_eq_left (by simp)
  unfold leftOf
  cases upstream <;> simp

theorem leftOf_within (isUsable : Bool) (used : ℕ) {upstream : Option ℚ} (fraction : IsFraction upstream) {limit : ℚ}
  (nonneg : 0 <= limit) : 0 <= leftOf isUsable used upstream limit /\ leftOf isUsable used upstream limit <= limit := by
  cases isUsable with
  | false => exact ⟨le_refl 0, nonneg⟩
  | true =>
    have remaining : max 0 (limit - used) <= limit := max_le nonneg (sub_le_self _ (cast_nonneg used))
    cases upstream with
    | none => exact ⟨le_max_left _ _, remaining⟩
    | some upstream =>
      have inside := fraction upstream rfl
      exact ⟨le_min (le_max_left _ _) (mul_nonneg nonneg inside.1), (min_le_left _ _).trans remaining⟩

variable {left : PoolAccount -> ℚ -> ℚ} {limit : PoolAccount -> Option ℕ} {rows : List PoolAccount}

section

variable (nothing : ∀ row, left row 0 = 0)
include nothing

theorem budgetSums_eq (rows : List PoolAccount) : budgetSums limit left rows =
    (total (fun row => ((limit row).getD 0 : ℚ)) rows, total (fun row => left row ((limit row).getD 0)) rows) := by
  have loop : ∀ (rows : List PoolAccount) (sums : ℚ × ℚ),
      rows.foldl (fun sums row =>
        let amount : ℚ := (limit row).getD 0
        if amount <= 0 then sums else (sums.1 + amount, sums.2 + left row amount)) sums =
        (sums.1 + total (fun row => ((limit row).getD 0 : ℚ)) rows,
          sums.2 + total (fun row => left row ((limit row).getD 0)) rows) := by
    intro rows
    induction rows with
    | nil => simp
    | cons row rows ih =>
      intro _
      rw [foldl_cons, ih]
      dsimp only
      split
      · rename_i small
        have zero : (((limit row).getD 0 : ℕ) : ℚ) = 0 := le_antisymm small (cast_nonneg _)
        simp [zero, nothing]
      · simp [add_assoc]
  unfold budgetSums
  rw [loop]
  simp

theorem budgetedFraction_eq
  (within : Within (fun row => ((limit row).getD 0 : ℚ)) (fun row => left row ((limit row).getD 0)) rows)
  (positive : 0 < total (fun row => ((limit row).getD 0 : ℚ)) rows) : budgetedFraction limit left rows =
    .ok (some (pooled (fun row => ((limit row).getD 0 : ℚ)) (fun row => left row ((limit row).getD 0)) rows)) := by
  have inside := within.pooled_fraction
  unfold budgetedFraction
  rw [budgetSums_eq nothing]
  rw [if_pos positive, quotient, if_neg positive.ne']
  change Except.ok (some (max 0 (min 1 (pooled _ _ rows)))) = _
  rw [min_eq_right inside.2, max_eq_right inside.1]

theorem budgetedFraction_none (zero : ¬ 0 < total (fun row => ((limit row).getD 0 : ℚ)) rows) :
  budgetedFraction limit left rows = .ok none := by
  unfold budgetedFraction
  rw [budgetSums_eq nothing]
  exact if_neg zero

end

theorem reduceOption_sum (upstream : PoolAccount -> Option ℚ) (rows : List PoolAccount) :
  (rows.map upstream).reduceOption.sum = total (fun row => (upstream row).getD 0) rows := by
  induction rows with
  | nil => rfl
  | cons row rows ih =>
    rw [map_cons, total_cons, <- ih]
    cases upstream row with
    | none | some value => simp

theorem unbudgetedFraction_eq (upstream : PoolAccount -> Option ℚ) (some : rows ≠ []) :
  unbudgetedFraction upstream rows = .ok (if rows.any (fun row => (upstream row).isNone) then none
      else .some (total (fun row => (upstream row).getD 0) rows / rows.length)) := by
  have positive : (rows.length : ℚ) ≠ 0 := by
    rw [cast_ne_zero]
    exact fun empty => some (length_eq_zero_iff.mp empty)
  unfold unbudgetedFraction
  dsimp only
  rw [any_map, reduceOption_sum, quotient, if_neg positive]
  change (if rows.any (fun row => (upstream row).isNone) then _ else _) = _
  split <;> rfl

def activeRows (rows : List PoolAccount) : List PoolAccount := rows.filter (·.status = .active)

section

variable (pool : Pool) (rows : List PoolAccount) (now : ℚ) (family : Option String)

def unbudgetedServes : Bool := (activeRows rows).any (fun row => row.weeklyLimit.isNone && usable pool row now family)

def weeklyOpen : Bool :=
  rows.any (fun row => row.weeklyLimit.isNone && usable pool row now family && (upstreamCapacity pool row now family).2.isNone)

end

def windowWeight (row : PoolAccount) : ℚ := row.windowLimit.getD 0

def windowPart (pool : Pool) (now : ℚ) (family : Option String) (row : PoolAccount) : ℚ :=
  leftOf (usable pool row now family) (current row.toAccount now).1 (upstreamCapacity pool row now family).1 (windowWeight row)

def weeklyWeight (unbudgeted : Bool) (row : PoolAccount) : ℚ :=
  if unbudgeted then if row.weeklyLimit.isNone then 1 else 0 else row.weeklyLimit.getD 0

def weeklyPart (unbudgeted : Bool) (pool : Pool) (now : ℚ) (family : Option String) (row : PoolAccount) : ℚ :=
  if unbudgeted then
    if row.weeklyLimit.isNone then
      (if usable pool row now family then (upstreamCapacity pool row now family).2 else some 0).getD 0
    else 0
  else
    leftOf (usable pool row now family) (current row.toAccount now).2 (upstreamCapacity pool row now family).2
      (row.weeklyLimit.getD 0)

section

variable (pool : Pool) (rows : List PoolAccount) (now : ℚ) (family : Option String)

def windowFraction : ℚ := Shares.pooled windowWeight (windowPart pool now family) (activeRows rows)

def weeklyFraction : ℚ :=
  let unbudgeted := unbudgetedServes pool rows now family
  Shares.pooled (weeklyWeight unbudgeted) (weeklyPart unbudgeted pool now family) (activeRows rows)

end

section Shares

variable {pool : Pool} {rows : List PoolAccount} {now : ℚ} {family : Option String}

variable {row : PoolAccount}

theorem mem_activeRows : row ∈ activeRows rows ↔ row ∈ rows /\ row.status = .active := by
  simp [activeRows]

theorem window_within (pool : Pool) (rows : List PoolAccount) (now : ℚ) (family : Option String) :
  Within windowWeight (windowPart pool now family) rows where
  nonneg row _ := (leftOf_within _ _ (upstreamCapacity_fraction pool row now family).1 (cast_nonneg _)).1
  atMost row _ := (leftOf_within _ _ (upstreamCapacity_fraction pool row now family).1 (cast_nonneg _)).2

theorem weekly_within (unbudgeted : Bool) (pool : Pool) (rows : List PoolAccount) (now : ℚ) (family : Option String) :
  Within (weeklyWeight unbudgeted) (weeklyPart unbudgeted pool now family) rows := by
  have bounds : ∀ row, 0 <= weeklyPart unbudgeted pool now family row /\
      weeklyPart unbudgeted pool now family row <= weeklyWeight unbudgeted row := by
    intro row
    have fraction := (upstreamCapacity_fraction pool row now family).2
    cases unbudgeted with
    | false => exact leftOf_within _ _ fraction (cast_nonneg _)
    | true =>
      simp only [weeklyPart, weeklyWeight, if_true]
      split
      · split
        · cases known : (upstreamCapacity pool row now family).2 with
          | none => exact ⟨le_refl 0, zero_le_one⟩
          | some value => exact fraction value known
        · exact ⟨le_refl 0, zero_le_one⟩
      · exact ⟨le_refl 0, le_refl 0⟩
  exact ⟨fun row _ => (bounds row).1, fun row _ => (bounds row).2⟩

theorem windowPart_unusable (unusable : usable pool row now family = false) : windowPart pool now family row = 0 := by
  unfold windowPart leftOf
  rw [unusable]
  rfl

theorem weeklyPart_unusable (unbudgeted : Bool) (unusable : usable pool row now family = false) :
  weeklyPart unbudgeted pool now family row = 0 := by
  unfold weeklyPart leftOf
  rw [unusable]
  cases unbudgeted <;> simp

theorem windowWeight_positive (mem : row ∈ rows) (serving : usable pool row now family) :
  0 < total windowWeight (activeRows rows) := by
  have serves := usable_iff.mp serving
  rcases serves.window with ⟨_, budget, _⟩
  have own : 0 < windowWeight row := by
    unfold windowWeight
    rw [budget, Option.getD_some, cast_pos]
    omega
  refine own.trans_le (single_le_sum ?_ _ (mem_map.mpr ⟨row, mem_activeRows.mpr ⟨mem, serves.active⟩, rfl⟩))
  intro _ inside
  rcases mem_map.mp inside with ⟨_, _, rfl⟩
  exact cast_nonneg _

theorem weeklyWeight_positive (budgeted : unbudgetedServes pool rows now family = false) (mem : row ∈ rows)
  (serving : usable pool row now family) : 0 < total (weeklyWeight false) (activeRows rows) := by
  have serves := usable_iff.mp serving
  have inside := mem_activeRows.mpr ⟨mem, serves.active⟩
  have own : 0 < weeklyWeight false row := by
    unfold weeklyWeight
    rw [if_neg Bool.false_ne_true]
    cases budget : row.weeklyLimit with
    | none =>
      have found : unbudgetedServes pool rows now family := by
        refine any_eq_true.mpr ⟨row, inside, ?_⟩
        rw [budget, serving]
        rfl
      rw [budgeted] at found
      cases found
    | some limit =>
      have below := serves.weekly limit budget
      rw [Option.getD_some, cast_pos]
      omega
  refine own.trans_le (single_le_sum ?_ _ (mem_map.mpr ⟨row, inside, rfl⟩))
  intro _ inside
  rcases mem_map.mp inside with ⟨_, _, rfl⟩
  exact cast_nonneg _

theorem weeklyOpen_iff : weeklyOpen pool rows now family ↔
  ∃ row ∈ rows, row.weeklyLimit = none /\ usable pool row now family /\
    (upstreamCapacity pool row now family).2 = none := by
  simp [weeklyOpen, and_assoc]

theorem unbudgetedServes_iff : unbudgetedServes pool rows now family ↔
  ∃ row ∈ rows, row.weeklyLimit = none /\ usable pool row now family := by
  constructor
  · intro serves
    rcases any_eq_true.mp serves with ⟨row, mem, both⟩
    simp only [Bool.and_eq_true, Option.isNone_iff_eq_none] at both
    exact ⟨row, (mem_activeRows.mp mem).1, both⟩
  · rintro ⟨row, mem, budget, serving⟩
    refine any_eq_true.mpr ⟨row, mem_activeRows.mpr ⟨mem, (usable_iff.mp serving).active⟩, ?_⟩
    rw [budget, serving]
    rfl

theorem fractions_idle (idle : ∀ row ∈ rows, usable pool row now family = false) :
  windowFraction pool rows now family = 0 /\ weeklyFraction pool rows now family = 0 /\
    weeklyOpen pool rows now family = false /\ unbudgetedServes pool rows now family = false := by
  refine ⟨pooled_eq_zero fun row mem => windowPart_unusable (idle row (mem_activeRows.mp mem).1),
    pooled_eq_zero fun row mem => weeklyPart_unusable _ (idle row (mem_activeRows.mp mem).1), ?_, ?_⟩
  · refine Bool.eq_false_of_not_eq_true fun opened => ?_
    rcases weeklyOpen_iff.mp opened with ⟨row, mem, _, serving, _⟩
    rw [idle row mem] at serving
    cases serving
  · refine Bool.eq_false_of_not_eq_true fun serves => ?_
    rcases unbudgetedServes_iff.mp serves with ⟨row, mem, _, serving⟩
    rw [idle row mem] at serving
    cases serving

theorem windowFraction_fraction (pool : Pool) (rows : List PoolAccount) (now : ℚ) (family : Option String) :
  0 <= windowFraction pool rows now family /\ windowFraction pool rows now family <= 1 :=
  (window_within pool (activeRows rows) now family).pooled_fraction

theorem weeklyFraction_fraction (pool : Pool) (rows : List PoolAccount) (now : ℚ) (family : Option String) :
  0 <= weeklyFraction pool rows now family /\ weeklyFraction pool rows now family <= 1 :=
  (weekly_within _ pool (activeRows rows) now family).pooled_fraction

theorem budgetedFraction_cases (nothing : ∀ row, left row 0 = 0)
  (within : Within (fun row => ((limit row).getD 0 : ℚ)) (fun row => left row ((limit row).getD 0)) rows) :
  ∃ fraction, budgetedFraction limit left rows = .ok fraction := by
  by_cases positive : 0 < total (fun row => ((limit row).getD 0 : ℚ)) rows
  · exact ⟨_, budgetedFraction_eq nothing within positive⟩
  · exact ⟨_, budgetedFraction_none nothing positive⟩

theorem unbudgetedFraction_weekly (serves : unbudgetedServes pool rows now family) :
  unbudgetedFraction (fun row => if usable pool row now family then (upstreamCapacity pool row now family).2 else some 0)
      ((activeRows rows).filter (·.weeklyLimit.isNone)) =
    .ok (if weeklyOpen pool rows now family then none
      else some (pooled (weeklyWeight true) (weeklyPart true pool now family) (activeRows rows))) := by
  rcases unbudgetedServes_iff.mp serves with ⟨row, mem, budget, serving⟩
  have inside : row ∈ (activeRows rows).filter (·.weeklyLimit.isNone) := by
    rw [mem_filter, mem_activeRows, budget]
    exact ⟨⟨mem, (usable_iff.mp serving).active⟩, rfl⟩
  have opened : ((activeRows rows).filter (·.weeklyLimit.isNone)).any (fun row =>
      (if usable pool row now family then (upstreamCapacity pool row now family).2 else some 0).isNone) =
        weeklyOpen pool rows now family := by
    rw [Bool.eq_iff_iff, weeklyOpen_iff, any_eq_true]
    constructor
    · rintro ⟨other, kept, unknown⟩
      rw [mem_filter, mem_activeRows, Option.isNone_iff_eq_none] at kept
      cases otherServing : usable pool other now family with
      | false =>
        rw [otherServing] at unknown
        cases unknown
      | true =>
        rw [otherServing, if_pos rfl, Option.isNone_iff_eq_none] at unknown
        exact ⟨other, kept.1.1, kept.2, otherServing, unknown⟩
    · rintro ⟨other, otherIn, otherBudget, otherServing, unknown⟩
      refine ⟨other, ?_, ?_⟩
      · rw [mem_filter, mem_activeRows, otherBudget]
        exact ⟨⟨otherIn, (usable_iff.mp otherServing).active⟩, rfl⟩
      · rw [otherServing, if_pos rfl, unknown]
        rfl
  have count : (((activeRows rows).filter (·.weeklyLimit.isNone)).length : ℚ) =
      total (weeklyWeight true) (activeRows rows) := by
    rw [<- total_one, total_filter]
    rfl
  rw [unbudgetedFraction_eq _ (ne_nil_of_mem inside), opened, total_filter, count]
  rfl

theorem fractionsFromAccounts_of {window weekly : Option ℚ} (notEmpty : activeRows rows ≠ [])
  (windowFound : budgetedFraction PoolAccount.windowLimit
    (fun row => leftOf (usable pool row now family) (current row.toAccount now).1 (upstreamCapacity pool row now family).1)
    (activeRows rows) = .ok window)
  (weeklyFound : (if unbudgetedServes pool rows now family then
      unbudgetedFraction (fun row => if usable pool row now family then (upstreamCapacity pool row now family).2 else some 0)
        ((activeRows rows).filter (·.weeklyLimit.isNone))
    else budgetedFraction PoolAccount.weeklyLimit
      (fun row => leftOf (usable pool row now family) (current row.toAccount now).2 (upstreamCapacity pool row now family).2)
      (activeRows rows)) = .ok weekly) :
  fractionsFromAccounts pool rows now family =
    .ok (if (activeRows rows).any (usable pool · now family) then (window, weekly) else (some 0, some 0)) := by
  unfold fractionsFromAccounts
  unfold activeRows at notEmpty windowFound weeklyFound ⊢
  unfold unbudgetedServes activeRows at weeklyFound
  rw [if_neg (by rwa [List.isEmpty_iff]), windowFound]
  change (if _ then _ else _) = _
  split at weeklyFound
  · rename_i serves
    rw [if_pos serves, weeklyFound]
    split <;> rfl
  · rename_i serves
    rw [if_neg serves, weeklyFound]
    split <;> rfl

theorem fractionsFromAccounts_eq (pool : Pool) (rows : List PoolAccount) (now : ℚ) (family : Option String) :
  fractionsFromAccounts pool rows now family = .ok (some (windowFraction pool rows now family),
      if weeklyOpen pool rows now family then none else some (weeklyFraction pool rows now family)) := by
  by_cases idle : ∀ row ∈ rows, usable pool row now family = false
  · rcases fractions_idle idle with ⟨windowZero, weeklyZero, opened, serves⟩
    rw [opened, windowZero, weeklyZero]
    by_cases empty : activeRows rows = []
    · unfold activeRows at empty
      unfold fractionsFromAccounts
      rw [empty]
      rfl
    · rcases budgetedFraction_cases (fun row => leftOf_zero _ _ _) (window_within pool (activeRows rows) now family) with
        ⟨window, windowFound⟩
      rcases budgetedFraction_cases (fun row => leftOf_zero _ _ _) (weekly_within false pool (activeRows rows) now family) with
        ⟨weekly, weeklyFound⟩
      have nobody : (activeRows rows).any (usable pool · now family) = false := by
        refine any_eq_false.mpr fun row mem => ?_
        rw [idle row (mem_activeRows.mp mem).1]
        exact Bool.false_ne_true
      rw [fractionsFromAccounts_of empty windowFound (by rw [serves]; exact weeklyFound), nobody]
      rfl
  · simp only [not_forall, Bool.not_eq_false] at idle
    rcases idle with ⟨row, mem, serving⟩
    have inside := mem_activeRows.mpr ⟨mem, (usable_iff.mp serving).active⟩
    have somebody : (activeRows rows).any (usable pool · now family) :=
      any_eq_true.mpr ⟨row, inside, serving⟩
    have windowFound := budgetedFraction_eq (fun row => leftOf_zero _ _ _) (window_within pool (activeRows rows) now family)
      (windowWeight_positive mem serving)
    cases serves : unbudgetedServes pool rows now family with
    | true =>
      rw [fractionsFromAccounts_of (ne_nil_of_mem inside) windowFound
        (by rw [serves]; exact unbudgetedFraction_weekly serves), somebody, weeklyFraction, serves]
      rfl
    | false =>
      have weeklyFound := budgetedFraction_eq (fun row => leftOf_zero _ _ _) (weekly_within false pool (activeRows rows) now family)
        (weeklyWeight_positive serves mem serving)
      have closed : weeklyOpen pool rows now family = false := by
        refine Bool.eq_false_of_not_eq_true fun opened => ?_
        rcases weeklyOpen_iff.mp opened with ⟨other, otherIn, budget, otherServing, _⟩
        have found := unbudgetedServes_iff.mpr ⟨other, otherIn, budget, otherServing⟩
        rw [serves] at found
        cases found
      rw [fractionsFromAccounts_of (ne_nil_of_mem inside) windowFound (by rw [serves]; exact weeklyFound), somebody, closed,
        weeklyFraction, serves]
      rfl

theorem fractionsFromAccounts_fraction {fractions : Option ℚ × Option ℚ}
  (found : fractionsFromAccounts pool rows now family = .ok fractions) : IsFraction fractions.1 /\ IsFraction fractions.2 := by
  rw [fractionsFromAccounts_eq] at found
  cases found
  constructor
  · exact isFraction_some (windowFraction_fraction pool rows now family).1 (windowFraction_fraction pool rows now family).2
  · split
    · exact isFraction_none
    · exact isFraction_some (weeklyFraction_fraction pool rows now family).1 (weeklyFraction_fraction pool rows now family).2

end Shares

end BananaChat.Subscriptions.Pooled

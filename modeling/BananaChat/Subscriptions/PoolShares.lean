import BananaChat.Subscriptions.Fractions

namespace BananaChat.Subscriptions.Pooled

open Foundation List Shares

/-!
# One account of a pool running out

An account whose counter has reached its limit is not usable, and counts with nothing left.
-/

/-- The same account with nothing remaining of its 5-hour or of its weekly budget. -/
structure Emptied (now : ℚ) (row spent : PoolAccount) : Prop where
  id : spent.id = row.id
  status : spent.status = row.status
  windowLimit : spent.windowLimit = row.windowLimit
  weeklyLimit : spent.weeklyLimit = row.weeklyLimit
  empty : (∃ limit, spent.windowLimit = some limit /\ limit <= (current spent.toAccount now).1) \/
    ∃ limit, spent.weeklyLimit = some limit /\ limit <= (current spent.toAccount now).2

theorem Emptied.unusable {now : ℚ} {row spent : PoolAccount} (emptied : Emptied now row spent) (pool : Pool)
  (family : Option String) : usable pool spent now family = false := by
  refine Bool.eq_false_of_not_eq_true fun serving => ?_
  have serves := usable_iff.mp serving
  rcases emptied.empty with ⟨limit, budget, _⟩ | ⟨limit, budget, _⟩
  · rcases serves.window with ⟨_, same, below⟩
    rw [budget, Option.some_inj] at same
    omega
  · have below := serves.weekly limit budget
    omega

def Lessened (share others : ℚ) (before after : Option ℚ) : Prop :=
  ∀ value, before = some value -> ∃ reduced, after = some reduced /\ value - share <= reduced /\ others <= reduced

def windowShare (first : List PoolAccount) (row : PoolAccount) (rest : List PoolAccount) : ℚ :=
  Shares.share windowWeight (activeRows (first ++ row :: rest)) row

section

variable (pool : Pool) (first : List PoolAccount) (row : PoolAccount) (rest : List PoolAccount)

section

variable (now : ℚ) (family : Option String)

def windowOthers
  : ℚ :=
  Shares.total (windowPart pool now family) (activeRows (first ++ rest)) /
    Shares.total windowWeight (activeRows (first ++ row :: rest))

def weeklyShare
  : ℚ :=
  Shares.share (weeklyWeight (unbudgetedServes pool (first ++ row :: rest) now family)) (activeRows (first ++ row :: rest)) row

def weeklyOthers
  : ℚ :=
  let unbudgeted := unbudgetedServes pool (first ++ row :: rest) now family
  Shares.total (weeklyPart unbudgeted pool now family) (activeRows (first ++ rest)) /
    Shares.total (weeklyWeight unbudgeted) (activeRows (first ++ row :: rest))

end

end

section Emptied

variable {pool : Pool} {first rest : List PoolAccount} {row spent : PoolAccount} {now : ℚ} {family : Option String}

theorem activeRows_middle (first rest : List PoolAccount) (row : PoolAccount) : activeRows (first ++ row :: rest) =
    if row.status = .active then activeRows first ++ row :: activeRows rest else activeRows first ++ activeRows rest := by
  unfold activeRows
  split
  · rename_i active
    simp [active]
  · rename_i inactive
    simp [inactive]

theorem activeRows_others (first rest : List PoolAccount) : activeRows (first ++ rest) = activeRows first ++ activeRows rest :=
  filter_append first rest

section

variable (emptied : Emptied now row spent)
include emptied

theorem pooled_lessened {weight part : PoolAccount -> ℚ} (sameWeight : weight spent = weight row)
  (nothing : part spent = 0) (within : Within weight part (activeRows (first ++ row :: rest))) (weights : 0 <= weight row) :
  pooled weight part (activeRows (first ++ row :: rest)) -
        share weight (activeRows (first ++ row :: rest)) row <=
      pooled weight part (activeRows (first ++ spent :: rest)) /\
    total part (activeRows (first ++ rest)) / total weight (activeRows (first ++ row :: rest)) =
      pooled weight part (activeRows (first ++ spent :: rest)) := by
  rw [activeRows_middle first rest spent, emptied.status]
  by_cases active : row.status = .active
  · rw [activeRows_middle first rest row, if_pos active] at within ⊢
    rw [if_pos active, pooled_emptied sameWeight nothing, activeRows_others]
    exact ⟨within.others_bounds.1, rfl⟩
  · rw [activeRows_middle first rest row, if_neg active] at within ⊢
    rw [if_neg active, activeRows_others]
    refine ⟨sub_le_self _ (div_nonneg weights within.weight_nonneg), rfl⟩

theorem weeklyOpen_emptied
  (opened : weeklyOpen pool (first ++ spent :: rest) now family) : weeklyOpen pool (first ++ row :: rest) now family := by
  rcases weeklyOpen_iff.mp opened with ⟨other, mem, budget, serving, unknown⟩
  refine weeklyOpen_iff.mpr ⟨other, ?_, budget, serving, unknown⟩
  rcases mem_append.mp mem with earlier | later
  · exact mem_append_left _ earlier
  · rcases mem_cons.mp later with rfl | later
    · rw [emptied.unusable pool family] at serving
      cases serving
    · exact mem_append_right _ (.tail _ later)

theorem unbudgetedServes_emptied (serves : unbudgetedServes pool (first ++ spent :: rest) now family) :
  unbudgetedServes pool (first ++ row :: rest) now family := by
  rcases unbudgetedServes_iff.mp serves with ⟨other, mem, budget, serving⟩
  refine unbudgetedServes_iff.mpr ⟨other, ?_, budget, serving⟩
  rcases mem_append.mp mem with earlier | later
  · exact mem_append_left _ earlier
  · rcases mem_cons.mp later with rfl | later
    · rw [emptied.unusable pool family] at serving
      cases serving
    · exact mem_append_right _ (.tail _ later)

end

theorem weeklyPart_last (serves : unbudgetedServes pool (first ++ spent :: rest) now family = false) {other : PoolAccount}
  (mem : other ∈ first ++ rest) : weeklyPart true pool now family other = 0 := by
  cases budget : other.weeklyLimit with
  | some limit => simp [weeklyPart, budget]
  | none =>
    refine weeklyPart_unusable true (Bool.eq_false_of_not_eq_true fun serving => ?_)
    have found : unbudgetedServes pool (first ++ spent :: rest) now family := by
      refine unbudgetedServes_iff.mpr ⟨other, ?_, budget, serving⟩
      rcases mem_append.mp mem with earlier | later
      · exact mem_append_left _ earlier
      · exact mem_append_right _ (.tail _ later)
    rw [serves] at found
    cases found

theorem weeklyWeight_nonneg (unbudgeted : Bool) (row : PoolAccount) : 0 <= weeklyWeight unbudgeted row := by
  cases unbudgeted with
  | false => exact Nat.cast_nonneg _
  | true =>
    simp only [weeklyWeight, if_true]
    split
    · exact zero_le_one
    · exact le_refl 0

section

variable (emptied : Emptied now row spent)
include emptied

theorem window_lessened : Lessened (windowShare first row rest) (windowOthers pool first row rest now family)
    (some (windowFraction pool (first ++ row :: rest) now family)) (some (windowFraction pool (first ++ spent :: rest) now family)) := by
  have sameWeight : windowWeight spent = windowWeight row := by
    unfold windowWeight
    rw [emptied.windowLimit]
  have law := pooled_lessened emptied sameWeight (windowPart_unusable (emptied.unusable pool family))
    (window_within pool (activeRows (first ++ row :: rest)) now family) (Nat.cast_nonneg _)
  intro _ known
  cases known
  exact ⟨_, rfl, law.1, law.2.le⟩

theorem weekly_lessened :
  weeklyFraction pool (first ++ row :: rest) now family - weeklyShare pool first row rest now family <=
      weeklyFraction pool (first ++ spent :: rest) now family /\
    weeklyOthers pool first row rest now family <= weeklyFraction pool (first ++ spent :: rest) now family := by
  have sameWeight : ∀ unbudgeted, weeklyWeight unbudgeted spent = weeklyWeight unbudgeted row := by
    intro unbudgeted
    unfold weeklyWeight
    rw [emptied.weeklyLimit]
  have law := fun unbudgeted => pooled_lessened emptied (sameWeight unbudgeted)
    (weeklyPart_unusable unbudgeted (emptied.unusable pool family))
    (weekly_within unbudgeted pool (activeRows (first ++ row :: rest)) now family)
    (weeklyWeight_nonneg unbudgeted row)
  unfold weeklyFraction weeklyShare weeklyOthers
  dsimp only
  cases after : unbudgetedServes pool (first ++ spent :: rest) now family with
  | true =>
    rw [unbudgetedServes_emptied emptied after]
    exact ⟨(law true).1, (law true).2.le⟩
  | false =>
    cases before : unbudgetedServes pool (first ++ row :: rest) now family with
    | false => exact ⟨(law false).1, (law false).2.le⟩
    | true =>
      have others : total (weeklyPart true pool now family) (activeRows (first ++ rest)) = 0 := by
        rw [total_congr fun other mem => weeklyPart_last after (mem_activeRows.mp mem).1]
        simp [total]
      have nonneg := ((weekly_within false pool (activeRows (first ++ spent :: rest)) now family).pooled_fraction).1
      have gone := (law true).1
      rw [<- (law true).2, others, zero_div] at gone
      rw [others, zero_div]
      exact ⟨gone.trans nonneg, nonneg⟩

theorem fractions_lessened : ∃ before after,
    fractionsFromAccounts pool (first ++ row :: rest) now family = .ok before /\
    fractionsFromAccounts pool (first ++ spent :: rest) now family = .ok after /\
    Lessened (windowShare first row rest) (windowOthers pool first row rest now family) before.1 after.1 /\
    Lessened (weeklyShare pool first row rest now family) (weeklyOthers pool first row rest now family) before.2 after.2 := by
  refine ⟨_, _, fractionsFromAccounts_eq _ _ _ _, fractionsFromAccounts_eq _ _ _ _, window_lessened emptied, ?_⟩
  intro _ known
  dsimp only at known ⊢
  split at known
  · cases known
  · rename_i closed
    cases known
    rw [if_neg fun opened => closed (weeklyOpen_emptied emptied opened)]
    exact ⟨_, rfl, weekly_lessened emptied⟩

end

end Emptied

section Order

variable {pool : Pool} {now : ℚ} {family : Option String}

theorem leftInOrder_ok {row : PoolAccount} (serving : usable pool row now family) :
  ∃ left, leftInOrder pool row now family = .ok left := by
  rcases (usable_iff.mp serving).window with ⟨limit, budget, _⟩
  have positive : (limit : ℚ) ≠ 0 := by
    rw [Nat.cast_ne_zero]
    omega
  unfold leftInOrder
  rw [budget]
  dsimp only
  rw [quotient, if_neg positive]
  exact ⟨_, rfl⟩

theorem mapM_keyed {Item Value Key : Type} {value : Item -> Except String Value} (key : Item -> Value -> Key) (items : List Item)
  (fine : ∀ item ∈ items, ∃ found, value item = .ok found) : ∃ keyed, items.mapM (fun item => do
      let found <- value item
      return (key item found, item)) = .ok keyed /\ keyed.map Prod.snd = items := by
  induction items with
  | nil => exact ⟨[], rfl, rfl⟩
  | cons item items ih =>
    rcases fine item (.head _) with ⟨found, isFound⟩
    rcases ih fun other mem => fine other (.tail _ mem) with ⟨keyed, loop, kept⟩
    refine ⟨(key item found, item) :: keyed, ?_, by rw [map_cons, kept]⟩
    rw [mapM_cons, isFound, loop]
    rfl

theorem accountsInOrder_perm (pool : Pool) (exclude : List ℕ) (now : ℚ) (family : Option String) :
  ∃ ordered, accountsInOrder pool exclude now family = .ok ordered /\
    ordered.Perm (pool.candidates exclude now family) := by
  have fine : ∀ row ∈ pool.candidates exclude now family, ∃ left, leftInOrder pool row now family = .ok left := by
    intro row mem
    unfold Pool.candidates at mem
    simp only [mem_filter, Bool.and_eq_true] at mem
    exact leftInOrder_ok mem.2.1.2
  rcases mapM_keyed (fun row left => ({ priority := -row.priority, left := -left, id := row.id } : OrderKey)) _ fine with
    ⟨keyed, loop, kept⟩
  refine ⟨(keyed.insertionSort fun first second => first.1.le second.1).map Prod.snd, ?_, ?_⟩
  · unfold accountsInOrder
    rw [loop]
    rfl
  · have sorted := (perm_insertionSort (fun first second : OrderKey × PoolAccount => first.1.le second.1) keyed).map Prod.snd
    rwa [kept] at sorted

end Order

/-- Pooled fractions are fractions, and an account that runs out costs at most its share. -/
theorem pool_shares (pool : Pool) (rows : List PoolAccount) (now : ℚ) (family : Option String) :
  (∃ fractions, fractionsFromAccounts pool rows now family = .ok fractions /\
    IsFraction fractions.1 /\ IsFraction fractions.2) /\
  (∀ first row rest spent, rows = first ++ row :: rest -> Emptied now row spent ->
    ∃ before after,
      fractionsFromAccounts pool rows now family = .ok before /\
      fractionsFromAccounts pool (first ++ spent :: rest) now family = .ok after /\
      Lessened (windowShare first row rest) (windowOthers pool first row rest now family) before.1 after.1 /\
      Lessened (weeklyShare pool first row rest now family) (weeklyOthers pool first row rest now family) before.2 after.2) /\
  ∀ exclude, ∃ ordered, accountsInOrder pool exclude now family = .ok ordered /\
    ordered.Perm (pool.candidates exclude now family) := by
  have found := fractionsFromAccounts_eq pool rows now family
  refine ⟨⟨_, found, fractionsFromAccounts_fraction found⟩, ?_, fun exclude => accountsInOrder_perm pool exclude now family⟩
  rintro first row rest spent rfl emptied
  exact fractions_lessened emptied

def localAccount (id windowLimit windowUsed : ℕ) : PoolAccount where
  id := id
  provider := .claude
  status := .active
  cooldownUntil := none
  lastError := ""
  quotaSource := .localBudget
  windowUsed := windowUsed
  windowResetsAt := none
  weeklyUsed := 0
  weeklyResetsAt := none
  priority := 0
  windowLimit := some windowLimit
  weeklyLimit := none
  windowCapPct := none
  weeklyCapPct := none
  quotaUpdatedAt := none
  quotaWindowUpdatedAt := none
  quotaWeeklyUpdatedAt := none
  lastCheckedAt := none

def localPool (accounts : List PoolAccount) : Pool where
  accounts := accounts
  caps := fun _ => some []
  usage := some []
  leases := []
  reports := none
  reporter := false
  chat := true
  cache := none

/-- Of 100 and 300 tokens 80 and 270 are left; without the first account 270 of 400 are. -/
theorem pool_shares_spent : ∃ before after,
    fractionsFromAccounts (localPool []) [localAccount 1 100 20, localAccount 2 300 30] 0 none = .ok before /\
    fractionsFromAccounts (localPool []) [localAccount 1 100 100, localAccount 2 300 30] 0 none = .ok after /\
    Lessened (windowShare [] (localAccount 1 100 20) [localAccount 2 300 30])
      (windowOthers (localPool []) [] (localAccount 1 100 20) [localAccount 2 300 30] 0 none) before.1 after.1 := by
  have emptied : Emptied 0 (localAccount 1 100 20) (localAccount 1 100 100) :=
    ⟨rfl, rfl, rfl, rfl, .inl ⟨100, rfl, by decide⟩⟩
  rcases (pool_shares (localPool []) [localAccount 1 100 20, localAccount 2 300 30] 0 none).2.1 [] _ _ _ rfl emptied with
    ⟨before, after, first, second, window, _⟩
  exact ⟨before, after, first, second, window⟩

end BananaChat.Subscriptions.Pooled

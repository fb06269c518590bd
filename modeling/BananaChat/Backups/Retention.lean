import BananaChat.Backups.Snapshots
import BananaChat.Foundation.Lists

namespace BananaChat.Backups

open Foundation List Bool

/-!
# Retention

`_prune` reads the plausible branches of a series, newest first.
-/

inductive Warning
  | undated (names : List Identifier)
  | tooManyUnverified
  | notRemoved (error : String)
  | unauthenticated (names : List Identifier)

/-- The variables of the loop, and the branches whose deletion was asked for. -/
structure Pruning where
  counted : ℕ
  unverified : List Identifier
  asked : List Identifier
  removed : List Identifier
  warnings : List Warning

namespace Pruning

/-- `git.remove` of a branch, which fails with an error or not. -/
def ask (pruning : Pruning) (name : Identifier) (failure : Option String) : Pruning :=
  match failure with
  | none => { pruning with asked := pruning.asked ++ [name], removed := pruning.removed ++ [name] }
  | some error => { pruning with
      asked := pruning.asked ++ [name], warnings := pruning.warnings ++ [.notRemoved error] }

variable (pruning : Pruning)

@[simp] theorem ask_asked (name : Identifier) (failure : Option String) :
    (pruning.ask name failure).asked = pruning.asked ++ [name] := by
  cases failure with
  | none | some error => rfl

@[simp] theorem ask_counted (name : Identifier) (failure : Option String) :
    (pruning.ask name failure).counted = pruning.counted := by
  cases failure with
  | none | some error => rfl

@[simp] theorem ask_unverified (name : Identifier) (failure : Option String) :
    (pruning.ask name failure).unverified = pruning.unverified := by
  cases failure with
  | none | some error => rfl

end Pruning

/-- The loop of `_prune` over the branches, newest first. -/
def pruneFrom (keep : ℕ) (isAuthenticated : Identifier -> Bool) (failure : Identifier -> Option String) :
    List Identifier -> Pruning -> Pruning
  | [], pruning => pruning
  | name :: rest, pruning =>
    if pruning.counted < keep then
      if maxUnverified <= pruning.unverified.length then
        { pruning with warnings := pruning.warnings ++ [.tooManyUnverified] }
      else if isAuthenticated name then
        pruneFrom keep isAuthenticated failure rest { pruning with counted := pruning.counted + 1 }
      else
        pruneFrom keep isAuthenticated failure rest { pruning with unverified := pruning.unverified ++ [name] }
    else
      pruneFrom keep isAuthenticated failure rest (pruning.ask name (failure name))

def prune (heads : List Identifier) (keep now : ℕ) (isAuthenticated : Identifier -> Bool)
  (failure : Identifier -> Option String) : Pruning :=
  let undated := (heads.filter (!isPlausible · now)).insertionSort
    (fun first second => nameOrder first <= nameOrder second)
  let told := if undated.isEmpty then [] else [.undated undated]
  let pruned := pruneFrom keep isAuthenticated failure (newestFirst heads now)
    { counted := 0, unverified := [], asked := [], removed := [], warnings := told }
  if pruned.unverified.isEmpty then pruned
  else { pruned with warnings := pruned.warnings ++ [.unauthenticated pruned.unverified] }

variable (names : List Identifier) {heads : List Identifier}

section Loop

variable {keep : ℕ} {isAuthenticated : Identifier -> Bool} {failure : Identifier -> Option String}

theorem pruneFrom_asked (pruning : Pruning) :
  pruning.asked ⊆ (pruneFrom keep isAuthenticated failure names pruning).asked /\
    ∀ name ∈ (pruneFrom keep isAuthenticated failure names pruning).asked, name ∈ pruning.asked \/ name ∈ names := by
  induction names generalizing pruning with
  | nil => exact ⟨List.Subset.refl _, fun _ asked => .inl asked⟩
  | cons name rest ih =>
    have later : ∀ next : Pruning, next.asked = pruning.asked ->
        pruning.asked ⊆ (pruneFrom keep isAuthenticated failure rest next).asked /\
          ∀ other ∈ (pruneFrom keep isAuthenticated failure rest next).asked,
            other ∈ pruning.asked \/ other ∈ name :: rest := by
      intro next same
      have step := ih next
      rw [same] at step
      exact ⟨step.1, fun other asked => (step.2 other asked).imp_right (mem_cons_of_mem name)⟩
    unfold pruneFrom
    split
    · split
      · exact ⟨List.Subset.refl _, fun _ asked => .inl asked⟩
      · split
        · exact later _ rfl
        · exact later _ rfl
    · have step := ih (pruning.ask name (failure name))
      rw [Pruning.ask_asked] at step
      refine ⟨fun _ asked => step.1 (mem_append_left _ asked), ?_⟩
      intro other asked
      rcases step.2 other asked with before | inRest
      · rcases mem_snoc.mp before with earlier | here
        · exact .inl earlier
        · exact .inr (mem_cons.mpr (.inl (here)))
      · exact .inr (mem_cons_of_mem name inRest)

theorem pruneFrom_counted (pruning : Pruning) (name : Identifier)
  (asked : name ∈ (pruneFrom keep isAuthenticated failure names pruning).asked) :
  name ∈ pruning.asked \/ ∃ before after,
    names = before ++ name :: after /\ keep <= pruning.counted + (before.filter isAuthenticated).length := by
  induction names generalizing pruning with
  | nil => exact .inl asked
  | cons head rest ih =>
    unfold pruneFrom at asked
    split at asked
    · split at asked
      · exact .inl asked
      · split at asked
        · rename_i counts
          rcases ih _ asked with early | ⟨before, after, split, enough⟩
          · exact .inl early
          · refine .inr ⟨head :: before, after, by rw [split, cons_append], ?_⟩
            rw [filter_cons, if_pos counts, length_cons]
            dsimp only at enough
            omega
        · rename_i skipped
          rcases ih _ asked with early | ⟨before, after, split, enough⟩
          · exact .inl early
          · refine .inr ⟨head :: before, after, by rw [split, cons_append], ?_⟩
            rw [filter_cons, if_neg skipped]
            exact enough
    · rename_i counted
      rcases ih _ asked with early | ⟨before, after, split, _⟩
      · rw [Pruning.ask_asked] at early
        rcases mem_snoc.mp early with earlier | here
        · exact .inl earlier
        · refine .inr ⟨[], rest, by rw [here, nil_append], ?_⟩
          omega
      · refine .inr ⟨head :: before, after, by rw [split, cons_append], ?_⟩
        omega

theorem pruneFrom_keeps (pruning : Pruning) (nodup : names.Nodup)
  (fresh : ∀ name ∈ names, name ∉ pruning.asked) (kept : Identifier)
  (newest : kept ∈ (names.filter isAuthenticated).take (keep - pruning.counted)) :
  kept ∉ (pruneFrom keep isAuthenticated failure names pruning).asked := by
  induction names generalizing pruning with
  | nil =>
    rw [filter_nil, take_nil] at newest
    exact absurd newest not_mem_nil
  | cons head rest ih =>
    rcases nodup_cons.mp nodup with ⟨once, restNodup⟩
    have restFresh : ∀ name ∈ rest, name ∉ pruning.asked :=
      fun name mem => fresh name (mem_cons_of_mem head mem)
    have inNames : kept ∈ head :: rest := mem_of_mem_filter (mem_of_mem_take newest)
    unfold pruneFrom
    split
    · rename_i counted
      split
      · exact fresh kept inNames
      · split
        · rename_i counts
          have more : keep - pruning.counted = keep - (pruning.counted + 1) + 1 := by omega
          rw [filter_cons, if_pos counts, more, take_succ_cons] at newest
          rcases mem_cons.mp newest with here | later
          · intro asked
            rcases (pruneFrom_asked _ _).2 kept asked with early | late
            · exact fresh kept inNames early
            · exact once (here ▸ late)
          · exact ih { pruning with counted := pruning.counted + 1 } restNodup restFresh later
        · rename_i skipped
          rw [filter_cons, if_neg skipped] at newest
          exact ih { pruning with unverified := pruning.unverified ++ [head] } restNodup restFresh newest
    · rename_i counted
      rw [show keep - pruning.counted = 0 by omega, take_zero] at newest
      exact absurd newest not_mem_nil

end Loop

/-- A run with more branches, none of the others authenticated, asks for no branch of
the smaller run that the smaller run keeps. -/
theorem pruneFrom_fewer {keep : ℕ} {isAuthenticated : Identifier -> Bool} {failure : Identifier -> Option String}
  {known : Identifier -> Bool} (more fewer : Pruning)
  (added : ∀ name ∈ names, known name = false -> isAuthenticated name = false)
  (counted : fewer.counted = more.counted) (unverified : fewer.unverified.length <= more.unverified.length)
  (name : Identifier) (asked : name ∈ (pruneFrom keep isAuthenticated failure names more).asked) :
  name ∈ more.asked \/ known name = false \/
    name ∈ (pruneFrom keep isAuthenticated failure (names.filter known) fewer).asked := by
  induction names generalizing more fewer with
  | nil => exact .inl asked
  | cons head rest ih =>
    have restAdded : ∀ other ∈ rest, known other = false -> isAuthenticated other = false :=
      fun other mem => added other (mem_cons_of_mem head mem)
    unfold pruneFrom at asked
    split at asked
    · rename_i counting
      split at asked
      · exact .inl asked
      · rename_i room
        have fewerCounting : fewer.counted < keep := by omega
        have fewerRoom : ¬ maxUnverified <= fewer.unverified.length := by omega
        split at asked
        · rename_i counts
          have isKnown : known head := by
            by_contra unknown
            exact false_ne_true ((added head (.head _) (not_eq_true _ ▸ unknown)).symm.trans counts)
          rw [filter_cons, if_pos isKnown]
          unfold pruneFrom
          rw [if_pos fewerCounting, if_neg fewerRoom, if_pos counts]
          exact ih { more with counted := more.counted + 1 } { fewer with counted := fewer.counted + 1 }
            restAdded (congrArg Nat.succ counted) unverified asked
        · rename_i skipped
          rw [filter_cons]
          split
          · unfold pruneFrom
            rw [if_pos fewerCounting, if_neg fewerRoom, if_neg skipped]
            refine ih { more with unverified := more.unverified ++ [head] }
              { fewer with unverified := fewer.unverified ++ [head] } restAdded counted ?_ asked
            rw [length_append, length_append]
            exact Nat.add_le_add_right unverified 1
          · refine ih { more with unverified := more.unverified ++ [head] } fewer restAdded counted ?_ asked
            rw [length_append]
            exact Nat.le_succ_of_le unverified
    · rename_i enough
      have fewerEnough : ¬ fewer.counted < keep := by omega
      rw [filter_cons]
      split
      · rename_i isKnown
        unfold pruneFrom
        rw [if_neg fewerEnough]
        have later := ih (more.ask head (failure head)) (fewer.ask head (failure head)) restAdded
          (by rw [Pruning.ask_counted, Pruning.ask_counted]; exact counted)
          (by rw [Pruning.ask_unverified, Pruning.ask_unverified]; exact unverified) asked
        rcases later with early | unknown | late
        · rw [Pruning.ask_asked] at early
          rcases mem_append.mp early with earlier | here
          · exact .inl earlier
          · refine .inr (.inr ((pruneFrom_asked _ _).1 ?_))
            rw [Pruning.ask_asked]
            exact mem_append_right _ here
        · exact .inr (.inl unknown)
        · exact .inr (.inr late)
      · rename_i unknown
        have later := ih (more.ask head (failure head)) fewer restAdded
          (by rw [Pruning.ask_counted]; exact counted) (by rw [Pruning.ask_unverified]; exact unverified) asked
        rcases later with early | other | late
        · rw [Pruning.ask_asked] at early
          rcases mem_snoc.mp early with earlier | here
          · exact .inl earlier
          · rw [here]
            exact .inr (.inl (not_eq_true _ ▸ unknown))
        · exact .inr (.inl other)
        · exact .inr (.inr late)

theorem prune_asked (heads : List Identifier) (keep now : ℕ) (isAuthenticated : Identifier -> Bool)
  (failure : Identifier -> Option String) : ∃ warnings, (prune heads keep now isAuthenticated failure).asked =
    (pruneFrom keep isAuthenticated failure (newestFirst heads now)
      { counted := 0, unverified := [], asked := [], removed := [], warnings }).asked := by
  unfold prune
  dsimp only
  split
  · split
    · exact ⟨_, rfl⟩
    · exact ⟨_, rfl⟩
  · split
    · exact ⟨_, rfl⟩
    · exact ⟨_, rfl⟩

def newestAuthenticated (heads : List Identifier) (keep now : ℕ) (isAuthenticated : Identifier -> Bool) : List Identifier :=
  ((newestFirst heads now).filter isAuthenticated).take keep

theorem prune_keeps (nodup : heads.Nodup) (keep now : ℕ) (isAuthenticated : Identifier -> Bool)
  (failure : Identifier -> Option String) (kept : Identifier)
  (newest : kept ∈ newestAuthenticated heads keep now isAuthenticated) :
  kept ∉ (prune heads keep now isAuthenticated failure).asked := by
  rcases prune_asked heads keep now isAuthenticated failure with ⟨_, same⟩
  rw [same]
  refine pruneFrom_keeps _ _ (descending_nodup.mpr (nodup.filter _)) (fun _ _ => not_mem_nil) kept ?_
  exact newest

theorem prune_counted (heads : List Identifier) (keep now : ℕ) (isAuthenticated : Identifier -> Bool)
  (failure : Identifier -> Option String) (name : Identifier)
  (asked : name ∈ (prune heads keep now isAuthenticated failure).asked) :
  ∃ before after, newestFirst heads now = before ++ name :: after /\
    keep <= (before.filter isAuthenticated).length := by
  rcases prune_asked heads keep now isAuthenticated failure with ⟨_, same⟩
  rw [same] at asked
  rcases pruneFrom_counted _ _ name asked with none | ⟨before, after, split, enough⟩
  · exact absurd none not_mem_nil
  · refine ⟨before, after, split, ?_⟩
    dsimp only at enough
    omega

theorem prune_retained (nodup : heads.Nodup) (keep now : ℕ) (isAuthenticated : Identifier -> Bool)
  (failure : Identifier -> Option String) (before after : List Identifier) (name : Identifier)
  (split : newestFirst heads now = before ++ name :: after) (enough : keep <= (before.filter isAuthenticated).length) :
  keep <= (before.filter (fun other => isAuthenticated other &&
    decide (other ∉ (prune heads keep now isAuthenticated failure).asked))).length := by
  have sublist : ((before.filter isAuthenticated).take keep).Sublist
      (before.filter (fun other => isAuthenticated other &&
        decide (other ∉ (prune heads keep now isAuthenticated failure).asked))) := by
    have kept : ((before.filter isAuthenticated).take keep).filter
        (fun other => decide (other ∉ (prune heads keep now isAuthenticated failure).asked)) =
          (before.filter isAuthenticated).take keep := by
      refine filter_eq_self.mpr ?_
      intro other mem
      refine decide_eq_true (prune_keeps nodup keep now isAuthenticated failure other ?_)
      unfold newestAuthenticated
      rw [split, filter_append, take_append_of_le_length enough]
      exact mem
    have both : before.filter (fun other => isAuthenticated other &&
        decide (other ∉ (prune heads keep now isAuthenticated failure).asked)) =
        (before.filter isAuthenticated).filter
          (fun other => decide (other ∉ (prune heads keep now isAuthenticated failure).asked)) := by
      rw [filter_filter]
      simp only [Bool.and_comm]
    rw [<- kept, both]
    exact (take_sublist keep (before.filter isAuthenticated)).filter _
  have long := sublist.length_le
  rw [length_take, Nat.min_eq_left enough] at long
  exact long

theorem prune_fewer {fewer : List Identifier} (nodup : heads.Nodup) (sublist : fewer.Sublist heads) (keep now : ℕ)
  (isAuthenticated : Identifier -> Bool) (failure : Identifier -> Option String)
  (added : ∀ name ∈ heads, name ∉ fewer -> isAuthenticated name = false \/ isPlausible name now = false)
  (name : Identifier) (known : name ∈ fewer) (asked : name ∈ (prune heads keep now isAuthenticated failure).asked) :
  name ∈ (prune fewer keep now isAuthenticated failure).asked := by
  have filtered : fewer = heads.filter (· ∈ fewer) := by
    have self : fewer.filter (· ∈ fewer) = fewer :=
      filter_eq_self.mpr (fun name mem => decide_eq_true mem)
    have within := sublist.filter (· ∈ fewer)
    rw [self] at within
    refine within.eq_of_length ?_
    refine Nat.le_antisymm within.length_le ?_
    refine (subperm_of_subset (nodup.filter _) ?_).length_le
    intro name mem
    exact of_decide_eq_true (mem_filter.mp mem).2
  have smaller : newestFirst fewer now = (newestFirst heads now).filter (· ∈ fewer) := by
    unfold newestFirst
    rw [<- descending_filter, filter_filter]
    conv_lhs => rw [filtered]
    rw [filter_filter]
    simp only [Bool.and_comm]
  rcases prune_asked heads keep now isAuthenticated failure with ⟨warnings, same⟩
  rcases prune_asked fewer keep now isAuthenticated failure with ⟨fewerWarnings, fewerSame⟩
  rw [same] at asked
  rw [fewerSame, smaller]
  have addedPlausible : ∀ name ∈ newestFirst heads now, decide (name ∈ fewer) = false -> isAuthenticated name = false := by
    intro other mem unknown
    rcases mem_newestFirst.mp mem with ⟨inHeads, dated⟩
    rcases added other inHeads (of_decide_eq_false unknown) with unauthenticated | undated
    · exact unauthenticated
    · exact absurd (undated.symm.trans dated) false_ne_true
  let more : Pruning := { counted := 0, unverified := [], asked := [], removed := [], warnings }
  let start : Pruning := { more with warnings := fewerWarnings }
  rcases pruneFrom_fewer (newestFirst heads now) more start addedPlausible rfl (Nat.le_refl _) name asked with none | unknown | here
  · exact absurd none not_mem_nil
  · exact absurd known (of_decide_eq_false unknown)
  · exact here

/--
Whatever names others chose and whichever branches are authenticated: only branches with a plausible date are
deleted, each after enough authenticated ones that are kept.
-/
theorem prune_safe {heads : List Identifier} (nodup : heads.Nodup) (keep now : ℕ) (isAuthenticated : Identifier -> Bool)
  (failure : Identifier -> Option String) : (∀ name ∈ (prune heads keep now isAuthenticated failure).asked,
    name ∈ heads /\ isPlausible name now /\
      ∃ before after, newestFirst heads now = before ++ name :: after /\
        keep <= (before.filter (fun other => isAuthenticated other &&
          decide (other ∉ (prune heads keep now isAuthenticated failure).asked))).length) /\
    (∀ kept ∈ newestAuthenticated heads keep now isAuthenticated,
      kept ∉ (prune heads keep now isAuthenticated failure).asked) /\
    ∀ fewer, fewer.Sublist heads ->
      (∀ name ∈ heads, name ∉ fewer -> isAuthenticated name = false \/ isPlausible name now = false) ->
      ∀ name ∈ fewer, name ∈ (prune heads keep now isAuthenticated failure).asked ->
        name ∈ (prune fewer keep now isAuthenticated failure).asked := by
  refine ⟨?_, prune_keeps nodup keep now isAuthenticated failure, ?_⟩
  · intro name asked
    rcases prune_counted heads keep now isAuthenticated failure name asked with ⟨before, after, split, enough⟩
    have listed : name ∈ newestFirst heads now := by
      rw [split]
      exact mem_append_right before mem_cons_self
    rcases mem_newestFirst.mp listed with ⟨mem, dated⟩
    exact ⟨mem, dated, before, after, split, prune_retained nodup keep now isAuthenticated failure before after name split enough⟩
  · intro fewer sublist added name known asked
    exact prune_fewer nodup sublist keep now isAuthenticated failure added name known asked

def pushedAfter : List Identifier :=
  [written (Stamp.moment ⟨2026, 5, 1, 4, 0, 0, 0⟩) 10, written (Stamp.moment ⟨2026, 5, 2, 4, 0, 0, 0⟩) 11,
    written (Stamp.moment ⟨2026, 5, 3, 4, 0, 0, 0⟩) 12]

/-- The pushed branch is not counted, and neither of the others is deleted for it. -/
theorem prune_safe_pushedAfter : pushedAfter.Nodup /\
    ∀ kept ∈ newestAuthenticated pushedAfter 2 (Stamp.moment ⟨2026, 5, 2, 5, 0, 0, 0⟩) (·.suffix < 12),
      kept ∉ (prune pushedAfter 2 (Stamp.moment ⟨2026, 5, 2, 5, 0, 0, 0⟩) (·.suffix < 12) fun _ => none).asked := by
  have nodup : pushedAfter.Nodup := by decide +kernel
  exact ⟨nodup, (prune_safe nodup 2 _ _ _).2.1⟩

end BananaChat.Backups

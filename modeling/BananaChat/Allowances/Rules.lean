import Mathlib.Data.Fintype.Card
import BananaChat.Limits.RateRules

namespace BananaChat.Allowances

open Limits List Option

/-!
# Checked rules

`validate_rules` sorts rules by their unit and refuses two of one unit.
-/

/-- A rule within the bounds of `validate_rule`. -/
def Bounded (rule : RuleBase) : Prop :=
  (1 <= rule.requests /\ rule.requests <= requestsMax) /\ 1 <= rule.burst /\ rule.burst <= burstMax

instance (rule : RuleBase) : Decidable (Bounded rule) := inferInstanceAs (Decidable (_ /\ _))

/-- Rules as `validate_rules` returns them. -/
structure Ruleset (rules : List RuleBase) : Prop where
  ordered : rules.Pairwise (fun first second => first.per.seconds < second.per.seconds)
  bounded : ∀ rule ∈ rules, Bounded rule

def written (rule : RuleBase) : RawRule := ⟨some rule.requests, some rule.per, .number rule.burst⟩

instance : Fintype Per := ⟨{.second, .minute, .hour, .day}, fun per => by cases per <;> decide⟩

theorem seconds_injective {left right : Per} (same : left.seconds = right.seconds) : left = right := by
  cases left <;> cases right <;> first | rfl | exact absurd same (by decide)

variable {maximum number : ℕ}

theorem wholeNumber_bounds {value : ℚ} (read : wholeNumber maximum value = some number) :
  1 <= number /\ number <= maximum := by
  refine ⟨wholeNumber_pos read, ?_⟩
  unfold wholeNumber at read
  split at read
  · rename_i range
    cases read
    have most : ⌊value⌋ <= (maximum : ℤ) := by exact_mod_cast (Int.floor_le value).trans range.2.1
    omega
  · cases read

theorem validateRule_bounded {raw : RawRule} {rule : RuleBase} (checked : validateRule raw = some rule) : Bounded rule := by
  rcases bind_eq_some_iff.mp checked with ⟨_, _, rest⟩
  rcases bind_eq_some_iff.mp rest with ⟨_, read, settledBurst⟩
  rcases bind_eq_some_iff.mp read with ⟨value, _, number⟩
  have range := wholeNumber_bounds number
  cases burst : raw.burst with
  | unset =>
    rw [burst] at settledBurst
    cases settledBurst
    exact ⟨range, range⟩
  | number value =>
    rw [burst] at settledBurst
    rcases map_eq_some_iff.mp settledBurst with ⟨_, readBurst, rfl⟩
    exact ⟨range, wholeNumber_bounds readBurst⟩
  | unreadable =>
    rw [burst] at settledBurst
    cases settledBurst

variable {raw : List RawRule}

theorem mapM_bounded {clean : List RuleBase} (checked : raw.mapM validateRule = some clean) :
  ∀ rule ∈ clean, Bounded rule := by
  induction raw generalizing clean with
  | nil =>
    cases checked
    exact fun rule mem => absurd mem not_mem_nil
  | cons head rest ih =>
    rw [mapM_cons] at checked
    rcases bind_eq_some_iff.mp checked with ⟨_, headChecked, others⟩
    rcases bind_eq_some_iff.mp others with ⟨_, restChecked, joined⟩
    cases joined
    intro rule mem
    rcases mem_cons.mp mem with same | later
    · exact same ▸ validateRule_bounded headChecked
    · exact ih restChecked rule later

variable {rules : List RuleBase}

theorem validateRules_ruleset (checked : validateRules raw = some rules) : Ruleset rules := by
  unfold validateRules at checked
  split at checked
  · cases checked
  · rename_i clean read
    split at checked
    · rename_i accepted
      cases checked
      constructor
      · have sorted : (clean.mergeSort fun first second => decide (first.per.seconds <= second.per.seconds)).Pairwise
            (fun first second => decide (first.per.seconds <= second.per.seconds) = true) :=
          pairwise_mergeSort (fun first second third => by simpa using le_trans)
            (fun first second => by simpa using le_total _ _) clean
        have distinct : (clean.mergeSort fun first second => decide (first.per.seconds <= second.per.seconds)).Pairwise
            (fun first second => first.per ≠ second.per) :=
          pairwise_map.mp (((mergeSort_perm clean _).map RuleBase.per).nodup_iff.mpr accepted.2)
        refine (sorted.and distinct).imp fun {first second} both => ?_
        exact lt_of_le_of_ne (of_decide_eq_true both.1) (fun same => both.2 (seconds_injective same))
      · exact fun rule mem => mapM_bounded read rule (mem_mergeSort.mp mem)
    · cases checked

theorem wholeNumber_natCast (least : 1 <= number) (most : number <= maximum) :
  wholeNumber maximum (number : ℚ) = some number := by
  have range : (1 : ℚ) <= number /\ (number : ℚ) <= maximum /\ (number : ℚ) = ⌊(number : ℚ)⌋ :=
    ⟨by exact_mod_cast least, by exact_mod_cast most, by rw [Int.floor_natCast]; rfl⟩
  rw [wholeNumber, if_pos range, Int.floor_natCast, Int.toNat_natCast]

theorem validateRule_written {rule : RuleBase} (bounded : Bounded rule) : validateRule (written rule) = some rule := by
  rcases bounded with ⟨⟨least, most⟩, burstLeast, burstMost⟩
  simp only [validateRule, written, bind_some, wholeNumber_natCast least most, wholeNumber_natCast burstLeast burstMost,
    map_some]

theorem mapM_written (bounded : ∀ rule ∈ rules, Bounded rule) : (rules.map written).mapM validateRule = some rules := by
  induction rules with
  | nil => rfl
  | cons head rest ih =>
    rw [map_cons, mapM_cons, validateRule_written (bounded head mem_cons_self),
      ih fun rule mem => bounded rule (mem_cons_of_mem _ mem)]
    rfl

theorem Ruleset.distinct (ruleset : Ruleset rules) : (rules.map RuleBase.per).Nodup := by
  refine pairwise_map.mpr (ruleset.ordered.imp fun {first second} before same => ?_)
  exact absurd (congrArg Per.seconds same) before.ne

theorem validateRules_written (ruleset : Ruleset rules) : validateRules (rules.map written) = some rules := by
  have few : rules.length <= rulesMax := by
    have units := ruleset.distinct.length_le_card
    rw [length_map] at units
    exact units
  have sorted : rules.mergeSort (fun first second => decide (first.per.seconds <= second.per.seconds)) = rules := by
    refine mergeSort_of_pairwise (ruleset.ordered.imp fun {first second} before => ?_)
    exact decide_eq_true before.le
  rw [validateRules, mapM_written ruleset.bounded]
  dsimp only
  rw [if_pos ⟨few, ruleset.distinct⟩, sorted]

theorem Ruleset.map (ruleset : Ruleset rules) (change : RuleBase -> RuleBase)
  (units : ∀ rule, (change rule).per = rule.per) (bounded : ∀ rule ∈ rules, Bounded (change rule)) :
  Ruleset (rules.map change) := by
  constructor
  · refine pairwise_map.mpr (ruleset.ordered.imp fun {first second} before => ?_)
    rw [units, units]
    exact before
  · intro _ mem
    rcases mem_map.mp mem with ⟨old, inside, rfl⟩
    exact bounded old inside

def checkedRules (rules : List RuleBase) (ruleset : Ruleset rules) : CheckedRules :=
  ⟨rules, rules.map written, validateRules_written ruleset⟩

theorem checkedRules_ruleset (rules : CheckedRules) : Ruleset rules.val := by
  rcases rules.property with ⟨_, checked⟩
  exact validateRules_ruleset checked

end BananaChat.Allowances

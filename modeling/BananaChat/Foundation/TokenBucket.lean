import Mathlib.Algebra.Order.Field.Basic
import Mathlib.Data.List.Basic
import Mathlib.Tactic.Linarith
import Mathlib.Tactic.Ring

namespace BananaChat.Foundation

open List

universe u

/-!
# Token buckets over an ordered field

A bucket holds at most `burst` tokens, regains `rate` of them per unit of time and starts full.
-/

structure Bucket (K : Type u) where
  tokens : K
  stamp : K

structure BucketUse (K : Type u) where
  clock : K
  taken : Bool

namespace Bucket

variable {K : Type u} [Field K] [LinearOrder K]

/-- The level at a clock reading.  A bucket nobody has used is full; a clock
behind the bucket's own time refills nothing. -/
def refilled (rate burst : K) (bucket : Option (Bucket K)) (clock : K) : Bucket K :=
  match bucket with
  | none => ⟨burst, clock⟩
  | some stored =>
    let stamp := max clock stored.stamp
    ⟨min burst (stored.tokens + (stamp - stored.stamp) * rate), stamp⟩

def spend (bucket : Bucket K) (taken : Bool) : Bucket K :=
  if taken then { bucket with tokens := bucket.tokens - 1 } else bucket

def serve (rate burst : K) (bucket : Option (Bucket K)) (use : BucketUse K) : Bucket K :=
  (refilled rate burst bucket use.clock).spend use.taken

def serveAll (rate burst : K) : Option (Bucket K) -> List (BucketUse K) -> Option (Bucket K)
  | bucket, [] => bucket
  | bucket, use :: rest => serveAll rate burst (some (serve rate burst bucket use)) rest

def Honest (rate burst : K) : Option (Bucket K) -> List (BucketUse K) -> Prop
  | _, [] => True
  | bucket, use :: rest =>
    (use.taken -> 1 <= (refilled rate burst bucket use.clock).tokens) /\
      Honest rate burst (some (serve rate burst bucket use)) rest

def Within (burst : K) (bucket : Bucket K) : Prop := 0 <= bucket.tokens /\ bucket.tokens <= burst

def latest (clock : K) (uses : List (BucketUse K)) : K :=
  uses.foldl (fun latestSoFar use => max latestSoFar use.clock) clock

omit [LinearOrder K] in
@[simp] theorem spend_stamp (bucket : Bucket K) (taken : Bool) :
    (bucket.spend taken).stamp = bucket.stamp := by
  cases taken <;> rfl

@[simp] theorem serve_stamp (rate burst : K) (bucket : Option (Bucket K)) (use : BucketUse K) :
    (serve rate burst bucket use).stamp = (refilled rate burst bucket use.clock).stamp :=
  spend_stamp _ _

theorem serveAll_append (rate burst : K) (bucket : Option (Bucket K)) (first second : List (BucketUse K)) :
  serveAll rate burst bucket (first ++ second) = serveAll rate burst (serveAll rate burst bucket first) second := by
  induction first generalizing bucket with
  | nil => rfl
  | cons use rest ih => exact ih _

theorem honest_append (rate burst : K) (bucket : Option (Bucket K)) (first second : List (BucketUse K)) :
  Honest rate burst bucket (first ++ second) ↔
    Honest rate burst bucket first /\ Honest rate burst (serveAll rate burst bucket first) second := by
  induction first generalizing bucket with
  | nil => exact ⟨fun honest => ⟨trivial, honest⟩, fun honest => honest.2⟩
  | cons use rest ih =>
    simp only [cons_append, Honest, serveAll, ih, and_assoc]

theorem serveAll_stamp (rate burst : K) (bucket : Bucket K) (uses : List (BucketUse K)) :
  ∃ final, serveAll rate burst (some bucket) uses = some final /\ final.stamp = latest bucket.stamp uses := by
  induction uses generalizing bucket with
  | nil => exact ⟨bucket, rfl, rfl⟩
  | cons use rest ih =>
    rcases ih (serve rate burst (some bucket) use) with ⟨final, reached, stamp⟩
    refine ⟨final, reached, ?_⟩
    simpa only [serve_stamp, refilled, latest, foldl_cons, max_comm] using stamp

theorem refilled_le_burst (rate burst : K) (bucket : Option (Bucket K)) (clock : K) :
  (refilled rate burst bucket clock).tokens <= burst := by
  cases bucket with
  | none => exact le_refl burst
  | some stored => exact min_le_left _ _

def taken (uses : List (BucketUse K)) : Nat := uses.countP (·.taken)

omit [Field K] [LinearOrder K] in
theorem taken_cons (use : BucketUse K) (rest : List (BucketUse K)) :
  taken (use :: rest) = taken [use] + taken rest := by
  simp only [taken, countP_cons, countP_nil, zero_add, add_comm]

theorem serve_tokens (rate burst : K) (bucket : Option (Bucket K)) (use : BucketUse K) :
  (serve rate burst bucket use).tokens + (taken [use] : K) = (refilled rate burst bucket use.clock).tokens := by
  cases chosen : use.taken <;>
    simp only [serve, spend, taken, chosen, countP_cons, countP_nil, Bool.false_eq_true, if_false, if_true,
      Nat.cast_zero, Nat.cast_one, add_zero, zero_add, sub_add_cancel]

def latestClock : List (BucketUse K) -> K
  | [] => 0
  | first :: more => latest first.clock more

theorem refilled_stamp_after (rate burst : K) (earlier : List (BucketUse K)) (use : BucketUse K) :
  (refilled rate burst (serveAll rate burst none earlier) use.clock).stamp = latestClock (earlier ++ [use]) := by
  cases earlier with
  | nil => rfl
  | cons first more =>
    rcases serveAll_stamp rate burst (serve rate burst none first) more with ⟨final, reached, stamp⟩
    have opened : (serve rate burst none first).stamp = first.clock := serve_stamp _ _ _ _
    rw [opened] at stamp
    change serveAll rate burst none (first :: more) = some final at reached
    rw [reached]
    simp only [refilled, stamp, cons_append, latestClock, latest, foldl_append, foldl_cons, foldl_nil, max_comm]

variable [IsStrictOrderedRing K]

variable {burst rate : K} {bucket : Option (Bucket K)}

theorem refilled_refilled (rate_nonneg : 0 <= rate) (bucket : Option (Bucket K)) {clock later : K}
  (forward : clock <= later) :
  refilled rate burst (some (refilled rate burst bucket clock)) later = refilled rate burst bucket later := by
  cases bucket with
  | none =>
    have gained : 0 <= (later - clock) * rate := mul_nonneg (sub_nonneg.mpr forward) rate_nonneg
    simp only [refilled, max_eq_left forward]
    rw [min_eq_left (le_add_of_nonneg_right gained)]
  | some stored =>
    have stamps : max later (max clock stored.stamp) = max later stored.stamp := by
      rw [<- max_assoc, max_eq_left forward]
    have gained : 0 <= (max later stored.stamp - max clock stored.stamp) * rate :=
      mul_nonneg (sub_nonneg.mpr (max_le_max forward (le_refl _))) rate_nonneg
    have elapsed : stored.tokens + (max clock stored.stamp - stored.stamp) * rate +
        (max later stored.stamp - max clock stored.stamp) * rate =
          stored.tokens + (max later stored.stamp - stored.stamp) * rate := by ring
    simp only [refilled, stamps]
    rw [<- min_add_add_right, elapsed, <- min_assoc, min_eq_left (le_add_of_nonneg_right gained)]

theorem refilled_enough_iff (rate_pos : 0 < rate) (burst_one : 1 <= burst) {stored : Bucket K} (short : stored.tokens < 1)
  (clock : K) :
  1 <= (refilled rate burst (some stored) clock).tokens ↔ stored.stamp + (1 - stored.tokens) / rate <= clock := by
  have missing : 0 < (1 - stored.tokens) / rate := div_pos (sub_pos.mpr short) rate_pos
  have refill : 1 <= stored.tokens + (max clock stored.stamp - stored.stamp) * rate ↔
      (1 - stored.tokens) / rate <= max clock stored.stamp - stored.stamp := by
    rw [div_le_iff₀ rate_pos, sub_le_iff_le_add']
  simp only [refilled, le_min_iff, burst_one, true_and, refill]
  constructor
  · intro _
    rcases max_choice clock stored.stamp with ahead | _
    · linarith
    · linarith
  · intro _
    have ahead : max clock stored.stamp = clock := max_eq_left (by linarith)
    linarith

section

variable (rate_nonneg : 0 <= rate)
include rate_nonneg

theorem refilled_enough (burst_one : 1 <= burst) {stored : Bucket K} (enough : 1 <= stored.tokens)
  (clock : K) : 1 <= (refilled rate burst (some stored) clock).tokens := by
  have gained : 0 <= (max clock stored.stamp - stored.stamp) * rate :=
    mul_nonneg (sub_nonneg.mpr (le_max_right _ _)) rate_nonneg
  exact le_min burst_one (enough.trans (le_add_of_nonneg_right gained))

section

variable (burst_nonneg : 0 <= burst) (within : ∀ stored, bucket = some stored -> stored.Within burst)
include burst_nonneg within

theorem refilled_within
  (clock : K) :
  (refilled rate burst bucket clock).Within burst := by
  refine ⟨?_, refilled_le_burst rate burst bucket clock⟩
  cases bucket with
  | none => exact burst_nonneg
  | some stored =>
    have forward : 0 <= max clock stored.stamp - stored.stamp := sub_nonneg.mpr (le_max_right _ _)
    have gained := mul_nonneg forward rate_nonneg
    exact le_min burst_nonneg (add_nonneg (within stored rfl).1 gained)

theorem serve_within
  {use : BucketUse K}
  (honest : use.taken -> 1 <= (refilled rate burst bucket use.clock).tokens) :
  (serve rate burst bucket use).Within burst := by
  have range := refilled_within rate_nonneg burst_nonneg within use.clock
  unfold serve spend
  cases taken : use.taken with
  | false => exact range
  | true =>
    have enough := honest taken
    have cap := range.2
    constructor
    · simpa using sub_nonneg.mpr enough
    · simp only [if_true]
      linarith

theorem serveAll_within
  {uses : List (BucketUse K)}
  (honest : Honest rate burst bucket uses) {final : Bucket K} (reached : serveAll rate burst bucket uses = some final) :
  final.Within burst := by
  induction uses generalizing bucket with
  | nil => exact within final reached
  | cons use rest ih =>
    refine ih (fun stored same => ?_) honest.2 reached
    cases same
    exact serve_within rate_nonneg burst_nonneg within honest.1

end

end

/-- The accounting inequality: tokens taken and tokens left are paid for by
the tokens there were and by the time that passed. -/
theorem serveAll_accounting (rate burst : K) (bucket : Bucket K) (uses : List (BucketUse K)) {final : Bucket K}
  (reached : serveAll rate burst (some bucket) uses = some final) :
  (taken uses : K) + final.tokens <= bucket.tokens + rate * (final.stamp - bucket.stamp) := by
  induction uses generalizing bucket with
  | nil =>
    cases reached
    simp [taken]
  | cons use rest ih =>
    have later := ih (serve rate burst (some bucket) use) reached
    have now := serve_tokens rate burst (some bucket) use
    have refill : (refilled rate burst (some bucket) use.clock).tokens <=
        bucket.tokens + (max use.clock bucket.stamp - bucket.stamp) * rate := min_le_right _ _
    have counted : (taken (use :: rest) : K) = (taken [use] : K) + (taken rest : K) := by
      rw [taken_cons, Nat.cast_add]
    have stamp : (serve rate burst (some bucket) use).stamp = max use.clock bucket.stamp := serve_stamp _ _ _ _
    rw [stamp] at later
    linarith [mul_comm rate (max use.clock bucket.stamp - bucket.stamp)]

/-- The admission bound of a stretch of uses: a full bucket, and what the time
between its first and its last use refills. -/
theorem taken_stretch_le (rate_nonneg : 0 <= rate) (burst_nonneg : 0 <= burst) (earlier : List (BucketUse K))
  (first : BucketUse K) (more : List (BucketUse K)) (honest : Honest rate burst none (earlier ++ first :: more)) :
  (taken (first :: more) : K) <=
    burst + rate * (latestClock (earlier ++ first :: more) - latestClock (earlier ++ [first])) := by
  rw [honest_append] at honest
  have within : ∀ stored, serveAll rate burst none earlier = some stored -> stored.Within burst := by
    intro _ reached
    refine serveAll_within rate_nonneg burst_nonneg (fun _ clash => ?_) honest.1 reached
    cases clash
  rcases serveAll_stamp rate burst (serve rate burst (serveAll rate burst none earlier) first) more with
    ⟨final, reached, stamp⟩
  rw [serve_stamp, refilled_stamp_after] at stamp
  have wholeStretch : latest (latestClock (earlier ++ [first])) more = latestClock (earlier ++ first :: more) := by
    cases earlier with
    | nil => rfl
    | cons oldest rest =>
      simp [latestClock, latest]
  have left : final.Within burst := serveAll_within rate_nonneg burst_nonneg within honest.2 reached
  have spent := serveAll_accounting rate burst _ more reached
  have now := serve_tokens rate burst (serveAll rate burst none earlier) first
  have full := refilled_le_burst rate burst (serveAll rate burst none earlier) first.clock
  have counted : (taken (first :: more) : K) = (taken [first] : K) + (taken more : K) := by
    rw [taken_cons, Nat.cast_add]
  rw [stamp, wholeStretch, serve_stamp, refilled_stamp_after] at spent
  linarith [left.1]

end Bucket
end BananaChat.Foundation

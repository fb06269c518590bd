import BananaChat.Limits.RateCleanup

namespace BananaChat.Limits

open List

/-!
# Forgetting idle buckets

A bucket that nobody used for long enough is full, and a missing bucket counts as full, so the
cleanup deletes it.
-/

namespace Site

variable (site : Site)

/-- One table lost buckets that the other still has, idle for long enough by now.  No level is
negative. -/
structure Forgotten (idle clock : ℚ) (forgot kept : RateBuckets BucketKey) : Prop where
  levels : ∀ key row, kept key = some row -> 0 <= row.tokens
  lost : ∀ key, forgot key = kept key \/
    (forgot key = none /\ ∃ row, kept key = some row /\ row.updatedAt + idle <= clock)

variable {clock idle now : ℚ} {forgot kept : RateBuckets BucketKey}

section

variable (related : Forgotten idle clock forgot kept)
include related

theorem readBucket_forgotten (later : clock <= now) (idleNonneg : 0 <= idle)
  (request : BucketRequest BucketKey) (positive : 0 <= request.perSecond)
  (fills : request.burst <= idle * request.perSecond) :
  readBucket forgot now request = readBucket kept now request := by
  rcases related.lost request.key with same | ⟨missing, row, stored, _⟩
  · simp only [readBucket, same]
  · have tokens := related.levels request.key row stored
    have stamp : max now row.updatedAt = now := max_eq_left (by linarith)
    have elapsed : idle * request.perSecond <= (now - row.updatedAt) * request.perSecond :=
      mul_le_mul_of_nonneg_right (by linarith) positive
    have level : min (request.burst : ℚ) (row.tokens + (now - row.updatedAt) * request.perSecond) = request.burst :=
      min_eq_left (by linarith)
    simp only [readBucket, missing, stored, stamp, level]

theorem storeBuckets_forgotten
  (rows : List (BucketRequest BucketKey × RateBucket)) (levels : ∀ entry ∈ rows, 0 <= entry.2.tokens) :
  Forgotten idle clock (storeBuckets forgot rows) (storeBuckets kept rows) := by
  induction rows generalizing forgot kept with
  | nil => exact related
  | cons entry rest ih =>
    refine ih ⟨fun key row stored => ?_, fun key => ?_⟩
      (fun other mem => levels other (.tail _ mem))
    · by_cases same : key = entry.1.key
      · subst same
        rw [Function.update_self] at stored
        cases stored
        exact levels entry mem_cons_self
      · rw [Function.update_of_ne same] at stored
        exact related.levels key row stored
    · by_cases same : key = entry.1.key
      · subst same
        exact .inl (by rw [Function.update_self, Function.update_self])
      · rw [Function.update_of_ne same, Function.update_of_ne same]
        exact related.lost key

theorem Forgotten.later (passed : clock <= now) : Forgotten idle now forgot kept := by
  refine ⟨related.levels, fun key => ?_⟩
  rcases related.lost key with same | ⟨missing, row, stored, idleRow⟩
  · exact .inl same
  · exact .inr ⟨missing, row, stored, idleRow.trans passed⟩

end

theorem readBucket_nonneg {table : RateBuckets BucketKey} (levels : ∀ key row, table key = some row -> 0 <= row.tokens)
  (now : ℚ) (request : BucketRequest BucketKey) (positive : 0 <= request.perSecond) :
  0 <= (readBucket table now request).tokens := by
  unfold readBucket
  split
  · exact Nat.cast_nonneg _
  · rename_i row stored
    have forward : 0 <= max now row.updatedAt - row.updatedAt := sub_nonneg.mpr (le_max_right _ _)
    exact le_min (Nat.cast_nonneg _) (add_nonneg (levels request.key row stored) (mul_nonneg forward positive))

section

variable (related : Forgotten idle clock forgot kept) (passed : clock <= now)
include related passed

theorem takeTokens_forgotten (idleNonneg : 0 <= idle) {requests : List (BucketRequest BucketKey)}
  (fills : ∀ request ∈ requests, 0 <= request.perSecond /\ request.burst <= idle * request.perSecond) :
  (takeTokens forgot requests now).allowed = (takeTokens kept requests now).allowed /\
    (takeTokens forgot requests now).states = (takeTokens kept requests now).states /\
    Forgotten idle now (takeTokens forgot requests now).table (takeTokens kept requests now).table := by
  have levels : requests.map (fun request => (request, readBucket forgot now request)) =
      requests.map (fun request => (request, readBucket kept now request)) := by
    refine map_congr_left fun request mem => ?_
    rw [readBucket_forgotten related passed idleNonneg request (fills request mem).1 (fills request mem).2]
  simp only [takeTokens, levels]
  refine ⟨trivial, trivial, storeBuckets_forgotten (related.later passed) _ ?_⟩
  intro _ mem
  split at mem
  · rename_i allowed
    rcases mem_map.mp mem with ⟨read, inside, rfl⟩
    rw [all_eq_true] at allowed
    have whole := of_decide_eq_true (allowed read inside)
    exact sub_nonneg.mpr whole
  · rcases mem_map.mp mem with ⟨request, inside, rfl⟩
    exact readBucket_nonneg related.levels now request (fills request inside).1

theorem take_forgotten (idleNonneg : 0 <= idle) (scope : BucketScope) (userId : ℕ) {limit : RateLimit}
  (fills : limit.limited -> ∀ rule ∈ limit.rules, FillsWithin idle rule) :
  (take forgot scope userId limit now).2 = (take kept scope userId limit now).2 /\
    Forgotten idle now (take forgot scope userId limit now).1 (take kept scope userId limit now).1 := by
  unfold take
  by_cases unlimited : limit.limited = false \/ limit.rules = []
  · rw [if_pos unlimited, if_pos unlimited]
    exact ⟨rfl, related.later passed⟩
  · rw [if_neg unlimited, if_neg unlimited]
    have limited : limit.limited := by
      cases on : limit.limited with
      | true => rfl
      | false => exact absurd (.inl on) unlimited
    have requests : ∀ request,
        request ∈ limit.rules.map (fun rule => (⟨bucketKey scope userId rule, rule.perSecond, rule.burst⟩ : BucketRequest BucketKey)) ->
          0 <= request.perSecond /\ request.burst <= idle * request.perSecond := by
      intro _ mem
      rcases mem_map.mp mem with ⟨rule, inside, rfl⟩
      exact ⟨(fills limited rule inside).1.le, (fills limited rule inside).2⟩
    rcases takeTokens_forgotten related passed idleNonneg requests with ⟨allowed, states, tables⟩
    dsimp only
    rw [allowed, states]
    split
    · exact ⟨rfl, tables⟩
    · exact ⟨rfl, tables⟩

theorem purgeBuckets_forgotten : Forgotten idle now (purgeBuckets idle now forgot) kept := by
  refine ⟨related.levels, fun key => ?_⟩
  rcases related.lost key with same | ⟨missing, row, stored, idleRow⟩
  · cases stored : kept key with
    | none => exact .inl (by rw [purgeBuckets, same, stored, Option.filter_none])
    | some row =>
      by_cases old : row.updatedAt < now - idle
      · refine .inr ⟨?_, row, rfl, by linarith⟩
        rw [purgeBuckets, same, stored, Option.filter_some, if_neg (by simp [old])]
      · refine .inl ?_
        rw [purgeBuckets, same, stored, Option.filter_some, if_pos (by simp [old])]
  · exact .inr ⟨by rw [purgeBuckets, missing, Option.filter_none], row, stored, idleRow.trans passed⟩

end

inductive Operation
  | checkRate (userId : ℕ) (pool : Pool) (demand : ℚ)
  | admitRequest (userId modelId : ℕ) (circumstances : Circumstances)
  | forgetIdleBuckets

inductive Answer
  | rate (decision : RateDecision)
  | admission (admission : Admission)

structure Timed where
  now : ℚ
  operation : Operation

def perform (forgets : Bool) (timed : Timed) (table : RateBuckets BucketKey) : RateBuckets BucketKey × Option Answer :=
  match timed.operation with
  | .checkRate userId pool demand =>
    let checked := site.checkRate userId pool demand timed.now table
    (checked.1, some (.rate checked.2))
  | .admitRequest userId modelId circumstances =>
    let admitted := site.admitRequest userId modelId circumstances timed.now table
    (admitted.1, some (.admission admitted.2))
  | .forgetIdleBuckets => (if forgets then site.forgetIdleBuckets timed.now table else table, none)

def answers (forgets : Bool) : RateBuckets BucketKey -> List Timed -> List (Option Answer)
  | _, [] => []
  | table, timed :: rest =>
    (site.perform forgets timed table).2 :: answers forgets (site.perform forgets timed table).1 rest

theorem admitRequest_forgotten (related : Forgotten site.idleSeconds clock forgot kept) (passed : clock <= now)
  (userId modelId : ℕ) (circumstances : Circumstances) :
  (site.admitRequest userId modelId circumstances now forgot).2 = (site.admitRequest userId modelId circumstances now kept).2 /\
    Forgotten site.idleSeconds now (site.admitRequest userId modelId circumstances now forgot).1
      (site.admitRequest userId modelId circumstances now kept).1 := by
  unfold admitRequest
  split
  · exact ⟨rfl, related.later passed⟩
  split
  · exact ⟨rfl, related.later passed⟩
  split
  · exact ⟨rfl, related.later passed⟩
  rename_i model listed
  dsimp only
  split
  · exact ⟨rfl, related.later passed⟩
  rename_i accepted
  split
  · have left : 0 < site.capacityFactor model circumstances.report := by
      by_contra nothing
      unfold modelRefusal at accepted
      rw [if_pos (not_lt.mp nothing)] at accepted
      split at accepted <;> cases accepted
    have fills := @modelRate_fills site userId modelId model circumstances.demand circumstances.report listed left
    have same := take_forgotten related passed site.idleSeconds_pos.le (.model model.id) userId fills
    rw [same.1]
    exact ⟨rfl, same.2⟩
  · exact ⟨rfl, related.later passed⟩

theorem perform_forgotten (related : Forgotten site.idleSeconds clock forgot kept) (timed : Timed)
  (passed : clock <= timed.now) : (site.perform true timed forgot).2 = (site.perform false timed kept).2 /\
    Forgotten site.idleSeconds timed.now (site.perform true timed forgot).1 (site.perform false timed kept).1 := by
  cases happened : timed.operation with
  | checkRate userId pool demand =>
    have fills := @rateLimit_fills site userId pool demand
    have same := take_forgotten related passed site.idleSeconds_pos.le (.pool (poolName pool)) userId fills
    simp only [perform, happened, checkRate]
    exact ⟨by rw [same.1], same.2⟩
  | admitRequest userId modelId circumstances =>
    have same := site.admitRequest_forgotten related passed userId modelId circumstances
    simp only [perform, happened]
    exact ⟨by rw [same.1], same.2⟩
  | forgetIdleBuckets =>
    simp only [perform, happened]
    exact ⟨trivial, purgeBuckets_forgotten related passed⟩

theorem answers_forgotten (related : Forgotten site.idleSeconds clock forgot kept) {run : List Timed}
  (clocks : (clock :: run.map Timed.now).Pairwise fun earlier later => earlier <= later) :
  site.answers true forgot run = site.answers false kept run := by
  induction run generalizing clock forgot kept with
  | nil => rfl
  | cons timed rest ih =>
    rw [map_cons, pairwise_cons] at clocks
    have step := site.perform_forgotten related timed (clocks.1 timed.now mem_cons_self)
    rw [answers, answers, step.1, ih step.2 clocks.2]

/-- Forgetting idle buckets is invisible, while the clock never steps back. -/
theorem forgetting_invisible (table : RateBuckets BucketKey)
  (levels : ∀ key row, table key = some row -> 0 <= row.tokens) (run : List Timed)
  (clocks : (run.map Timed.now).Pairwise fun earlier later => earlier <= later) :
  site.answers true table run = site.answers false table run := by
  cases run with
  | nil => rfl
  | cons timed rest =>
    refine @answers_forgotten site timed.now table table ⟨levels, fun _ => .inl rfl⟩ _ ?_
    rw [map_cons, pairwise_cons] at clocks ⊢
    rw [pairwise_cons]
    refine ⟨fun later mem => ?_, clocks.1, clocks.2⟩
    rcases mem_cons.mp mem with same | after
    · exact same.ge
    · exact clocks.1 later after

def Answer.allowed : Answer -> Bool
  | .rate taken => taken.allowed
  | .admission outcome => outcome.refusal.isNone

def noRules : CheckedRules := ⟨[], [], by simp [validateRules]⟩

def daily : Site where
  poolPolicy pool := match pool with
    | .api => ⟨true, ⟨[⟨1, .day, 1⟩], [⟨some 1, some .day, .unset⟩], by decide +kernel⟩, true⟩
    | _ => ⟨false, noRules, false⟩
  models := []
  modelPolicy _ := ⟨false, false, noRules, false, 1⟩
  overrides := []
  modelOverrides := []
  isAdmin _ := false
  rateExempt _ := false
  dynamicExempt _ := false
  grants := []
  grantsOrdered := List.Pairwise.nil
  capacityProviders := []

def dailyRun : List Timed :=
  [⟨0, .checkRate 7 .api 1⟩, ⟨1, .checkRate 7 .api (1 / 2)⟩, ⟨172802, .forgetIdleBuckets⟩,
    ⟨172803, .checkRate 7 .api (1 / 2)⟩]

/-- The cleanup deletes the bucket of the account, and the third request is answered as if it were
still there. -/
theorem forgetting_invisible_daily :
  daily.answers true (fun _ => none) dailyRun = daily.answers false (fun _ => none) dailyRun /\
    (daily.answers true (fun _ => none) dailyRun).map (Option.map Answer.allowed) =
      [some true, some false, none, some true] /\
    daily.idleSeconds = 172800 /\
    daily.forgetIdleBuckets 172802 (fun _ => some ⟨0, 1⟩) ⟨.pool 0, 7, .configured ⟨1, .day, 1⟩⟩ = none := by
  refine ⟨daily.forgetting_invisible (fun _ => none) (fun key row stored => ?_) dailyRun ?_, ?_, ?_, ?_⟩
  · cases stored
  · decide +kernel
  · decide +kernel
  · decide +kernel
  · decide +kernel

end Site

end BananaChat.Limits

import Mathlib.Data.List.MinMax
import Mathlib.Data.Rat.Floor
import BananaChat.Foundation.Machine
import BananaChat.Foundation.Rows
import BananaChat.Foundation.TokenBucket

namespace BananaChat.Limits

open Foundation List Function Bucket

/-!
# Request-rate buckets

The table `rate_buckets` holds one level per key, shared by every process.
-/

/-- A row of `rate_buckets`, less its key. -/
structure RateBucket where
  tokens : ℚ
  updatedAt : ℚ

abbrev RateBuckets (Key : Type) := Key -> Option RateBucket

/-- One entry of the `buckets` argument: `(key, per_second, burst)`. -/
structure BucketRequest (Key : Type) where
  key : Key
  perSecond : ℚ
  burst : ℕ

/-- The table after a call, its answer, and `(tokens_left, retry_after_seconds)`
of each bucket. -/
structure TakeResult (Key : Type) where
  table : RateBuckets Key
  allowed : Bool
  states : List (ℚ × ℚ)

section Buckets

variable {Key : Type} [DecidableEq Key]

omit [DecidableEq Key] in
def readBucket (table : RateBuckets Key) (now : ℚ) (request : BucketRequest Key) : RateBucket :=
  match table request.key with
  | none => ⟨request.burst, now⟩
  | some row =>
    -- never back: another process may have written a later time
    let stamp := max now row.updatedAt
    ⟨min (request.burst : ℚ) (row.tokens + (stamp - row.updatedAt) * request.perSecond), stamp⟩

/-- Write the rows of `executemany`, in order. -/
def storeBuckets (table : RateBuckets Key) : List (BucketRequest Key × RateBucket) -> RateBuckets Key
  | [] => table
  | (request, row) :: rest => storeBuckets (Function.update table request.key (some row)) rest

/-- Take one request from several token buckets at once (`take_tokens`). -/
def takeTokens (table : RateBuckets Key) (buckets : List (BucketRequest Key)) (now : ℚ) : TakeResult Key :=
  let levels := buckets.map (fun request => (request, readBucket table now request))
  let allowed := levels.all (1 <= ·.2.tokens)
  let left := if allowed then
      levels.map (fun entry => (entry.1, { entry.2 with tokens := entry.2.tokens - 1 }))
    else levels
  { table := storeBuckets table left
    allowed := allowed
    states := left.map (fun entry => (entry.2.tokens,
      if 1 <= entry.2.tokens \/ allowed then 0
      else (entry.2.updatedAt - now) + (1 - entry.2.tokens) / entry.1.perSecond)) }

def debited (allowed : Bool) (level : RateBucket) : RateBucket :=
  if allowed then { level with tokens := level.tokens - 1 } else level

section

variable (table : RateBuckets Key)
include table

theorem storeBuckets_of_not_mem (rows : List (BucketRequest Key × RateBucket)) (key : Key)
  (absent : key ∉ rows.map (·.1.key)) : storeBuckets table rows key = table key := by
  induction rows generalizing table with
  | nil => rfl
  | cons entry rest ih =>
    simp only [map_cons, mem_cons, not_or] at absent
    rw [storeBuckets, ih _ absent.2, update_of_ne absent.1]

theorem storeBuckets_of_mem (rows : List (BucketRequest Key × RateBucket))
  (distinct : (rows.map (·.1.key)).Nodup) (entry : BucketRequest Key × RateBucket)
  (mem : entry ∈ rows) : storeBuckets table rows entry.1.key = some entry.2 := by
  induction rows generalizing table with
  | nil => cases mem
  | cons head rest ih =>
    simp only [map_cons, nodup_cons] at distinct
    rcases mem_cons.mp mem with same | later
    · subst same
      rw [storeBuckets, storeBuckets_of_not_mem _ rest _ distinct.1, update_self]
    · exact ih _ distinct.2 later

section

variable (buckets : List (BucketRequest Key)) (now : ℚ)
include buckets now

theorem takeTokens_other (key : Key)
  (absent : key ∉ buckets.map BucketRequest.key) : (takeTokens table buckets now).table key = table key := by
  apply storeBuckets_of_not_mem
  split <;> simpa only [map_map, comp_def] using absent

theorem takeTokens_named
  (distinct : (buckets.map BucketRequest.key).Nodup) (request : BucketRequest Key) (named : request ∈ buckets) :
  (takeTokens table buckets now).table request.key =
    some (debited (takeTokens table buckets now).allowed (readBucket table now request)) := by
  have mem : (request, readBucket table now request) ∈
      buckets.map (fun request => (request, readBucket table now request)) := mem_map.mpr ⟨request, named, rfl⟩
  simp only [takeTokens, debited]
  split
  · refine storeBuckets_of_mem table _ ?_ (request, _) (mem_map.mpr ⟨_, mem, rfl⟩)
    simpa only [map_map, comp_def] using distinct
  · refine storeBuckets_of_mem table _ ?_ (request, _) mem
    simpa only [map_map, comp_def] using distinct

theorem takeTokens_allowed
  (allowed : (takeTokens table buckets now).allowed) (request : BucketRequest Key)
  (named : request ∈ buckets) : 1 <= (readBucket table now request).tokens := by
  simp only [takeTokens, all_map, all_eq_true, comp_apply, decide_eq_true_eq] at allowed
  exact allowed request named

end

end

/-- The rate and burst of a key, neither of them negative. -/
structure BucketTerms where
  perSecond : ℚ
  burst : ℕ
  perSecond_nonneg : 0 <= perSecond

structure Take (Key : Type) where
  keys : List Key
  now : ℚ

structure TakeCall (Key : Type) where
  keys : List Key
  now : ℚ
  allowed : Bool

variable (terms : Key -> BucketTerms)

omit [DecidableEq Key] in
def requestFor (key : Key) : BucketRequest Key := ⟨key, (terms key).perSecond, (terms key).burst⟩

def performTake (table : RateBuckets Key) (take : Take Key) : TakeResult Key :=
  takeTokens table (take.keys.map (requestFor terms)) take.now

/-- Every process's calls, one transaction after another.  The clock readings
are arbitrary: a later call may carry an earlier time. -/
def bucketMachine : Machine (RateBuckets Key) (Take Key) where
  initial table := table = fun _ => none
  enabled _ take := take.keys.Nodup
  next table take := (performTake terms table take).table

def reportTake (table : RateBuckets Key) (take : Take Key) : List (TakeCall Key) :=
  [⟨take.keys, take.now, (performTake terms table take).allowed⟩]

def callsOn (key : Key) (history : List (TakeCall Key)) : List (TakeCall Key) := history.filter (key ∈ ·.keys)

omit [DecidableEq Key] in
def TakeCall.use (call : TakeCall Key) : BucketUse ℚ := ⟨call.now, call.allowed⟩

def RateBucket.bucket (row : RateBucket) : Bucket ℚ := ⟨row.tokens, row.updatedAt⟩

omit [DecidableEq Key] in
theorem readBucket_bucket (table : RateBuckets Key) (now : ℚ) (key : Key) :
  (readBucket table now (requestFor terms key)).bucket =
    refilled (terms key).perSecond (terms key).burst ((table key).map RateBucket.bucket) now := by
  simp only [readBucket, requestFor]
  cases table key <;> rfl

theorem debited_bucket (allowed : Bool) (level : RateBucket) :
  (debited allowed level).bucket = level.bucket.spend allowed := by
  cases allowed <;> rfl

omit [DecidableEq Key] in
private theorem requests_keys (keys : List Key) :
  (keys.map (requestFor terms)).map BucketRequest.key = keys := by
  rw [map_map]
  exact map_id keys

/-- Seen from each key, a run is a list of honest uses of one abstract bucket
that started full, and the stored row is what those uses left. -/
def servedHonestly (history : List (TakeCall Key)) (table : RateBuckets Key) : Prop :=
  ∀ key, (table key).map RateBucket.bucket = Bucket.serveAll (terms key).perSecond (terms key).burst none
      ((callsOn key history).map TakeCall.use) /\
    Bucket.Honest (terms key).perSecond (terms key).burst none ((callsOn key history).map TakeCall.use)

theorem servedHonestly_step (history : List (TakeCall Key)) (table : RateBuckets Key) (take : Take Key)
  (served : servedHonestly terms history table) (distinct : take.keys.Nodup) :
  servedHonestly terms (history ++ reportTake terms table take) (performTake terms table take).table := by
  intro key
  have distinctRequests : ((take.keys.map (requestFor terms)).map BucketRequest.key).Nodup := by
    rw [requests_keys]
    exact distinct
  rcases served key with ⟨stored, honest⟩
  by_cases named : key ∈ take.keys
  · have request : requestFor terms key ∈ take.keys.map (requestFor terms) := mem_map.mpr ⟨key, named, rfl⟩
    have written := takeTokens_named table _ take.now distinctRequests _ request
    have calls : callsOn key (history ++ reportTake terms table take) = callsOn key history ++
        [⟨take.keys, take.now, (performTake terms table take).allowed⟩] := by
      simp [callsOn, reportTake, named]
    have level := readBucket_bucket terms table take.now key
    rw [calls, map_append, serveAll_append, honest_append, <- stored]
    refine ⟨?_, honest, fun taken => ?_, trivial⟩
    · change Option.map RateBucket.bucket ((performTake terms table take).table (requestFor terms key).key) = _
      rw [performTake, written, Option.map_some, debited_bucket, level]
      rfl
    · have enough := takeTokens_allowed table _ take.now taken _ request
      change 1 <= (readBucket table take.now (requestFor terms key)).bucket.tokens at enough
      rwa [level] at enough
  · have calls : callsOn key (history ++ reportTake terms table take) = callsOn key history := by
      simp [callsOn, reportTake, named]
    have kept : (performTake terms table take).table key = table key :=
      takeTokens_other table _ take.now key (by rwa [requests_keys])
    rw [calls, kept]
    exact ⟨stored, honest⟩

variable {table : RateBuckets Key} {history : List (TakeCall Key)}

theorem served_trace (trace : (bucketMachine terms).Trace (reportTake terms) history table) :
  servedHonestly terms history table := by
  refine Machine.Trace.induct (fun table empty => ?_) (fun past current take served distinct => ?_) trace
  · cases empty
    exact fun key => ⟨rfl, trivial⟩
  · exact servedHonestly_step terms past current take served distinct

def allowedCount (calls : List (TakeCall Key)) : ℕ := calls.countP (·.allowed)

def latestTime (calls : List (TakeCall Key)) : ℚ := Bucket.latestClock (calls.map TakeCall.use)

section

variable (trace : (bucketMachine terms).Trace (reportTake terms) history table) (key : Key)
include trace key

theorem allowedCount_le (earlier : List (TakeCall Key)) (first : TakeCall Key) (more later : List (TakeCall Key))
  (calls : callsOn key history = earlier ++ first :: more ++ later) :
  (allowedCount (first :: more) : ℚ) <= (terms key).burst + (terms key).perSecond *
    (latestTime (earlier ++ first :: more) - latestTime (earlier ++ [first])) := by
  have honest := (served_trace terms trace key).2
  rw [calls, map_append, honest_append] at honest
  have bound := taken_stretch_le (terms key).perSecond_nonneg (Nat.cast_nonneg (terms key).burst)
    (earlier.map TakeCall.use) first.use (more.map TakeCall.use)
    (by simpa only [map_append, map_cons] using honest.1)
  have counted : allowedCount (first :: more) = taken (first.use :: more.map TakeCall.use) := by
    rw [<- map_cons, taken, countP_map]
    rfl
  rw [counted]
  simpa only [latestTime, map_append, map_cons, map_nil] using bound

theorem stored_within
  (row : RateBucket) (stored : table key = some row) : 0 <= row.tokens /\ row.tokens <= (terms key).burst := by
  rcases served_trace terms trace key with ⟨left, honest⟩
  rw [stored, Option.map_some] at left
  exact serveAll_within (terms key).perSecond_nonneg (Nat.cast_nonneg _)
    (fun _ clash => by cases clash) honest left.symm

end

/-- The calls allowed on a key stay within its burst and rate, and a call debits all of its buckets or
none. -/
theorem takeTokens_admission {history : List (TakeCall Key)} {table : RateBuckets Key}
  (trace : (bucketMachine terms).Trace (reportTake terms) history table) :
  (∀ key earlier first more later, callsOn key history = earlier ++ first :: more ++ later ->
    (allowedCount (first :: more) : ℚ) <= (terms key).burst + (terms key).perSecond *
      (latestTime (earlier ++ first :: more) - latestTime (earlier ++ [first]))) /\
  (∀ key row, table key = some row -> 0 <= row.tokens /\ row.tokens <= (terms key).burst) /\
  (∀ take : Take Key, take.keys.Nodup ->
    ((performTake terms table take).allowed /\
      ∀ key ∈ take.keys, 1 <= (readBucket table take.now (requestFor terms key)).tokens /\
        (performTake terms table take).table key =
          some { readBucket table take.now (requestFor terms key) with
            tokens := (readBucket table take.now (requestFor terms key)).tokens - 1 }) \/
    ((performTake terms table take).allowed = false /\
      ∀ key ∈ take.keys,
        (performTake terms table take).table key = some (readBucket table take.now (requestFor terms key)))) := by
  refine ⟨allowedCount_le terms trace, stored_within terms trace, fun take distinct => ?_⟩
  have distinctRequests : ((take.keys.map (requestFor terms)).map BucketRequest.key).Nodup := by
    rw [requests_keys]
    exact distinct
  have named : ∀ key ∈ take.keys, (performTake terms table take).table key =
      some (debited (performTake terms table take).allowed (readBucket table take.now (requestFor terms key))) :=
    fun key mem => takeTokens_named table _ take.now distinctRequests (requestFor terms key)
      (mem_map.mpr ⟨key, mem, rfl⟩)
  cases allowed : (performTake terms table take).allowed with
  | true =>
    refine .inl ⟨rfl, fun key mem => ⟨?_, ?_⟩⟩
    · exact takeTokens_allowed table _ take.now allowed _ (mem_map.mpr ⟨key, mem, rfl⟩)
    · rw [named key mem, allowed]
      rfl
  | false =>
    refine .inr ⟨rfl, fun key mem => ?_⟩
    rw [named key mem, allowed]
    rfl

end Buckets

/-- A bucket of two with one token a second, asked four times: the third
request is refused, and a clock that steps back refills nothing. -/
theorem takeTokens_admission_witness : ∃ history table,
    (bucketMachine fun _ : Unit => ⟨1, 2, zero_le_one⟩).Trace
      (reportTake fun _ : Unit => ⟨1, 2, zero_le_one⟩) history table /\
    history.map TakeCall.allowed = [true, true, false, false] /\
    ∀ key row, table key = some row -> 0 <= row.tokens /\ row.tokens <= ((2 : ℕ) : ℚ) := by
  let terms : Unit -> BucketTerms := fun _ => ⟨1, 2, zero_le_one⟩
  have once : ∀ table now, (bucketMachine terms).enabled table ⟨[()], now⟩ :=
    fun _ _ => nodup_singleton ()
  have first : (bucketMachine terms).Trace (reportTake terms) _ _ := .next (.start rfl) (once _ 5)
  have second := first.next (once _ 5)
  have third := second.next (once _ 5)
  have fourth := third.next (once _ 4)
  exact ⟨_, _, fourth, by decide +kernel, (takeTokens_admission terms fourth).2.1⟩

/-- `UNITS`. -/
inductive Per
  | second
  | minute
  | hour
  | day
deriving DecidableEq

def Per.seconds : Per -> ℕ
  | .second => 1
  | .minute => 60
  | .hour => 3600
  | .day => 86400

/-- The rule as configured (`60/minute/10`): the name of its bucket. -/
structure RuleBase where
  requests : ℕ
  per : Per
  burst : ℕ
deriving DecidableEq

structure RateRule where
  requests : ℚ
  per : Per
  burst : ℕ
  base : Option RuleBase

def RateRule.perSecond (rule : RateRule) : ℚ := rule.requests / rule.per.seconds

structure RateLimit where
  limited : Bool
  rules : List RateRule

inductive BucketScope
  | pool (name : ℕ)
  | model (id : ℕ)
deriving DecidableEq

inductive RuleName
  | configured (base : RuleBase)
  | unit (per : Per)
deriving DecidableEq

/-- The parts `bucket_key` joins with colons. -/
structure BucketKey where
  scope : BucketScope
  userId : ℕ
  rule : RuleName
deriving DecidableEq

def RateRule.name (rule : RateRule) : RuleName :=
  match rule.base with
  | some base => .configured base
  | none => .unit rule.per

def bucketKey (scope : BucketScope) (userId : ℕ) (rule : RateRule) : BucketKey := ⟨scope, userId, rule.name⟩

structure RateDecision where
  allowed : Bool
  limited : Bool
  limit : ℕ
  remaining : ℤ
  resetSeconds : ℚ
  retryAfter : ℤ
  rule : Option RateRule

def unlimitedDecision : RateDecision := ⟨true, false, 0, 0, 0, 0, none⟩

/-- The rule a decision reports: the tightest one when allowed, the one with
the longest wait when refused.  The first of several equal ones counts. -/
def bindingRule (allowed : Bool) (states : List (RateRule × ℚ × ℚ)) : Option (RateRule × ℚ × ℚ) :=
  if allowed then
    states.argmin (fun state => toLex (⌊state.2.1 + 1 / 1000000000⌋, -(state.1.per.seconds : ℤ)))
  else states.argmax (·.2.2)

/-- `_take`: one request from every bucket of a rate limit. -/
def take (table : RateBuckets BucketKey) (scope : BucketScope) (userId : ℕ) (rate : RateLimit) (now : ℚ) :
  RateBuckets BucketKey × RateDecision :=
  if rate.limited = false \/ rate.rules = [] then (table, unlimitedDecision)
  else
    let result := takeTokens table
      (rate.rules.map fun rule => ⟨bucketKey scope userId rule, rule.perSecond, rule.burst⟩) now
    match bindingRule result.allowed (rate.rules.zip result.states) with
    | none => (result.table, unlimitedDecision)
    | some (rule, tokens, retry) =>
      (result.table,
        { allowed := result.allowed
          limited := true
          limit := rule.burst
          remaining := ⌊tokens + 1 / 1000000000⌋
          resetSeconds := (rule.burst - tokens) / rule.perSecond
          retryAfter := if result.allowed then 0 else max 1 ⌈retry - 1 / 1000000000⌉
          rule := some rule })

end BananaChat.Limits

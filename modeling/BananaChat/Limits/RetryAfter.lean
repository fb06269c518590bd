import BananaChat.Limits.RateBuckets

namespace BananaChat.Limits

open Foundation List Function BucketRequest Bucket

/-!
# Refused requests

A refused take still writes the refilled levels.
-/

/-- One call of `take_tokens`. -/
structure BucketCall (Key : Type) where
  buckets : List (BucketRequest Key)
  now : ℚ

variable {now : ℚ}

section Refused

variable {Key : Type} [DecidableEq Key]

def afterCalls (table : RateBuckets Key) : List (BucketCall Key) -> RateBuckets Key
  | [] => table
  | call :: rest => afterCalls (takeTokens table call.buckets call.now).table rest

def answers (table : RateBuckets Key) : List (BucketCall Key) -> List (Bool × List (ℚ × ℚ))
  | [] => []
  | call :: rest =>
    let result := takeTokens table call.buckets call.now
    (result.allowed, result.states) :: answers result.table rest

def Forward (clock : ℚ) : List (BucketCall Key) -> Prop
  | [] => True
  | call :: rest => clock <= call.now /\ Forward call.now rest

def SameRules (buckets : List (BucketRequest Key)) (calls : List (BucketCall Key)) : Prop :=
  ∀ call ∈ calls, ∀ request ∈ call.buckets, ∀ asked ∈ buckets, request.key = asked.key -> request = asked

/-- The wait `take_tokens` reports for a bucket of a refused request. -/
def reportedWait (now : ℚ) (request : BucketRequest Key) (level : RateBucket) : ℚ :=
  if 1 <= level.tokens then 0 else (level.updatedAt - now) + (1 - level.tokens) / request.perSecond

omit [DecidableEq Key] in
theorem readBucket_refilled (table : RateBuckets Key) (now : ℚ) (request : BucketRequest Key) :
  (readBucket table now request).bucket =
    refilled request.perSecond request.burst ((table request.key).map RateBucket.bucket) now := by
  unfold readBucket
  cases table request.key <;> rfl

theorem RateBucket.bucket_injective {left right : RateBucket} (same : left.bucket = right.bucket) : left = right := by
  cases left
  cases right
  simpa only [RateBucket.bucket, Bucket.mk.injEq, RateBucket.mk.injEq] using same

variable (table : RateBuckets Key) {buckets : List (BucketRequest Key)}

theorem takeTokens_allowed_iff (buckets : List (BucketRequest Key)) (now : ℚ) : (takeTokens table buckets now).allowed ↔
    ∀ request ∈ buckets, 1 <= (readBucket table now request).tokens := by
  simp [takeTokens]

theorem takeTokens_refused_named (buckets : List (BucketRequest Key)) (now : ℚ)
  (distinct : (buckets.map key).Nodup) (refused : (takeTokens table buckets now).allowed = false)
  (request : BucketRequest Key) (named : request ∈ buckets) :
  (takeTokens table buckets now).table request.key = some (readBucket table now request) := by
  rw [takeTokens_named table buckets now distinct request named, refused]
  rfl

theorem takeTokens_refused_states (buckets : List (BucketRequest Key)) (now : ℚ)
  (refused : (takeTokens table buckets now).allowed = false) :
  (takeTokens table buckets now).states = buckets.map (fun request =>
    ((readBucket table now request).tokens, reportedWait now request (readBucket table now request))) := by
  have short : (buckets.map fun request => (request, readBucket table now request)).all
      (fun entry => decide (1 <= entry.2.tokens)) = false := refused
  simp [takeTokens, short, reportedWait]

structure ReadsAlike (buckets : List (BucketRequest Key)) (clock : ℚ) (left right : RateBuckets Key) : Prop where
  others : ∀ key, key ∉ buckets.map BucketRequest.key -> left key = right key
  levels : ∀ request ∈ buckets, ∀ now, clock <= now ->
    readBucket left now request = readBucket right now request

theorem storeBuckets_same (left right : RateBuckets Key) (rows : List (BucketRequest Key × RateBucket)) (key : Key)
  (same : key ∈ rows.map (·.1.key) \/ left key = right key) :
  storeBuckets left rows key = storeBuckets right rows key := by
  induction rows generalizing left right with
  | nil =>
    rcases same with clash | same
    · cases clash
    · exact same
  | cons entry rest ih =>
    refine ih _ _ ?_
    by_cases head : key = entry.1.key
    · subst head
      exact .inr (by rw [update_self, update_self])
    · rw [update_of_ne head, update_of_ne head]
      rw [map_cons, mem_cons] at same
      rcases same with (here | later) | same
      · exact absurd here head
      · exact .inl later
      · exact .inr same

variable {left right : RateBuckets Key}

theorem takeTokens_same (levels : ∀ request ∈ buckets, readBucket left now request = readBucket right now request) :
  (takeTokens left buckets now).allowed = (takeTokens right buckets now).allowed /\
    (takeTokens left buckets now).states = (takeTokens right buckets now).states /\
    ∀ key, key ∈ buckets.map BucketRequest.key \/ left key = right key ->
      (takeTokens left buckets now).table key = (takeTokens right buckets now).table key := by
  have read : buckets.map (fun request => (request, readBucket left now request)) =
      buckets.map (fun request => (request, readBucket right now request)) :=
    map_congr_left fun request named => by rw [levels request named]
  simp only [takeTokens, read, true_and]
  refine fun key same => storeBuckets_same _ _ _ _ ?_
  rcases same with named | same
  · refine .inl ?_
    split <;> simpa only [map_map, comp_def] using named
  · exact .inr same

theorem ReadsAlike.reads {clock : ℚ} (alike : ReadsAlike buckets clock left right)
  {call : BucketCall Key} (forward : clock <= call.now)
  (rules : ∀ request ∈ call.buckets, ∀ asked ∈ buckets, request.key = asked.key -> request = asked) :
  ∀ request ∈ call.buckets, readBucket left call.now request = readBucket right call.now request := by
  intro request named
  by_cases shared : request.key ∈ buckets.map key
  · rcases mem_map.mp shared with ⟨asked, mem, key⟩
    rw [rules request named asked mem key.symm]
    exact alike.levels asked mem call.now forward
  · simp [readBucket, alike.others request.key shared]

theorem ReadsAlike.next {clock : ℚ}
  (alike : ReadsAlike buckets clock left right) {call : BucketCall Key} (forward : clock <= call.now)
  (rules : ∀ request ∈ call.buckets, ∀ asked ∈ buckets, request.key = asked.key -> request = asked) :
  ReadsAlike buckets call.now (takeTokens left call.buckets call.now).table
    (takeTokens right call.buckets call.now).table := by
  rcases takeTokens_same (alike.reads forward rules) with ⟨_, _, tables⟩
  constructor
  · intro key other
    exact tables key (.inr (alike.others key other))
  · intro request mem now later
    by_cases named : request.key ∈ call.buckets.map BucketRequest.key
    · simp only [readBucket, tables request.key (.inl named)]
    · have before := alike.levels request mem now (forward.trans later)
      simp only [readBucket, takeTokens_other _ _ _ _ named] at before ⊢
      exact before

theorem ReadsAlike.answers {clock : ℚ}
  (alike : ReadsAlike buckets clock left right) {calls : List (BucketCall Key)} (forward : Forward clock calls)
  (rules : SameRules buckets calls) : Limits.answers left calls = Limits.answers right calls := by
  induction calls generalizing clock left right with
  | nil => rfl
  | cons call rest ih =>
    have here := rules call mem_cons_self
    rcases takeTokens_same (alike.reads forward.1 here) with ⟨decision, states, _⟩
    have further := ih (alike.next forward.1 here) forward.2
      (fun other mem => rules other (.tail _ mem))
    simp [Limits.answers, decision, states, further]

theorem readsAlike_refused {table : RateBuckets Key} (distinct : (buckets.map key).Nodup)
  (rates : ∀ request ∈ buckets, 0 <= request.perSecond) (refused : (takeTokens table buckets now).allowed = false) :
  ReadsAlike buckets now (takeTokens table buckets now).table table := by
  constructor
  · exact fun key other => takeTokens_other table buckets now key other
  · intro request named _ forward
    apply RateBucket.bucket_injective
    rw [readBucket_refilled, readBucket_refilled, takeTokens_refused_named table buckets now distinct refused request named,
      Option.map_some, readBucket_refilled]
    exact refilled_refilled (rates request named) _ forward

theorem afterCalls_other (calls : List (BucketCall Key)) (key : Key)
  (other : ∀ call ∈ calls, key ∉ call.buckets.map BucketRequest.key) : afterCalls table calls key = table key := by
  induction calls generalizing table with
  | nil => rfl
  | cons call rest ih =>
    rw [afterCalls, ih _ (fun later mem => other later (mem_cons_of_mem _ mem)),
      takeTokens_other table call.buckets call.now key (other call mem_cons_self)]

variable {request : BucketRequest Key}

omit [DecidableEq Key] in
theorem enough_iff (rate : 0 < request.perSecond) (burst : 1 <= request.burst)
  {table : RateBuckets Key} {level : RateBucket} (stored : table request.key = some level) (now moment : ℚ) :
  1 <= (readBucket table moment request).tokens ↔
    1 <= level.tokens \/ now + reportedWait now request level <= moment := by
  have burstOne : (1 : ℚ) <= request.burst := Nat.one_le_cast.mpr burst
  have read : (readBucket table moment request).tokens =
      (refilled request.perSecond request.burst (some level.bucket) moment).tokens := by
    have same := congrArg tokens (readBucket_refilled table moment request)
    rw [stored] at same
    exact same
  rw [read]
  by_cases enough : 1 <= level.tokens
  · exact iff_of_true (refilled_enough rate.le burstOne enough moment) (.inl enough)
  · have wait : now + reportedWait now request level = level.updatedAt + (1 - level.tokens) / request.perSecond := by
      rw [reportedWait, if_neg enough]
      ring
    rw [refilled_enough_iff rate burstOne (not_le.mp enough), wait]
    exact (or_iff_right enough).symm

omit [DecidableEq Key] in
theorem reportedWait_pos {table : RateBuckets Key} (rate : 0 < request.perSecond)
  (short : ¬ 1 <= (readBucket table now request).tokens) :
  0 < reportedWait now request (readBucket table now request) := by
  have ahead : now <= (readBucket table now request).updatedAt := by
    unfold readBucket
    cases table request.key with
    | none => exact le_refl now
    | some row => exact le_max_left _ _
  have missing : 0 < (1 - (readBucket table now request).tokens) / request.perSecond :=
    div_pos (sub_pos.mpr (not_le.mp short)) rate
  rw [reportedWait, if_neg short]
  linarith

theorem refused_short {table : RateBuckets Key} (refused : (takeTokens table buckets now).allowed = false) :
  ∃ request ∈ buckets, ¬ 1 <= (readBucket table now request).tokens := by
  have notAllowed : ¬ (takeTokens table buckets now).allowed := by
    rw [refused]
    exact Bool.false_ne_true
  rw [takeTokens_allowed_iff] at notAllowed
  push Not at notAllowed
  rcases notAllowed with ⟨request, named, less⟩
  exact ⟨request, named, not_le.mpr less⟩

theorem refused_waits {table : RateBuckets Key} (refused : (takeTokens table buckets now).allowed = false) :
  (takeTokens table buckets now).states.map Prod.snd =
    buckets.map (fun request => reportedWait now request (readBucket table now request)) := by
  rw [takeTokens_refused_states table buckets now refused, map_map]
  rfl

theorem refused_wait {table : RateBuckets Key} (distinct : (buckets.map BucketRequest.key).Nodup)
  (positive : ∀ request ∈ buckets, 0 < request.perSecond /\ 1 <= request.burst)
  (refused : (takeTokens table buckets now).allowed = false) {wait : ℚ}
  (reported : wait ∈ (takeTokens table buckets now).states.map Prod.snd)
  (longest : ∀ other ∈ (takeTokens table buckets now).states.map Prod.snd, other <= wait)
  {others : List (BucketCall Key)} (elsewhere : ∀ call ∈ others, ∀ request ∈ buckets,
    request.key ∉ call.buckets.map BucketRequest.key) (moment : ℚ) :
  (takeTokens (afterCalls (takeTokens table buckets now).table others) buckets moment).allowed ↔
    now + wait <= moment := by
  rw [refused_waits refused] at reported longest
  rcases refused_short refused with ⟨lacking, lackingNamed, lacks⟩
  rcases mem_map.mp reported with ⟨slowest, slowestNamed, same⟩
  have within : ∀ request ∈ buckets, reportedWait now request (readBucket table now request) <= wait :=
    fun request named => longest _ (mem_map.mpr ⟨request, named, rfl⟩)
  have stored : ∀ request ∈ buckets,
      afterCalls (takeTokens table buckets now).table others request.key = some (readBucket table now request) := by
    intro request named
    rw [afterCalls_other _ others request.key (fun call mem => elsewhere call mem request named),
      takeTokens_refused_named table buckets now distinct refused request named]
  have ready := fun request named =>
    enough_iff (positive request named).1 (positive request named).2 (stored request named) now moment
  rw [takeTokens_allowed_iff]
  constructor
  · intro enough
    -- the slowest bucket is short, for one bucket is and waits longer than nothing
    have slowestShort : ¬ 1 <= (readBucket table now slowest).tokens := by
      intro full
      have waits := (reportedWait_pos (positive lacking lackingNamed).1 lacks).trans_le (within lacking lackingNamed)
      rw [<- same, reportedWait, if_pos full] at waits
      exact lt_irrefl 0 waits
    rw [<- same]
    exact ((ready slowest slowestNamed).mp (enough slowest slowestNamed)).resolve_left slowestShort
  · intro _ request named
    refine (ready request named).mpr (.inr ?_)
    linarith [within request named]

/-- A refused take is free, and its longest reported wait is the time after which the same take
is allowed. -/
theorem refusedTake_free (table : RateBuckets Key) (buckets : List (BucketRequest Key)) (now : ℚ)
  (distinct : (buckets.map BucketRequest.key).Nodup)
  (positive : ∀ request ∈ buckets, 0 < request.perSecond /\ 1 <= request.burst)
  (refused : (takeTokens table buckets now).allowed = false) :
  (∀ later : List (BucketCall Key), Forward now later -> SameRules buckets later ->
    answers (takeTokens table buckets now).table later = answers table later) /\
  ∃ wait,
    wait ∈ (takeTokens table buckets now).states.map Prod.snd /\
    (∀ other ∈ (takeTokens table buckets now).states.map Prod.snd, other <= wait) /\
    ∀ others : List (BucketCall Key),
      (∀ call ∈ others, ∀ request ∈ buckets,
        request.key ∉ call.buckets.map BucketRequest.key) ->
      ∀ moment, (takeTokens (afterCalls (takeTokens table buckets now).table others) buckets moment).allowed ↔
        now + wait <= moment := by
  have rates : ∀ request ∈ buckets, 0 <= request.perSecond :=
    fun request named => (positive request named).1.le
  constructor
  · exact fun later forward rules => (readsAlike_refused distinct rates refused).answers forward rules
  · cases slowest : ((takeTokens table buckets now).states.map Prod.snd).argmax id with
    | none =>
      rcases refused_short refused with ⟨lacking, named, _⟩
      rw [argmax_eq_none, refused_waits refused, map_eq_nil_iff] at slowest
      rw [slowest] at named
      cases named
    | some wait =>
      have reported := argmax_mem slowest
      have longest : ∀ other ∈ (takeTokens table buckets now).states.map Prod.snd, other <= wait :=
        fun other mem => le_of_mem_argmax mem slowest
      exact ⟨wait, reported, longest, fun others elsewhere moment =>
        refused_wait distinct positive refused reported longest elsewhere moment⟩

end Refused

/-- A bucket of one token that is 3 seconds short, and one whose stored time is 2 seconds ahead of
the clock: the second one is the slower. -/
theorem refusedTake_free_witness :
  let table : RateBuckets Bool := fun key => if key then some ⟨2 / 5, 5⟩ else some ⟨1 / 2, 7⟩
  let buckets : List (BucketRequest Bool) := [⟨true, 1 / 5, 1⟩, ⟨false, 1 / 4, 2⟩]
  (takeTokens table buckets 5).states.map Prod.snd = [3, 4] /\ (∃ wait,
    wait ∈ (takeTokens table buckets 5).states.map Prod.snd /\
    (∀ other ∈ (takeTokens table buckets 5).states.map Prod.snd, other <= wait) /\
    ∀ moment, (takeTokens (takeTokens table buckets 5).table buckets moment).allowed ↔ 5 + wait <= moment) := by
  intro table buckets
  rcases refusedTake_free table buckets 5 (by decide) (by
    intro request named
    rcases mem_cons.mp named with rfl | named
    · norm_num
    · rw [mem_singleton.mp named]
      norm_num) (by decide +kernel) with ⟨_, wait, reported, longest, honest⟩
  refine ⟨by decide +kernel, wait, reported, longest, fun moment => ?_⟩
  exact honest [] nofun moment

end BananaChat.Limits

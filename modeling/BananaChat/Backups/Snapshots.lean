import BananaChat.Foundation.Calendar
import BananaChat.Foundation.Descending

namespace BananaChat.Backups

open Foundation List

/-!
# Snapshots of a backup series

A snapshot is a branch whose name is its identifier: a moment, and a suffix that makes it unique.
-/

/-- A branch name of the form `SNAPSHOT`, by its groups of digits.  Each group has a
fixed width, so names compare as their groups do in turn. -/
structure Identifier where
  year : ℕ
  month : ℕ
  day : ℕ
  hour : ℕ
  minute : ℕ
  second : ℕ
  micro : Option ℕ
  suffix : ℕ
deriving DecidableEq

namespace Identifier

def stamp (identifier : Identifier) : Stamp :=
  { year := identifier.year, month := identifier.month, day := identifier.day, hour := identifier.hour,
    minute := identifier.minute, second := identifier.second, micro := identifier.micro.getD 0 }

end Identifier

section

variable (identifier : Identifier)

def snapshotOrder : List ℕ := identifier.stamp.fields

def nameOrder (name : Identifier) : List ℕ :=
  [name.year, name.month, name.day, name.hour, name.minute, name.second, if name.micro.isSome then 0 else 1,
    name.micro.getD 0, name.suffix]

/-- `_snapshot_time`: the moment a name tells, where it is a date. -/
def snapshotTime : Option ℕ :=
  if identifier.stamp.Valid then some identifier.stamp.moment else none

/-- `FUTURE_SKEW`: a day. -/
def futureSkew : ℕ := Stamp.dayMicros

/-- `_plausible`. -/
def isPlausible (now : ℕ) : Bool :=
  match snapshotTime identifier with
  | some moment => moment <= now + futureSkew
  | none => false

end

/-- `strftime` of a moment, and a random suffix. -/
def written (moment suffix : ℕ) : Identifier :=
  let stamp := Stamp.ofMoment moment
  { year := stamp.year, month := stamp.month, day := stamp.day, hour := stamp.hour, minute := stamp.minute,
    second := stamp.second, micro := some stamp.micro, suffix }

def nextSnapshot (previous : List Identifier) (now suffix : ℕ) : Identifier :=
  match ((previous.filter (isPlausible · now)).filterMap snapshotTime).max? with
  | none => written now suffix
  | some latest => written (max now (latest + 1)) suffix

theorem written_stamp (moment suffix : ℕ) : (written moment suffix).stamp = Stamp.ofMoment moment := rfl

theorem written_time (moment suffix : ℕ) : snapshotTime (written moment suffix) = some moment := by
  have spec := Stamp.ofMoment_spec moment
  unfold snapshotTime
  rw [written_stamp, if_pos spec.1, spec.2]

theorem order_le_iff {first second : Identifier} {firstTime secondTime : ℕ} (firstDate : snapshotTime first = some firstTime)
  (secondDate : snapshotTime second = some secondTime) :
  snapshotOrder first <= snapshotOrder second ↔ firstTime <= secondTime := by
  unfold snapshotTime at firstDate secondDate
  split at firstDate
  · rename_i firstValid
    split at secondDate
    · rename_i secondValid
      cases firstDate
      cases secondDate
      exact Stamp.fields_le_iff firstValid secondValid
    · cases secondDate
  · cases firstDate

theorem isPlausible_iff {identifier : Identifier} {now : ℕ} :
  isPlausible identifier now ↔ ∃ moment, snapshotTime identifier = some moment /\ moment <= now + futureSkew := by
  unfold isPlausible
  cases snapshotTime identifier with
  | none =>
    constructor
    · intro clash
      cases clash
    · rintro ⟨_, clash, _⟩
      cases clash
  | some moment =>
    rw [decide_eq_true_eq]
    constructor
    · exact fun within => ⟨moment, rfl, within⟩
    · rintro ⟨_, same, within⟩
      cases same
      exact within

theorem nextSnapshot_time (previous : List Identifier) (now suffix : ℕ) :
  ∃ moment, snapshotTime (nextSnapshot previous now suffix) = some moment /\ now <= moment /\
    moment <= now + futureSkew + 1 /\
    ∀ name time, name ∈ previous -> isPlausible name now -> snapshotTime name = some time -> time < moment := by
  unfold nextSnapshot
  have listed : ∀ name time, name ∈ previous -> isPlausible name now -> snapshotTime name = some time ->
      time ∈ (previous.filter (isPlausible · now)).filterMap snapshotTime := by
    intro name time mem dated date
    exact mem_filterMap.mpr ⟨name, mem_filter.mpr ⟨mem, dated⟩, date⟩
  have bounded : ∀ time ∈ (previous.filter (isPlausible · now)).filterMap snapshotTime,
      time <= now + futureSkew := by
    intro time mem
    rcases mem_filterMap.mp mem with ⟨name, inFilter, date⟩
    rcases isPlausible_iff.mp (mem_filter.mp inFilter).2 with ⟨_, otherDate, within⟩
    rw [otherDate] at date
    cases date
    exact within
  revert listed bounded
  generalize (previous.filter (isPlausible · now)).filterMap snapshotTime = times
  intro listed bounded
  cases latest : times.max? with
  | none =>
    refine ⟨now, written_time now suffix, Nat.le_refl _, by omega, ?_⟩
    intro name time mem dated date
    have inTimes := listed name time mem dated date
    rw [max?_eq_none_iff.mp latest] at inTimes
    exact absurd inTimes not_mem_nil
  | some last =>
    have greatest := max?_eq_some_iff.mp latest
    have within := bounded last greatest.1
    refine ⟨max now (last + 1), written_time _ suffix, Nat.le_max_left _ _, by omega, ?_⟩
    intro name time mem dated date
    have before := greatest.2 time (listed name time mem dated date)
    omega

/-- The tag of an index: none, one that this recovery key made over the rest of the
index, or anything else. -/
inductive Tag
  | missing
  | valid
  | invalid
deriving DecidableEq

/-- What is read of `index.json`; `none` stands for a value that is no identifier. -/
structure Index where
  schema : ℕ
  product : String
  series : String
  snapshot : Option Identifier
  authenticatedSince : Option Identifier
  tag : Tag
deriving DecidableEq

structure Config where
  product : String
  name : String

/-- `context`: what an index has to say of its own snapshot. -/
def Index.describes (index : Index) (config : Config) (identifier : Identifier) : Bool :=
  (index.schema = 1) && (index.product = config.product) && (index.series = config.name) &&
    (index.snapshot = some identifier)

inductive Refusal
  | noLongerExists
  | invalidIndex
  | notAuthenticated
  | authenticationFailed
  | implausibleDate
  | notOlder (since : Identifier)
  | tooManyUnverified

/-- `check_authentication`: whether the index was authenticated, or the refusal. -/
def checkAuthentication (index : Index) (allowUnauthenticated : Bool) : Except Refusal Bool :=
  match index.tag with
  | .missing => if allowUnauthenticated then .ok false else .error .notAuthenticated
  | .invalid => .error .authenticationFailed
  | .valid => .ok true

section

variable (config : Config) (identifier : Identifier) (read : Option Index)

/-- `_authenticated_index`, given what could be read of the branch. -/
def authenticatedIndex : Option Index :=
  match read with
  | none => none
  | some index =>
    if index.describes config identifier then
      match checkAuthentication index true with
      | .ok true => some index
      | _ => none
    else none

def authenticated : Bool := (authenticatedIndex config identifier read).isSome

end

def newestFirst (heads : List Identifier) (now : ℕ) : List Identifier :=
  descending snapshotOrder (heads.filter (isPlausible · now))

theorem mem_newestFirst {heads : List Identifier} {now : ℕ} {name : Identifier} :
  name ∈ newestFirst heads now ↔ name ∈ heads /\ isPlausible name now := by
  unfold newestFirst
  rw [mem_descending, mem_filter]

def maxUnverified : ℕ := 40

end BananaChat.Backups

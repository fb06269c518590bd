import Mathlib.Data.List.GetD
import BananaChat.SignIn.Budgets

namespace BananaChat.SignIn

open Foundation List HitReport SlidingWindow

/-!
# Budgets are kept

A row is recorded while fewer than the limit of its key are recent at its own second.
-/

variable {budgets : Budgets}

def stampsOf (key : Text) (rows : List HitRow) : List ℤ := (rows.filter (·.key = key)).map HitRow.hitAt

variable (key : Text) {table : HitTable} {clock : List ℚ} {limits : List KeyLimit} {past : List HitReport}

@[simp] theorem stampsOf_append (first second : List HitRow) :
    stampsOf key (first ++ second) = stampsOf key first ++ stampsOf key second := by
  unfold stampsOf
  rw [filter_append, map_append]

variable {fewer rows : List HitRow}

theorem stampsOf_sublist (sublist : fewer.Sublist rows) :
    (stampsOf key fewer).Sublist (stampsOf key rows) := (sublist.filter _).map _

theorem countP_stampsOf (rows : List HitRow) (holds : ℤ -> Bool) :
  (stampsOf key rows).countP holds = rows.countP (fun row => decide (row.key = key) && holds row.hitAt) := by
  unfold stampsOf
  rw [countP_map, countP_filter]
  apply countP_congr
  intro _ _
  simp only [Function.comp_apply, Bool.and_comm]

def HitsKept (budgets : Budgets) (table : HitTable) : Prop :=
  ∀ key, SlidingWindow.Bounded (budgets.limitOf key).toNat (budgets.windowOf key) (stampsOf key table.rows)

theorem since_eq (now : ℚ) (window : ℤ) : since now window = stamp now - window := Int.floor_sub_intCast now window

theorem few_of_not_reached {key : Text} {limit window : ℤ} {checked now : ℚ} (later : checked <= now)
  (room : reached table key limit (since checked window) = false) :
  (stampsOf key table.rows).countP (recent (stamp now) window) < limit.toNat := by
  have notReached := of_decide_eq_false room
  have fewer : (stampsOf key table.rows).countP (recent (stamp now) window) <=
      countHits table key (since checked window) := by
    rw [countP_stampsOf]
    apply countP_mono_left
    intro _ _ recent
    rw [Bool.and_eq_true, decide_eq_true_eq] at recent
    have isRecent := of_decide_eq_true recent.2
    have earlier : stamp checked <= stamp now := Int.floor_le_floor later
    rw [decide_eq_true_eq, since_eq]
    exact ⟨recent.1, by omega⟩
  omega

theorem kept_of_rows {next : HitTable} (kept : HitsKept budgets table) (rows : List HitRow)
  (isNext : next.rows = table.rows ++ rows)
  (room : ∀ key, stampsOf key rows = [] \/ ∃ second, stampsOf key rows = [second] /\
    (stampsOf key table.rows).countP (recent second (budgets.windowOf key)) < (budgets.limitOf key).toNat) :
  HitsKept budgets next := by
  intro key
  rw [isNext, stampsOf_append]
  rcases room key with nothing | ⟨_, one, few⟩
  · rw [nothing, append_nil]
    exact kept key
  · rw [one]
    exact (kept key).append few

theorem reading_mono {readings first second : ℕ} (forward : Forward clock readings) (order : first < second)
  (inside : second < readings) : reading clock first <= reading clock second := by
  rcases forward with ⟨length, sorted⟩
  rw [<- length] at inside
  unfold reading
  rw [getD_eq_getElem _ _ (Nat.lt_trans order inside), getD_eq_getElem _ _ inside]
  exact pairwise_iff_getElem.mp sorted first second (Nat.lt_trans order inside) inside order

variable {windowSeconds : ℤ}

theorem room_of_anyReached {place : ℕ}
  (none : anyReached table windowSeconds clock place limits = false) {entry : KeyLimit} (mem : entry ∈ limits) :
  ∃ checked, checked < place + limits.length /\
    reached table entry.key entry.limit (since (reading clock checked) (entry.window.getD windowSeconds)) = false := by
  induction limits generalizing place with
  | nil => cases mem
  | cons head rest ih =>
    unfold anyReached at none
    rw [Bool.or_eq_false_iff] at none
    rw [length_cons]
    rcases mem_cons.mp mem with isHead | isLater
    · rw [isHead]
      exact ⟨place, by omega, none.1⟩
    · rcases ih none.2 isLater with ⟨checked, _, room⟩
      exact ⟨checked, by omega, room⟩

theorem stampsOf_reservedRows (clock : List ℚ) (lastId place : ℕ) (distinct : (limits.map KeyLimit.key).Nodup)
  (key : Text) : stampsOf key (reservedRows lastId clock place limits) = [] \/
    ∃ entry ∈ limits, entry.key = key /\ ∃ inserted, place <= inserted /\ inserted < place + limits.length /\
        stampsOf key (reservedRows lastId clock place limits) = [stamp (reading clock inserted)] := by
  induction limits generalizing lastId place with
  | nil => exact .inl rfl
  | cons head rest ih =>
    rw [map_cons, nodup_cons] at distinct
    have split : stampsOf key (reservedRows lastId clock place (head :: rest)) =
        stampsOf key [⟨lastId + 1, head.key, stamp (reading clock place)⟩] ++
          stampsOf key (reservedRows (lastId + 1) clock (place + 1) rest) := stampsOf_append key [_] _
    rw [split, length_cons]
    by_cases same : head.key = key
    · have itself : stampsOf key [⟨lastId + 1, head.key, stamp (reading clock place)⟩] = [stamp (reading clock place)] := by
        simp [stampsOf, same]
      rcases ih (lastId + 1) (place + 1) distinct.2 with nothing | ⟨entry, mem, isKey, _⟩
      · refine .inr ⟨head, mem_cons_self, same, place, Nat.le_refl _, by omega, ?_⟩
        rw [itself, nothing]
        rfl
      · exact absurd (mem_map.mpr ⟨entry, mem, isKey.trans same.symm⟩) distinct.1
    · have nothing : stampsOf key [⟨lastId + 1, head.key, stamp (reading clock place)⟩] = [] := by
        simp [stampsOf, same]
      rw [nothing, nil_append]
      rcases ih (lastId + 1) (place + 1) distinct.2 with
        none | ⟨entry, mem, isKey, inserted, after, before, one⟩
      · exact .inl none
      · exact .inr ⟨entry, mem_cons_of_mem _ mem, isKey, inserted, by omega, by omega, one⟩

section

variable (kept : HitsKept budgets table)
include kept

theorem kept_reserve (agrees : budgets.Agrees limits windowSeconds)
  (distinct : (limits.map KeyLimit.key).Nodup) (forward : Forward clock (2 * limits.length)) :
  HitsKept budgets (reserve table limits windowSeconds clock).1 := by
  unfold reserve
  cases found : anyReached table windowSeconds clock 0 limits with
  | true => exact kept
  | false =>
    apply kept_of_rows kept (reservedRows table.lastId clock limits.length limits) rfl
    intro key
    rcases stampsOf_reservedRows clock table.lastId limits.length distinct key with
      nothing | ⟨entry, mem, isKey, inserted, after, before, one⟩
    · exact .inl nothing
    · rcases room_of_anyReached found mem with ⟨_, _, room⟩
      rcases agrees entry mem with ⟨isLimit, isWindow⟩
      rw [isLimit, isWindow, isKey] at room
      exact .inr ⟨_, one, few_of_not_reached (reading_mono forward (by omega) (by omega)) room⟩

theorem kept_hit {key : Text} {limit window : ℤ} {record : Bool} {began now : ℚ}
  (agrees : budgets.Agrees [⟨key, limit, some window⟩] window) (order : began <= now) :
  HitsKept budgets (hit table key limit window record began now).1 := by
  unfold hit
  cases room : reached table key limit (since began window) with
  | true => exact kept
  | false =>
    cases record with
    | false => exact kept
    | true =>
      rcases agrees _ (.head _) with ⟨isLimit, isWindow⟩
      change limit = budgets.limitOf key at isLimit
      change window = budgets.windowOf key at isWindow
      rw [isLimit, isWindow] at room
      apply kept_of_rows kept [hitRow table key now] rfl
      intro other
      by_cases same : key = other
      · rw [<- same]
        exact .inr ⟨stamp now, by simp [stampsOf, hitRow], few_of_not_reached order room⟩
      · exact .inl (by simp [stampsOf, hitRow, same])

theorem kept_release (ids : List ℕ) : HitsKept budgets (release table ids) :=
  fun key => (kept key).subperm (stampsOf_sublist key filter_sublist).subperm

theorem kept_next {action : HitAction} (proper : action.Proper budgets) : HitsKept budgets (action.next table) := by
  cases action with
  | hit key limit window record began now => exact kept_hit kept proper.1 proper.2
  | reserve limits windowSeconds clock => exact kept_reserve kept proper.1 proper.2.1 proper.2.2
  | release ids => exact kept_release kept ids

end

theorem recordedOf_append (past more : List HitReport) : recordedOf (past ++ more) = recordedOf past ++ recordedOf more :=
  filterMap_append

theorem releasedOf_append (past more : List HitReport) : releasedOf (past ++ more) = releasedOf past ++ releasedOf more :=
  filterMap_append

theorem recordedOf_recorded (rows : List HitRow) :
  recordedOf (rows.map recorded) = rows /\ releasedOf (rows.map recorded) = [] := by
  induction rows with
  | nil => exact ⟨rfl, rfl⟩
  | cons row rest ih =>
    constructor
    · change row :: recordedOf (rest.map recorded) = row :: rest
      rw [ih.1]
    · exact ih.2

theorem recordedOf_released (ids : List ℕ) :
  recordedOf (ids.map released) = [] /\ releasedOf (ids.map released) = ids := by
  induction ids with
  | nil => exact ⟨rfl, rfl⟩
  | cons id rest ih =>
    constructor
    · exact ih.1
    · change id :: releasedOf (rest.map released) = id :: rest
      rw [ih.2]

theorem unreleased_recorded {next : HitTable} (stays : (unreleasedOf past).Sublist table.rows) (rows : List HitRow)
  (isNext : next.rows = table.rows ++ rows) :
  (unreleasedOf (past ++ rows.map recorded)).Sublist next.rows := by
  unfold unreleasedOf
  rw [recordedOf_append, releasedOf_append, (recordedOf_recorded rows).1, (recordedOf_recorded rows).2, append_nil,
    filter_append, isNext]
  exact stays.append filter_sublist

theorem unreleased_released (stays : (unreleasedOf past).Sublist table.rows) (ids : List ℕ) :
  (unreleasedOf (past ++ ids.map released)).Sublist (release table ids).rows := by
  have both : unreleasedOf (past ++ ids.map released) =
      (unreleasedOf past).filter (·.id ∉ ids) := by
    unfold unreleasedOf
    rw [recordedOf_append, releasedOf_append, (recordedOf_released ids).1, (recordedOf_released ids).2, append_nil,
      filter_filter]
    apply filter_congr
    intro _ _
    simp only [mem_append, not_or, Bool.decide_and, Bool.and_comm]
  rw [both]
  exact stays.filter _

theorem rows_next (table : HitTable) (action : HitAction) (isRelease : ∀ ids, action ≠ .release ids) :
  (action.next table).rows = table.rows ++ action.records table := by
  cases action with
  | release ids => exact absurd rfl (isRelease ids)
  | hit key limit window record began now =>
    simp only [HitAction.next, HitAction.records, hit]
    cases reached table key limit (since began window) with
    | true => exact (append_nil _).symm
    | false =>
      cases record with
      | false => exact (append_nil _).symm
      | true => rfl
  | reserve limits windowSeconds clock =>
    simp only [HitAction.next, HitAction.records, reserve]
    cases anyReached table windowSeconds clock 0 limits with
    | true => exact (append_nil _).symm
    | false => rfl

theorem unreleased_trace (trace : (hitMachine budgets).Trace hitReport past table) :
  HitsKept budgets table /\ (unreleasedOf past).Sublist table.rows := by
  induction trace with
  | start isStart =>
    rw [show _ = (⟨[], 0⟩ : HitTable) from isStart]
    exact ⟨fun key => bounded_nil _ _, List.Sublist.refl _⟩
  | @next past table action _ proper before =>
    refine ⟨kept_next before.1 proper, ?_⟩
    cases action with
    | release ids => exact unreleased_released before.2 ids
    | hit key limit window record began now | reserve limits windowSeconds clock =>
      exact unreleased_recorded before.2 _ (rows_next table _ fun ids clash => nomatch clash)

theorem span_bounded (kept : HitsKept budgets table) (isTable : table.rows = rows)
  (subperm : fewer.Subperm rows) (key : Text) (start : ℤ) :
  countInSpan budgets fewer key start <= (budgets.limitOf key).toNat := by
  have bounded := kept key start
  rw [countP_stampsOf, isTable] at bounded
  exact Nat.le_trans (subperm.countP_le _) bounded

theorem reserve_all_or_none (table : HitTable) (limits : List KeyLimit) (windowSeconds : ℤ) (clock : List ℚ) :
  reserve table limits windowSeconds clock = (table, none) \/ ∃ rows, rows.map HitRow.key = limits.map KeyLimit.key /\
      (reserve table limits windowSeconds clock).1.rows = table.rows ++ rows /\
      (reserve table limits windowSeconds clock).2 = some (rows.map HitRow.id) := by
  have keys (lastId place : ℕ) (entries : List KeyLimit) :
      (reservedRows lastId clock place entries).map HitRow.key = entries.map KeyLimit.key := by
    induction entries generalizing lastId place with
    | nil => rfl
    | cons entry rest ih =>
      unfold reservedRows
      rw [map_cons, map_cons, ih]
  unfold reserve
  cases anyReached table windowSeconds clock 0 limits with
  | true => exact .inl rfl
  | false => exact .inr ⟨_, keys _ _ _, rfl, rfl⟩

end BananaChat.SignIn

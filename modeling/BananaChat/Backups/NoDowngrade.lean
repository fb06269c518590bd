import BananaChat.Backups.Series

namespace BananaChat.Backups

open Foundation List Rows Bool

/-!
# A series cannot be downgraded

The series' own branches are those with an authenticated index.
-/

def Branch.Own (config : Config) (branch : Branch) : Prop := authenticated config branch.name branch.index

variable {branch : Branch} {config : Config} {name first : Identifier} {now : ℕ} {branches : List Branch}
  {past : List Identifier} {series : Series}

theorem own_iff : branch.Own config ↔ ∃ index, authenticatedIndex config branch.name branch.index = some index := by
  exact Option.isSome_iff_exists

theorem not_own_iff : ¬ branch.Own config ↔ authenticated config branch.name branch.index = false :=
  not_eq_true _ ▸ Iff.rfl

theorem authenticatedIndex_uploaded (config : Config) (identifier since : Identifier) :
  authenticatedIndex config identifier (some (uploadedIndex config identifier since)) =
    some (uploadedIndex config identifier since) := by
  unfold authenticatedIndex
  have describes : (uploadedIndex config identifier since).describes config identifier := by
    unfold Index.describes uploadedIndex
    simp
  dsimp only
  rw [if_pos describes]
  rfl

section Branches

variable {branches : List Branch}

theorem mem_heads : name ∈ heads branches ↔ ∃ branch ∈ branches, branch.name = name := by
  unfold heads
  rw [mem_insertionSort, mem_map]

theorem heads_nodup (named : (branches.map Branch.name).Nodup) : (heads branches).Nodup :=
  (perm_insertionSort _ _).nodup_iff.mpr named

theorem readIndex_of_mem (named : (branches.map Branch.name).Nodup) (mem : branch ∈ branches) :
  readIndex branches branch.name = branch.index := by
  unfold readIndex lookup
  rw [find_of_key named mem, Option.bind_some]

theorem lookup_eq_none_iff : lookup branches name = none ↔ ∀ branch ∈ branches, branch.name ≠ name := by
  unfold lookup
  rw [find?_eq_none]
  simp

end Branches

/-- Where every authenticated branch names one start, that start is found, unless too
many others come first or no authenticated branch is listed. -/
theorem sinceFrom_start {read : Identifier -> Option Index} (names : List Identifier) (unverified : ℕ)
  (start : ∀ name index, name ∈ names -> authenticatedIndex config name (read name) = some index ->
    index.authenticatedSince = some first /\ isPlausible first now /\ snapshotOrder first <= snapshotOrder name) :
  sinceFrom config now read names unverified none = .ok (some first) \/
    sinceFrom config now read names unverified none = .error .tooManyUnverified \/
    (sinceFrom config now read names unverified none = .ok none /\
      ∀ name ∈ names, authenticatedIndex config name (read name) = none) := by
  induction names generalizing unverified with
  | nil => exact .inr (.inr ⟨rfl, forall_mem_nil _⟩)
  | cons name rest ih =>
    unfold sinceFrom
    cases found : authenticatedIndex config name (read name) with
    | none =>
      dsimp only
      split
      · exact .inr (.inl rfl)
      · have restStart := fun other index mem => start other index (mem_cons_of_mem name mem)
        rcases ih (unverified + 1) restStart with told | tooMany | ⟨none, absent⟩
        · exact .inl told
        · exact .inr (.inl tooMany)
        · refine .inr (.inr ⟨none, ?_⟩)
          intro other mem
          rcases mem_cons.mp mem with here | later
          · rw [here]
            exact found
          · exact absent other later
    | some index =>
      rcases start name index (.head _) found with ⟨since, dated, before⟩
      dsimp only
      rw [since, Option.filter_some, dated, decide_eq_true before]
      exact .inl rfl

theorem authenticatedSince_start (named : (branches.map Branch.name).Nodup)
  (start : ∀ branch index, branch ∈ branches -> authenticatedIndex config branch.name branch.index = some index ->
    index.authenticatedSince = some first)
  (before : ∀ branch ∈ branches, branch.Own config -> isPlausible branch.name now ->
    isPlausible first now /\ snapshotOrder first <= snapshotOrder branch.name) :
  authenticatedSince config now branches = .ok (some first) \/
    authenticatedSince config now branches = .error .tooManyUnverified \/
    (authenticatedSince config now branches = .ok none /\
      ∀ branch ∈ branches, branch.Own config -> isPlausible branch.name now = false) := by
  have listed : ∀ name index, name ∈ newestFirst (heads branches) now ->
      authenticatedIndex config name (readIndex branches name) = some index ->
      index.authenticatedSince = some first /\ isPlausible first now /\ snapshotOrder first <= snapshotOrder name := by
    intro _ index mem own
    rcases mem_newestFirst.mp mem with ⟨inHeads, dated⟩
    rcases mem_heads.mp inHeads with ⟨branch, branchMember, rfl⟩
    rw [readIndex_of_mem named branchMember] at own
    have order := before branch branchMember (own_iff.mpr ⟨index, own⟩) dated
    exact ⟨start branch index branchMember own, order.1, order.2⟩
  rcases sinceFrom_start (newestFirst (heads branches) now) 0 listed with told | tooMany | ⟨none, absent⟩
  · exact .inl told
  · exact .inr (.inl tooMany)
  · refine .inr (.inr ⟨none, ?_⟩)
    intro branch mem own
    by_contra dated
    have inNewest := mem_newestFirst.mpr ⟨mem_heads.mpr ⟨branch, mem, rfl⟩, not_eq_false _ ▸ dated⟩
    have unread := absent branch.name inNewest
    rw [readIndex_of_mem named mem] at unread
    rcases own_iff.mp own with ⟨_, found⟩
    rw [found] at unread
    cases unread

/-- What was read of the branches: the own ones are still there, and there is no other
own branch than the one pushed since. -/
structure Reads (config : Config) (old branches : List Branch) (pushed : Option Identifier) : Prop where
  named : (old.map Branch.name).Nodup
  still : ∀ branch ∈ old, branch.Own config -> branch ∈ branches /\ some branch.name ≠ pushed
  all : ∀ branch ∈ branches, branch.Own config -> branch ∈ old \/ some branch.name = pushed

namespace Reads

variable {config : Config} {old branches : List Branch} {pushed : Option Identifier}

theorem stillAuthenticated_iff (reads : Reads config old branches pushed) :
  stillAuthenticated config old branches name ↔ ∃ branch ∈ old, branch.name = name /\ branch.Own config := by
  unfold stillAuthenticated
  constructor
  · intro counted
    cases found : lookup old name with
    | none =>
      rw [found] at counted
      cases counted
    | some branch =>
      rw [found] at counted
      rcases of_find_key found with ⟨mem, rfl⟩
      rw [and_eq_true] at counted
      exact ⟨branch, mem, rfl, counted.2⟩
  · rintro ⟨branch, mem, rfl, own⟩
    have found : lookup old branch.name = some branch := find_of_key reads.named mem
    rw [found]
    rw [and_eq_true]
    exact ⟨decide_eq_true (reads.still branch mem own).1, own⟩

variable {keep now : ℕ} {failure : Identifier -> Option String} {lost : Identifier -> Bool}

theorem mem_pruned (mem : branch ∈ branches)
  (kept : branch ∉ old \/ branch.name ∉ (prune (heads old) keep now (stillAuthenticated config old branches) failure).asked) :
  branch ∈ pruned config keep now failure lost old branches := by
  refine mem_deleteWhere.mpr ⟨mem, ?_⟩
  rw [and_eq_true, and_eq_true, decide_eq_true_eq, decide_eq_true_eq]
  rintro ⟨⟨read, asked⟩, _⟩
  exact kept.elim (· read) (· asked)

theorem newest_kept (reads : Reads config old branches pushed) (positive : 1 <= keep) (mem : branch ∈ branches)
  (own : branch.Own config) (newest : ∀ other ∈ old, other.Own config -> other.name ≠ branch.name ->
    snapshotOrder other.name < snapshotOrder branch.name) :
  branch ∈ pruned config keep now failure lost old branches := by
  rcases reads.all branch mem own with read | isPushed
  · refine mem_pruned mem (.inr ?_)
    intro asked
    rcases prune_counted _ _ _ _ _ _ asked with ⟨_, _, split, enough⟩
    have nodup : (newestFirst (heads old) now).Nodup := descending_nodup.mpr ((heads_nodup reads.named).filter _)
    have ordered := descending_pairwise snapshotOrder ((heads old).filter (isPlausible · now))
    change (newestFirst (heads old) now).Pairwise _ at ordered
    rw [split] at nodup ordered
    rcases exists_mem_of_length_pos (Nat.lt_of_lt_of_le positive enough) with ⟨_, counted⟩
    rcases mem_filter.mp counted with ⟨earlier, isCounted⟩
    rcases reads.stillAuthenticated_iff.mp isCounted with ⟨other, otherIn, rfl, otherOwn⟩
    have apart : other.name ≠ branch.name := by
      intro same
      rw [same] at earlier
      exact (nodup_append.mp nodup).2.2 _ earlier _ (.head _) rfl
    have above := (pairwise_append.mp ordered).2.2 _ earlier _ mem_cons_self
    exact absurd (newest other otherIn otherOwn apart) (not_lt.mpr above)
  · refine mem_pruned mem (.inl ?_)
    intro read
    exact (reads.still branch read own).2 isPushed

theorem another_kept (reads : Reads config old branches pushed) {last : Identifier}
  (enough : (1 <= keep /\ pushed = some last) \/ 2 <= keep) (mem : branch ∈ branches) (own : branch.Own config)
  (another : branch.name ≠ last) :
  ∃ other ∈ pruned config keep now failure lost old branches, other.Own config /\ other.name ≠ last := by
  by_cases asked : branch.name ∈ (prune (heads old) keep now (stillAuthenticated config old branches) failure).asked
  · rcases prune_counted _ _ _ _ _ _ asked with ⟨before, after, split, counted⟩
    have retained := prune_retained (heads_nodup reads.named) keep now _ failure before after branch.name split counted
    have nodup : (newestFirst (heads old) now).Nodup := descending_nodup.mpr ((heads_nodup reads.named).filter _)
    rw [split] at nodup
    have beforeNodup := (nodup_append.mp nodup).1
    have keptNodup := beforeNodup.filter (fun other => stillAuthenticated config old branches other &&
      decide (other ∉ (prune (heads old) keep now (stillAuthenticated config old branches) failure).asked))
    revert retained keptNodup
    generalize found : before.filter (fun other => stillAuthenticated config old branches other &&
      decide (other ∉ (prune (heads old) keep now (stillAuthenticated config old branches) failure).asked)) = kept
    intro retained keptNodup
    have one : ∃ name ∈ kept, name ≠ last := by
      rcases enough with ⟨positive, isPushed⟩ | _
      · rcases exists_mem_of_length_pos (Nat.lt_of_lt_of_le positive retained) with ⟨name, inKept⟩
        refine ⟨name, inKept, ?_⟩
        rw [<- found] at inKept
        have counts := (and_eq_true _ _ ▸ (mem_filter.mp inKept).2).1
        rcases reads.stillAuthenticated_iff.mp counts with ⟨other, otherIn, rfl, otherOwn⟩
        intro same
        exact (reads.still other otherIn otherOwn).2 (isPushed ▸ congrArg some same)
      · cases kept with
        | nil =>
          rw [length_nil] at retained
          omega
        | cons first rest =>
          cases rest with
          | nil =>
            rw [length_singleton] at retained
            omega
          | cons second others =>
            by_cases same : first = last
            · refine ⟨second, mem_cons_of_mem first mem_cons_self, ?_⟩
              intro again
              exact (nodup_cons.mp keptNodup).1 (same.trans again.symm ▸ .head _)
            · exact ⟨first, mem_cons_self, same⟩
    rcases one with ⟨_, inKept, apart⟩
    rw [<- found] at inKept
    have both := and_eq_true _ _ ▸ (mem_filter.mp inKept).2
    rcases reads.stillAuthenticated_iff.mp both.1 with ⟨other, otherIn, rfl, otherOwn⟩
    exact ⟨other, mem_pruned (reads.still other otherIn otherOwn).1 (.inr (of_decide_eq_true both.2)), otherOwn, apart⟩
  · exact ⟨branch, mem_pruned mem (.inr asked), own, another⟩

end Reads

def WorkKept (config : Config) (past : List Identifier) (branches : List Branch) (clock : ℕ) : Work -> Prop
  | .idle => True
  | .uploading identifier since now old => since = past.head?.getD identifier /\ now <= clock /\
      Reads config old branches none /\ ∃ moment, snapshotTime identifier = some moment /\
        moment <= now + futureSkew + 1 /\ ∀ name ∈ past,
          ∃ time, snapshotTime name = some time /\ time < moment /\ time <= now + futureSkew
  | .uploaded identifier old => past.getLast? = some identifier /\ Reads config old branches (some identifier)
  | .pruning old => Reads config old branches none

/-- What holds of the series after the snapshots of `past` were pushed.  The last of
them is there, and another one too if there was one. -/
structure Kept (config : Config) (past : List Identifier) (series : Series) : Prop where
  named : (series.branches.map Branch.name).Nodup
  increasing : past.Pairwise (fun first second => snapshotOrder first < snapshotOrder second)
  own : ∀ branch ∈ series.branches, branch.Own config -> branch.name ∈ past
  since : ∀ branch index, branch ∈ series.branches -> authenticatedIndex config branch.name branch.index = some index ->
    index.authenticatedSince = past.head?
  newest : ∀ last, past.getLast? = some last ->
    (∃ branch ∈ series.branches, branch.Own config /\ branch.name = last) /\
      (past = [last] \/ ∃ branch ∈ series.branches, branch.Own config /\ branch.name ≠ last)
  dated : ∀ name ∈ past, ∃ moment upload, snapshotTime name = some moment /\
    series.lastUpload = some upload /\ upload <= series.clock /\ moment <= upload + futureSkew + 1 /\
      (past.getLast? = some name \/ moment <= upload + futureSkew)
  working : WorkKept config past series.branches series.clock series.work

namespace Kept

variable {config : Config} {past : List Identifier} {series : Series}

theorem before_last (kept : Kept config past series) {last : Identifier} (isLast : past.getLast? = some last)
  (mem : name ∈ past) : name = last \/ snapshotOrder name < snapshotOrder last := by
  rcases getLast?_eq_some_iff.mp isLast with ⟨_, split⟩
  have ordered := kept.increasing
  rw [split] at ordered mem
  rcases mem_snoc.mp mem with early | here
  · exact .inr ((pairwise_append.mp ordered).2.2 name early last mem_cons_self)
  · exact .inl (here)

theorem first_le (kept : Kept config past series) (isFirst : past.head? = some first) (mem : name ∈ past) :
  snapshotOrder first <= snapshotOrder name := by
  have ordered := kept.increasing
  cases past with
  | nil => cases isFirst
  | cons head rest =>
    cases isFirst
    rcases mem_cons.mp mem with here | later
    · rw [here]
    · exact ((pairwise_cons.mp ordered).1 name later).le

theorem plausible_of_le {firstTime : ℕ} (firstDate : snapshotTime first = some firstTime)
  (order : snapshotOrder first <= snapshotOrder name) (dated : isPlausible name now) : isPlausible first now := by
  rcases isPlausible_iff.mp dated with ⟨_, date, _⟩
  have earlier := (order_le_iff firstDate date).mp order
  exact isPlausible_iff.mpr ⟨firstTime, firstDate, by omega⟩

section

variable (kept : Kept config past series)
include kept

theorem since_found (now : ℕ) (named : (branches.map Branch.name).Nodup)
  (fewer : ∀ branch ∈ branches, branch ∈ series.branches) (isFirst : past.head? = some first \/ past = []) :
  authenticatedSince config now branches = .ok (some first) \/
    authenticatedSince config now branches = .error .tooManyUnverified \/
    (authenticatedSince config now branches = .ok none /\
      ∀ branch ∈ branches, branch.Own config -> isPlausible branch.name now = false) := by
  have startsWith : ∀ branch ∈ branches, branch.Own config -> past.head? = some first := by
    intro branch mem own
    rcases isFirst with starts | none
    · exact starts
    · have inHistory := kept.own branch (fewer branch mem) own
      rw [none] at inHistory
      exact absurd inHistory not_mem_nil
  apply authenticatedSince_start named
  · intro branch index mem found
    rw [<- startsWith branch mem (own_iff.mpr ⟨index, found⟩)]
    exact kept.since branch index (fewer branch mem) found
  · intro branch mem own dated
    have starts := startsWith branch mem own
    have order := kept.first_le starts (kept.own branch (fewer branch mem) own)
    rcases kept.dated first (mem_of_mem_head? (Option.mem_def.mpr starts)) with ⟨_, _, date, _⟩
    exact ⟨plausible_of_le date order dated, order⟩

theorem foreign (named : (branches.map Branch.name).Nodup)
  (same : ∀ branch, branch.Own config -> (branch ∈ branches ↔ branch ∈ series.branches)) :
  Kept config past { series with branches } where
  named := named
  increasing := kept.increasing
  own := fun branch mem own => kept.own branch ((same branch own).mp mem) own
  since := fun branch index mem found => kept.since branch index ((same branch (own_iff.mpr ⟨index, found⟩)).mp mem) found
  newest := by
    intro last isLast
    rcases kept.newest last isLast with ⟨⟨branch, mem, own, isNamed⟩, another⟩
    refine ⟨⟨branch, (same branch own).mpr mem, own, isNamed⟩, ?_⟩
    rcases another with one | ⟨other, otherIn, otherOwn, apart⟩
    · exact .inl one
    · exact .inr ⟨other, (same other otherOwn).mpr otherIn, otherOwn, apart⟩
  dated := kept.dated
  working := by
    have reads : ∀ old pushed, Reads config old series.branches pushed -> Reads config old branches pushed := by
      intro old _ reads
      refine ⟨reads.named, ?_, ?_⟩
      · intro branch mem own
        exact ⟨(same branch own).mpr (reads.still branch mem own).1, (reads.still branch mem own).2⟩
      · exact fun branch mem own => reads.all branch ((same branch own).mp mem) own
    have working := kept.working
    revert working
    cases series.work with
    | idle => exact id
    | uploading identifier since now old => exact fun ⟨start, clock, read, rest⟩ => ⟨start, clock, reads _ _ read, rest⟩
    | uploaded identifier old => exact fun ⟨last, read⟩ => ⟨last, reads _ _ read⟩
    | pruning old => exact reads _ _

theorem othersRemove (isForeign : Foreign config series.branches name) :
  Kept config past { series with branches := deleteWhere (·.name = name) series.branches } := by
  refine kept.foreign (kept.named.sublist (deleteWhere_sublist.map _)) ?_
  intro branch own
  rw [mem_deleteWhere, decide_eq_true_eq]
  refine and_iff_left_of_imp ?_
  intro mem same
  exact not_own_iff.mpr (same ▸ isForeign branch mem same) own

theorem othersPush (isForeign : Foreign config series.branches branch.name)
  (unauthenticated : authenticated config branch.name branch.index = false) : Kept config past { series with
    branches := deleteWhere (·.name = branch.name) series.branches ++ [branch] } := by
  have removed := kept.othersRemove isForeign
  refine removed.foreign ?_ ?_
  · rw [map_append, map_singleton, nodup_append]
    refine ⟨removed.named, nodup_singleton _, ?_⟩
    intro _ mem other isNew same
    rw [mem_singleton.mp isNew] at same
    rcases mem_map.mp mem with ⟨_, rowMember, rfl⟩
    exact (mem_deleteWhere.mp rowMember).2 (decide_eq_true same)
  · intro _ own
    rw [mem_append, mem_singleton]
    refine or_iff_left ?_
    rintro rfl
    exact not_own_iff.mpr unauthenticated own

theorem idle {clock : ℕ} (later : series.clock <= clock) : Kept config past { series with clock, work := .idle } where
  named := kept.named
  increasing := kept.increasing
  own := kept.own
  since := kept.since
  newest := kept.newest
  dated := by
    intro name mem
    rcases kept.dated name mem with ⟨moment, upload, date, isLast, before, rest⟩
    exact ⟨moment, upload, date, isLast, before.trans later, rest⟩
  working := trivial

theorem beginPrune : Kept config past { series with work := .pruning series.branches } :=
  { kept with
    working := ⟨kept.named, fun _ mem _ => ⟨mem, Option.some_ne_none _⟩, fun _ mem _ => .inl mem⟩ }

theorem beginUpload {later suffix : ℕ} (free : series.work = .idle) (clock : series.clock <= now) (order : now <= later)
  (reads : readsLater true series.lastUpload now) : Kept config past (beginUpload config now later suffix series) := by
  have below : ∀ name ∈ past, ∃ time, snapshotTime name = some time /\ time <= now + futureSkew := by
    intro name mem
    rcases kept.dated name mem with ⟨moment, _, date, isLast, _, within, _⟩
    unfold readsLater at reads
    rw [isLast] at reads
    dsimp only at reads
    rw [if_pos rfl, decide_eq_true_eq] at reads
    exact ⟨moment, date, by omega⟩
  have idle := kept.idle (clock.trans order)
  unfold Backups.beginUpload
  have begins : past.head? = some (past.head?.getD (nextSnapshot (heads series.branches) now suffix)) \/ past = [] := by
    cases past with
    | nil => exact .inr rfl
    | cons head rest => exact .inl rfl
  have found := kept.since_found later kept.named (fun _ mem => mem) begins
  have started : ∀ since, authenticatedSince config later series.branches = .ok since ->
      since.getD (nextSnapshot (heads series.branches) now suffix) =
        past.head?.getD (nextSnapshot (heads series.branches) now suffix) := by
    intro since told
    rcases found with some | tooMany | ⟨none, absent⟩
    · rw [some] at told
      cases told
      rfl
    · rw [tooMany] at told
      cases told
    · rw [none] at told
      cases told
      cases ended : past.getLast? with
      | none =>
        rw [getLast?_eq_none_iff.mp ended]
        rfl
      | some last =>
        rcases (kept.newest last ended).1 with ⟨branch, mem, own, isNamed⟩
        rcases below last (mem_of_getLast? ended) with ⟨time, date, within⟩
        have dated : isPlausible branch.name later := by
          rw [isNamed]
          exact isPlausible_iff.mpr ⟨time, date, by omega⟩
        exact absurd ((absent branch mem own).symm.trans dated) false_ne_true
  cases told : authenticatedSince config later series.branches with
  | error refusal =>
    refine { idle with working := ?_ }
    rw [free]
    exact trivial
  | ok since =>
    rcases nextSnapshot_time (heads series.branches) now suffix with ⟨moment, date, _, within, above⟩
    refine { idle with
      working := ⟨started since told, order, ⟨kept.named, fun _ mem _ => ⟨mem, Option.some_ne_none _⟩,
        fun _ mem _ => .inl mem⟩, moment, date, within, ?_⟩ }
    intro name mem
    rcases below name mem with ⟨time, nameDate, timeWithin⟩
    refine ⟨time, nameDate, ?_, timeWithin⟩
    have isLast := getLast?_eq_some_getLast (ne_nil_of_mem mem)
    generalize past.getLast (ne_nil_of_mem mem) = last at isLast
    rcases (kept.newest last isLast).1 with ⟨branch, branchMember, _, isNamed⟩
    rcases below last (mem_of_getLast? isLast) with ⟨lastTime, lastDate, lastWithin⟩
    have newest := above last lastTime (mem_heads.mpr ⟨branch, branchMember, isNamed⟩)
      (isPlausible_iff.mpr ⟨lastTime, lastDate, lastWithin⟩) lastDate
    rcases kept.before_last isLast mem with same | earlier
    · rw [same, lastDate] at nameDate
      cases nameDate
      exact newest
    · exact Nat.lt_of_le_of_lt ((order_le_iff nameDate lastDate).mp earlier.le) newest

theorem pushed {identifier since : Identifier} {old : List Branch} (commit : ℕ)
  (working : series.work = .uploading identifier since now old) (free : lookup series.branches identifier = none) :
  Kept config (past ++ [identifier])
    { series with
      branches := series.branches ++ [{ name := identifier, commit, index := some (uploadedIndex config identifier since) }],
      work := .uploaded identifier old, lastUpload := some now } := by
  have works := kept.working
  rw [working] at works
  rcases works with ⟨starts, clock, reads, moment, date, within, above⟩
  have unnamed := lookup_eq_none_iff.mp free
  have made := authenticatedIndex_uploaded config identifier since
  have split : ∀ branch, branch ∈ series.branches ++
      [{ name := identifier, commit, index := some (uploadedIndex config identifier since) }] ->
      branch ∈ series.branches \/
        branch = { name := identifier, commit, index := some (uploadedIndex config identifier since) } := by
    intro branch mem
    exact (mem_append.mp mem).imp_right mem_singleton.mp
  have isNew : ({ name := identifier, commit, index := some (uploadedIndex config identifier since) } : Branch) ∈
      series.branches ++ [{ name := identifier, commit, index := some (uploadedIndex config identifier since) }] :=
    mem_append_right _ (mem_singleton.mpr rfl)
  have last : (past ++ [identifier]).getLast? = some identifier := getLast?_concat
  refine ⟨?_, ?_, ?_, ?_, ?_, ?_, last, reads.named, ?_, ?_⟩
  · rw [map_append, map_singleton, nodup_append]
    refine ⟨kept.named, nodup_singleton _, ?_⟩
    intro name mem other inNew same
    rw [mem_singleton.mp inNew] at same
    rcases mem_map.mp mem with ⟨branch, branchMember, isNamed⟩
    exact unnamed branch branchMember (isNamed.trans same)
  · rw [pairwise_append]
    refine ⟨kept.increasing, pairwise_singleton _ _, ?_⟩
    intro name mem other inNew
    rw [mem_singleton.mp inNew]
    rcases above name mem with ⟨time, nameDate, earlier, _⟩
    refine not_le.mp ?_
    intro order
    exact absurd ((order_le_iff date nameDate).mp order) (Nat.not_le_of_lt earlier)
  · intro branch mem own
    rcases split branch mem with before | here
    · exact mem_append_left _ (kept.own branch before own)
    · rw [here]
      exact mem_append_right _ (mem_singleton.mpr rfl)
  · intro branch index mem found
    rcases split branch mem with before | here
    · have inHistory := kept.own branch before (own_iff.mpr ⟨index, found⟩)
      rw [kept.since branch index before found, head?_append_of_ne_nil _ (ne_nil_of_mem inHistory)]
    · rw [here] at found
      rw [made] at found
      cases found
      rw [starts]
      cases past with
      | nil | cons head rest => rfl
  · intro _ isLast
    rw [last] at isLast
    cases isLast
    refine ⟨⟨_, isNew, own_iff.mpr ⟨_, made⟩, rfl⟩, ?_⟩
    cases ended : past.getLast? with
    | none =>
      rw [getLast?_eq_none_iff.mp ended]
      exact .inl rfl
    | some before =>
      rcases (kept.newest before ended).1 with ⟨branch, mem, own, _⟩
      exact .inr ⟨branch, mem_append_left _ mem, own, unnamed branch mem⟩
  · intro name mem
    rcases mem_snoc.mp mem with early | here
    · rcases above name early with ⟨time, nameDate, _, timeWithin⟩
      exact ⟨time, now, nameDate, rfl, clock, by omega, .inr timeWithin⟩
    · rw [here]
      exact ⟨moment, now, date, rfl, clock, within, .inl last⟩
  · intro branch mem own
    have there := (reads.still branch mem own).1
    refine ⟨mem_append_left _ there, ?_⟩
    intro same
    exact unnamed branch there (Option.some.inj same)
  · intro branch mem own
    rcases split branch mem with before | here
    · refine .inl ((reads.all branch before own).resolve_right ?_)
      exact Option.some_ne_none _
    · rw [here]
      exact .inr rfl

theorem retained {old : List Branch} {pushed : Option Identifier} {keep : ℕ}
  {failure : Identifier -> Option String} {lost : Identifier -> Bool} (reads : Reads config old series.branches pushed)
  (enough : (1 <= keep /\ pushed = past.getLast?) \/ 2 <= keep) (later : series.clock <= now) :
  Kept config past { series with
    clock := now, work := .idle, branches := pruned config keep now failure lost old series.branches } := by
  have fewer : ∀ branch ∈ pruned config keep now failure lost old series.branches, branch ∈ series.branches :=
    fun branch mem => (mem_deleteWhere.mp mem).1
  refine ⟨kept.named.sublist (deleteWhere_sublist.map _), kept.increasing, ?_, ?_, ?_, (kept.idle later).dated, trivial⟩
  · exact fun branch mem own => kept.own branch (fewer branch mem) own
  · exact fun branch index mem found => kept.since branch index (fewer branch mem) found
  · intro last isLast
    rcases kept.newest last isLast with ⟨⟨branch, mem, own, isNamed⟩, another⟩
    refine ⟨⟨branch, ?_, own, isNamed⟩, ?_⟩
    · refine reads.newest_kept (by omega) mem own ?_
      intro other otherIn otherOwn apart
      have inHistory := kept.own other (reads.still other otherIn otherOwn).1 otherOwn
      rw [isNamed] at apart ⊢
      exact (kept.before_last isLast inHistory).resolve_left apart
    · rcases another with one | ⟨_, otherIn, otherOwn, apart⟩
      · exact .inl one
      · refine .inr (reads.another_kept ?_ otherIn otherOwn apart)
        rw [isLast] at enough
        exact enough

end

end Kept

theorem kept_push (kept : Kept config past series) (commit : ℕ) :
  Kept config (past ++ snapshotPushed series (.push commit)) (push config commit series) := by
  have still : Kept config (past ++ []) series := by
    rw [append_nil]
    exact kept
  unfold snapshotPushed push
  cases working : series.work with
  | uploading identifier since now old =>
    dsimp only
    cases free : lookup series.branches identifier with
    | some branch =>
      rw [append_nil]
      exact kept.idle (Nat.le_refl _)
    | none => exact kept.pushed commit working free
  | _ => exact still

theorem kept_finish (kept : Kept config past series) {keep : ℕ} (appendOnly : Bool)
  (failure : Identifier -> Option String) (lost : Identifier -> Bool) (later : series.clock <= now) (enough : 2 <= keep) :
  Kept config past (finishWork config keep now appendOnly failure lost series) := by
  have works := kept.working
  unfold finishWork
  cases working : series.work with
  | idle | uploading identifier since now old => exact kept
  | pruning old =>
    rw [working] at works
    exact kept.retained works (.inr enough) later
  | uploaded identifier old =>
    rw [working] at works
    cases appendOnly with
    | true => exact kept.idle later
    | false => exact kept.retained works.2 (.inl ⟨by omega, works.1.symm⟩) later

theorem kept_of_trace (trace : (repository true config).Trace snapshotPushed past series) :
  Kept config past series := by
  refine trace.induct ?_ ?_
  · intro series isInitial
    rcases isInitial with ⟨named, idle, _, foreign⟩
    have none : ∀ branch ∈ series.branches, ¬ branch.Own config :=
      fun branch mem => not_own_iff.mpr (foreign branch mem)
    refine ⟨named, List.Pairwise.nil, ?_, ?_, ?_, ?_, ?_⟩
    · exact fun branch mem own => absurd own (none branch mem)
    · exact fun branch index mem found => absurd (own_iff.mpr ⟨index, found⟩) (none branch mem)
    · exact fun last isLast => nomatch isLast
    · exact fun name mem => absurd mem not_mem_nil
    · rw [idle]
      exact trivial
  · intro _ series action kept enabled
    cases action with
    | push commit => exact kept_push kept commit
    | beginUpload now later suffix =>
      rw [show snapshotPushed series (.beginUpload now later suffix) = [] from rfl, append_nil]
      exact kept.beginUpload enabled.1 enabled.2.1 enabled.2.2.1 enabled.2.2.2
    | beginPrune =>
      rw [show snapshotPushed series .beginPrune = [] from rfl, append_nil]
      exact kept.beginPrune
    | finish keep now appendOnly failure lost =>
      rw [show snapshotPushed series (.finish keep now appendOnly failure lost) = [] from rfl, append_nil]
      exact kept_finish kept appendOnly failure lost enabled.1 enabled.2
    | abandon =>
      rw [show snapshotPushed series .abandon = [] from rfl, append_nil]
      exact kept.idle (Nat.le_refl _)
    | othersPush branch =>
      rw [show snapshotPushed series (.othersPush branch) = [] from rfl, append_nil]
      exact kept.othersPush enabled.1 enabled.2
    | othersRemove name =>
      rw [show snapshotPushed series (.othersRemove name) = [] from rfl, append_nil]
      exact kept.othersRemove enabled

theorem download_refused (kept : Kept config past series) {identifier : Identifier} {later : ℕ}
  (isFirst : past.head? = some first) (clock : series.clock <= now) (order : now <= later)
  (isForeign : Foreign config series.branches identifier)
  (notBefore : isPlausible identifier now = false \/ snapshotOrder first <= snapshotOrder identifier) :
  ∃ refusal, download config identifier true now later series.branches = .error refusal := by
  have refused : ∃ refusal, refuseDowngrade config identifier now later series.branches = some refusal := by
    unfold refuseDowngrade
    by_cases dated : isPlausible identifier now
    · rw [if_pos dated]
      have after := notBefore.resolve_left (by rw [dated]; exact Bool.noConfusion)
      rcases isPlausible_iff.mp dated with ⟨_, date, _⟩
      rcases kept.dated first (mem_of_mem_head? (Option.mem_def.mpr isFirst)) with
        ⟨moment, upload, firstDate, isLast, before, bound, _⟩
      have ordered := (order_le_iff firstDate date).mp after
      have named := kept.named.sublist ((@Rows.deleteWhere_sublist _ (fun branch : Branch => decide (branch.name = identifier))
        series.branches).map Branch.name)
      rcases kept.since_found later named (fun branch mem => (mem_deleteWhere.mp mem).1) (.inl isFirst) with
        told | tooMany | ⟨_, absent⟩
      · rw [told]
        dsimp only
        rw [firstDate, date, Option.getD_some, Option.getD_some, if_pos ordered]
        exact ⟨_, rfl⟩
      · rw [tooMany]
        exact ⟨_, rfl⟩
      · -- Some own branch is plausible: one before the last, or the first itself, which is no later than the snapshot.
        exfalso
        have visible : ∀ branch ∈ series.branches, branch.Own config -> isPlausible branch.name later = false := by
          intro branch mem own
          refine absent branch (mem_deleteWhere.mpr ⟨mem, ?_⟩) own
          rw [decide_eq_true_eq]
          exact fun same => not_own_iff.mpr (same ▸ isForeign branch mem same) own
        have isEnd := getLast?_eq_some_getLast (ne_nil_of_mem (mem_of_mem_head? (Option.mem_def.mpr isFirst)))
        generalize past.getLast _ = last at isEnd
        rcases kept.newest last isEnd with ⟨⟨branch, mem, own, isNamed⟩, one | ⟨other, otherIn, otherOwn, apart⟩⟩
        · rw [one] at isFirst
          cases isFirst
          have hidden := visible branch mem own
          rw [isNamed] at hidden
          exact false_ne_true (hidden.symm.trans (isPlausible_iff.mpr ⟨moment, firstDate, by omega⟩))
        · have hidden := visible other otherIn otherOwn
          rcases kept.dated other.name (kept.own other otherIn otherOwn) with
            ⟨otherTime, otherUpload, otherDate, otherLast, otherBefore, _, isLastName | otherWithin⟩
          · rw [isEnd] at isLastName
            exact apart (Option.some.inj isLastName).symm
          · exact false_ne_true (hidden.symm.trans (isPlausible_iff.mpr ⟨otherTime, otherDate, by omega⟩))
    · rw [if_neg dated]
      exact ⟨_, rfl⟩
  rcases refused with ⟨_, refusedWith⟩
  unfold download
  cases found : lookup series.branches identifier with
  | none => exact ⟨_, rfl⟩
  | some branch =>
    rcases of_find_key found with ⟨mem, isNamed⟩
    dsimp only
    cases read : branch.index with
    | none => exact ⟨_, rfl⟩
    | some index =>
      dsimp only
      split
      · rename_i describes
        have unauthenticated := isForeign branch mem isNamed
        rw [read] at unauthenticated
        unfold authenticated authenticatedIndex at unauthenticated
        dsimp only at unauthenticated
        rw [if_pos describes] at unauthenticated
        unfold checkAuthentication at unauthenticated ⊢
        cases tag : index.tag with
        | valid =>
          rw [tag] at unauthenticated
          cases unauthenticated
        | missing =>
          rw [if_pos rfl]
          dsimp only
          rw [refusedWith]
          exact ⟨_, rfl⟩
        | invalid => exact ⟨_, rfl⟩
      · exact ⟨_, rfl⟩

/--
Whatever others push and remove, and whenever the server uploads and prunes, its clock going on from upload to
upload: the identifiers of uploads grow, each above every plausible one there is.
-/
theorem series_not_downgraded {config : Config} {past : List Identifier} {series : Series}
  (trace : (repository true config).Trace snapshotPushed past series) :
  past.Pairwise (fun first second => snapshotOrder first < snapshotOrder second) /\
    (∀ now suffix, ∀ branch ∈ series.branches, isPlausible branch.name now ->
      snapshotOrder branch.name < snapshotOrder (nextSnapshot (heads series.branches) now suffix)) /\
    (∀ branch index, branch ∈ series.branches -> authenticatedIndex config branch.name branch.index = some index ->
      index.authenticatedSince = past.head?) /\
    ∀ first identifier now later, past.head? = some first -> series.clock <= now -> now <= later ->
      Foreign config series.branches identifier ->
      (isPlausible identifier now = false \/ snapshotOrder first <= snapshotOrder identifier) ->
        ∃ refusal, download config identifier true now later series.branches = .error refusal := by
  have kept := kept_of_trace trace
  refine ⟨kept.increasing, ?_, kept.since, ?_⟩
  · intro now suffix branch mem dated
    rcases isPlausible_iff.mp dated with ⟨time, date, _⟩
    rcases nextSnapshot_time (heads series.branches) now suffix with ⟨moment, nextDate, _, _, above⟩
    have earlier := above branch.name time (mem_heads.mpr ⟨branch, mem, rfl⟩) dated date
    refine not_le.mp ?_
    intro order
    exact absurd ((order_le_iff nextDate date).mp order) (Nat.not_le_of_lt earlier)
  · intro first identifier now later isFirst clock order isForeign notBefore
    exact download_refused kept isFirst clock order isForeign notBefore

def dailyConfig : Config := { product := "BananaChat", name := "daily" }

def noon : ℕ := Stamp.moment ⟨2026, 5, 1, 12, 0, 0, 0⟩

def aheadSeries : Series :=
  { branches := [{ name := written (noon + futureSkew) 1, commit := 1, index := none }], work := .idle, clock := noon,
    lastUpload := none }

def twoUploads (second : ℕ) : List Action :=
  [.beginUpload noon noon 2, .push 2, .finish 7 noon false (fun _ => none) (fun _ => false),
    .beginUpload second second 3, .push 3, .finish 7 second false (fun _ => none) fun _ => false]

theorem aheadSeries_initial (strictly : Bool) : (repository strictly dailyConfig).initial aheadSeries := by
  refine ⟨nodup_singleton _, rfl, rfl, ?_⟩
  intro _ mem
  rw [mem_singleton.mp mem]
  rfl

def forged : Branch :=
  { name := written (noon + futureSkew + 7) 4, commit := 4,
    index := some { uploadedIndex dailyConfig (written (noon + futureSkew + 7) 4) (written (noon + futureSkew + 7) 4) with
      tag := .missing } }

/-- An hour later the second upload comes after the first, and then a forgery is pushed:
two days later it is not restored. -/
theorem series_not_downgraded_forged : ∃ past series, (repository true dailyConfig).Trace snapshotPushed past series /\
    past = [written (noon + futureSkew + 1) 2, written (noon + futureSkew + 2) 3] /\ forged ∈ series.branches /\
    past.Pairwise (fun first second => snapshotOrder first < snapshotOrder second) /\
    ∃ refusal, download dailyConfig forged.name true (noon + 2 * futureSkew) (noon + 2 * futureSkew) series.branches =
      .error refusal := by
  have admitted : (repository true dailyConfig).Admits aheadSeries (twoUploads (noon + 3600000000) ++ [.othersPush forged]) := by
    refine ⟨?_, trivial, ?_, ?_, trivial, ?_, ?_, trivial⟩
    · exact ⟨by decide +kernel, by decide +kernel, by decide +kernel, by decide +kernel⟩
    · exact ⟨by decide +kernel, by decide +kernel⟩
    · exact ⟨by decide +kernel, by decide +kernel, by decide +kernel, by decide +kernel⟩
    · exact ⟨by decide +kernel, by decide +kernel⟩
    · exact ⟨by decide +kernel, by decide +kernel⟩
  have trace := (@Machine.Trace.start _ _ _ _ snapshotPushed _ (aheadSeries_initial true)).run _ admitted
  rw [show [] ++ (repository true dailyConfig).reports snapshotPushed aheadSeries
      (twoUploads (noon + 3600000000) ++ [.othersPush forged]) =
        [written (noon + futureSkew + 1) 2, written (noon + futureSkew + 2) 3] by decide +kernel] at trace
  have protects := series_not_downgraded trace
  refine ⟨_, _, trace, rfl, by decide +kernel, protects.1, ?_⟩
  exact protects.2.2.2 _ _ _ _ rfl (by decide +kernel) (Nat.le_refl _) (by decide +kernel) (.inr (by decide +kernel))

/-- Two uploads that read the clock in the same microsecond make names of the same moment,
and each takes itself for the start of the series. -/
theorem series_tied : ∃ past series, (repository false dailyConfig).Trace snapshotPushed past series /\
    ¬ past.Pairwise (fun first second => snapshotOrder first < snapshotOrder second) /\
    ∃ branch index, branch ∈ series.branches /\
      authenticatedIndex dailyConfig branch.name branch.index = some index /\ index.authenticatedSince ≠ past.head? := by
  have admitted : (repository false dailyConfig).Admits aheadSeries (twoUploads noon) := by
    refine ⟨?_, trivial, ?_, ?_, trivial, ?_, trivial⟩
    · exact ⟨by decide +kernel, by decide +kernel, by decide +kernel, by decide +kernel⟩
    · exact ⟨by decide +kernel, by decide +kernel⟩
    · exact ⟨by decide +kernel, by decide +kernel, by decide +kernel, by decide +kernel⟩
    · exact ⟨by decide +kernel, by decide +kernel⟩
  have trace := (@Machine.Trace.start _ _ _ _ snapshotPushed _ (aheadSeries_initial false)).run _ admitted
  refine ⟨_, _, trace, by decide +kernel, ?_⟩
  let second := written (noon + futureSkew + 1) 3
  exact ⟨{ name := second, commit := 3, index := some (uploadedIndex dailyConfig second second) },
    uploadedIndex dailyConfig second second, by decide +kernel, by decide +kernel, by decide +kernel⟩

end BananaChat.Backups

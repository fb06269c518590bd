import BananaChat.Foundation.Numbered
import BananaChat.Storage.Upgrades

namespace BananaChat.Storage

universe u

open Foundation List Bool Numbered

/-!
# Interrupted upgrades resume

The database changes only by whole migrations, each committed with its number: that is the abstract
upgrade.
-/

variable {Data : Type u} (schema : Schema Data)

def upgrade : List (Data -> Data × Bool) -> Data -> Option Data
  | [], data => some data
  | migration :: rest, data =>
    if (migration data).2 = false /\ schema.sound (migration data).1 then upgrade rest (migration data).1 else none

theorem upgrade_append (first rest : List (Data -> Data × Bool)) (data : Data) :
  upgrade schema (first ++ rest) data = (upgrade schema first data).bind (upgrade schema rest) := by
  induction first generalizing data with
  | nil => rfl
  | cons migration first ih =>
    simp only [cons_append, upgrade]
    split
    · exact ih _
    · rfl

def Foreign (database : Database Data) : Prop :=
  (database.identity ≠ 0 /\ database.identity ≠ schema.applicationId) \/ database.version < 0 \/
    schema.migrations.length < database.version \/ (database.version ≠ 0 /\ database.identity ≠ schema.applicationId)

def Behind (database : Database Data) (index : ℕ) : Prop := pending schema database.identity database.version = .ok index

variable {schema}

variable {database : Database Data} {index : ℕ} {disk : Disk Data} {session : Session Data} {process : Process Data}

theorem behind_iff : Behind schema database index ↔ ¬ Foreign schema database /\ database.version = index := by
  unfold Behind pending Foreign
  constructor
  · intro isPending
    split at isPending
    · cases isPending
    · split at isPending
      · cases isPending
      · split at isPending
        · cases isPending
        · rename_i own known named
          cases isPending
          refine ⟨?_, ?_⟩
          · rintro (other | below | above | unnamed)
            · exact own other
            · omega
            · omega
            · exact named unnamed
          · omega
  · rintro ⟨ours, isVersion⟩
    have own : ¬ (database.identity ≠ 0 /\ database.identity ≠ schema.applicationId) := fun other => ours (.inl other)
    have known : ¬ ¬ (0 <= database.version /\ database.version <= schema.migrations.length) := by
      intro _
      apply ours
      omega
    have named : ¬ (database.version ≠ 0 /\ database.identity ≠ schema.applicationId) :=
      fun unnamed => ours (.inr (.inr (.inr unnamed)))
    rw [if_neg own, if_neg known, if_neg named, isVersion]
    rfl

theorem Behind.eq {other : ℕ} (behind : Behind schema database index) (also : Behind schema database other) :
  index = other := by
  have same := (behind_iff.mp behind).2.symm.trans (behind_iff.mp also).2
  exact Int.ofNat.inj same

theorem Behind.le (behind : Behind schema database index) : index <= schema.migrations.length := by
  rcases behind_iff.mp behind with ⟨ours, _⟩
  by_contra beyond
  apply ours
  refine .inr (.inr (.inl ?_))
  omega

theorem behind_of_version {data : Data} (known : index <= schema.migrations.length) :
  Behind schema ⟨data, index, schema.applicationId⟩ index := by
  rw [behind_iff]
  refine ⟨?_, rfl⟩
  rintro (other | below | above | unnamed)
  · exact other.2 rfl
  · dsimp only at below
    omega
  · dsimp only at above
    omega
  · exact unnamed.2 rfl

variable (schema) in
def Commits (index : ℕ) (before after : Database Data) : Prop :=
  Behind schema before index /\ ∃ migration, schema.migrations[index]? = some migration /\
    (migration before.data).2 = false /\ schema.sound (migration before.data).1 /\
      after = ⟨(migration before.data).1, index + 1, schema.applicationId⟩

variable (schema) in
inductive Upgraded (first : Database Data) : Database Data -> List ℕ -> Prop
  | same : Upgraded first first []
  | commit {before after : Database Data} {applied : List ℕ} {index : ℕ} :
      Upgraded first before applied -> Commits schema index before after -> Upgraded first after (applied ++ [index])

variable {before after : Database Data}

theorem Commits.behind (commits : Commits schema index before after) :
  index < schema.migrations.length /\ Behind schema after (index + 1) := by
  rcases commits with ⟨_, _, isMigration, _, _, isAfter⟩
  have inside := (List.getElem?_eq_some_iff.mp isMigration).1
  refine ⟨inside, ?_⟩
  rw [isAfter]
  exact behind_of_version inside

variable {first : Database Data} {applied : List ℕ}

theorem Upgraded.foreign (upgraded : Upgraded schema first database applied)
  (foreign : Foreign schema first) : database = first /\ applied = [] := by
  induction upgraded with
  | same => exact ⟨rfl, rfl⟩
  | commit _ commits ih =>
    rw [ih.1] at commits
    exact absurd foreign (behind_iff.mp commits.1).1

theorem Upgraded.resumes (upgraded : Upgraded schema first database applied)
  (behind : Behind schema first index) : ∃ count, index <= count /\ Behind schema database count /\
    applied = range' index (count - index) /\
    upgrade schema ((schema.migrations.take count).drop index) first.data = some database.data := by
  induction upgraded with
  | same =>
    refine ⟨index, Nat.le_refl _, behind, ?_, ?_⟩
    · rw [Nat.sub_self]
      rfl
    · rw [drop_eq_nil_of_le (length_take_le _ _)]
      rfl
  | commit _ commits ih =>
    rcases ih with ⟨count, atLeast, behindCount, isApplied, isData⟩
    rcases commits.behind with ⟨inside, after⟩
    rcases commits with ⟨behindIndex, _, isMigration, well, sound, isAfter⟩
    have same := behindIndex.eq behindCount
    rw [same] at isMigration after isAfter inside
    refine ⟨count + 1, Nat.le_succ_of_le atLeast, after, ?_, ?_⟩
    · rw [same, isApplied, Nat.succ_sub atLeast, range'_concat, Nat.one_mul, Nat.add_sub_cancel' atLeast]
    · have covers : index <= (schema.migrations.take count).length := by
        rw [length_take, Nat.min_eq_left (Nat.le_of_lt inside)]
        exact atLeast
      rw [take_add_one, isMigration, Option.toList_some, drop_append_of_le_length covers, upgrade_append, isData,
        isAfter]
      exact if_pos ⟨well, sound⟩

variable (schema) in
def Migrated (database : Database Data) (session : Session Data) (index : ℕ) (version identity : ℤ) : Prop :=
  Behind schema database index /\ ∃ migration, schema.migrations[index]? = some migration /\
    (migration database.data).2 = false /\ session.work = some ⟨(migration database.data).1, version, identity⟩

variable (schema) in
def Complete (database : Database Data) : Prop := Behind schema database schema.migrations.length

variable (schema) in
def StageFine (database : Database Data) (session : Session Data) : Stage -> Prop
  | .tuning | .restoring => session.work = none
  | .identifying => session.foreignKeys = true /\ session.work = none
  | .reading identity => session.foreignKeys = true /\ session.work = none /\ identity = database.identity
  | .disabling index => session.foreignKeys = true /\ session.work = none /\ Behind schema database index
  | .beginning index => session.work = none /\ Behind schema database index
  | .migrating index => session.work = some database /\ Behind schema database index
  | .naming index => Migrated schema database session index database.version database.identity
  | .numbering index => Migrated schema database session index database.version schema.applicationId
  | .verifying index => Migrated schema database session index (index + 1) schema.applicationId
  | .committing index => Migrated schema database session index (index + 1) schema.applicationId /\
      ∀ work, session.work = some work -> schema.sound work.data
  | .enabling index => session.work = none /\ Behind schema database (index + 1)
  | .closing failed => session.foreignKeys = true /\ (failed = false -> Complete schema database)
  | .rechecking | .marking | .syncing => Complete schema database
  | .releasing failed | .ended failed => failed = false -> Complete schema database
  | .waiting | .checking | .opening | .journaling | .undoing | .killed => True

variable (schema) in
structure Goes (disk : Disk Data) (result : Disk Data × Process Data) : Prop where
  fine : StageFine schema result.1.database result.2.session result.2.stage
  database : (result.1.database = disk.database /\ result.1.applied = disk.applied) \/
    ∃ index, Commits schema index disk.database result.1.database /\ result.1.applied = disk.applied ++ [index]

theorem goes_on {result : Disk Data × Process Data}
  (same : result.1.database = disk.database /\ result.1.applied = disk.applied)
  (fine : StageFine schema disk.database result.2.session result.2.stage) : Goes schema disk result := by
  refine ⟨?_, .inl same⟩
  rw [same.1]
  exact fine

theorem setForeignKeys_closed (closed : session.work = none) (enforced : Bool) :
  (session.setForeignKeys enforced).foreignKeys = enforced /\ (session.setForeignKeys enforced).work = none := by
  unfold Session.setForeignKeys
  rw [closed]
  exact ⟨rfl, rfl⟩

theorem goes_within {choice : Choice Data} {change : Database Data -> Database Data} {after : Stage}
  {version identity : ℤ} (migrated : Migrated schema disk.database session index version identity)
  (fine : ∀ session, (∀ migration, schema.migrations[index]? = some migration ->
      session.work = some (change ⟨(migration disk.database.data).1, version, identity⟩)) ->
    StageFine schema disk.database session after) : Goes schema disk (within disk session choice change after) := by
  unfold within
  split
  · exact goes_on ⟨rfl, rfl⟩ trivial
  · refine goes_on ⟨rfl, rfl⟩ (fine _ ?_)
    rcases migrated with ⟨_, _, isMigration, _, isWork⟩
    intro _ isOther
    rw [isMigration] at isOther
    cases isOther
    rw [isWork]
    rfl

theorem goes_migrating (choice : Choice Data) (fine : StageFine schema disk.database session (.migrating index)) :
  Goes schema disk (advance schema disk session choice (.migrating index)) := by
  rcases fine with ⟨isWork, behind⟩
  simp only [advance]
  rw [isWork]
  cases isMigration : schema.migrations[index]? with
  | none => cases choice <;> exact goes_on ⟨rfl, rfl⟩ trivial
  | some migration =>
    cases choice with
    | fails left | undone => exact goes_on ⟨rfl, rfl⟩ trivial
    | works =>
      dsimp only
      by_cases raised : (migration disk.database.data).2
      · rw [if_pos raised]
        exact goes_on ⟨rfl, rfl⟩ trivial
      · rw [if_neg raised]
        exact goes_on ⟨rfl, rfl⟩ ⟨behind, migration, isMigration, of_not_eq_true raised, rfl⟩

theorem goes_committing (choice : Choice Data) (fine : StageFine schema disk.database session (.committing index)) :
  Goes schema disk (advance schema disk session choice (.committing index)) := by
  rcases fine with ⟨⟨behind, migration, isMigration, well, isWork⟩, sound⟩
  have commits : Commits schema index disk.database ⟨(migration disk.database.data).1, index + 1, schema.applicationId⟩ :=
    ⟨behind, migration, isMigration, well, sound _ isWork, rfl⟩
  simp only [advance]
  rw [isWork]
  cases choice with
  | works => exact ⟨⟨rfl, commits.behind.2⟩, .inr ⟨index, commits, rfl⟩⟩
  | fails left | undone => exact goes_on ⟨rfl, rfl⟩ trivial

theorem goes_advance (choice : Choice Data) {stage : Stage} (fine : StageFine schema disk.database session stage) :
  Goes schema disk (advance schema disk session choice stage) := by
  cases stage with
  | checking =>
    simp only [advance]
    split
    · exact goes_on ⟨rfl, rfl⟩ nofun
    · exact goes_on ⟨rfl, rfl⟩ trivial
  | opening =>
    simp only [advance]
    split
    · exact goes_on ⟨rfl, rfl⟩ trivial
    · exact goes_on ⟨rfl, rfl⟩ nofun
  | journaling =>
    simp only [advance]
    split
    · exact goes_on ⟨rfl, rfl⟩ nofun
    · exact goes_on ⟨rfl, rfl⟩ rfl
  | tuning =>
    simp only [advance]
    split
    · exact goes_on ⟨rfl, rfl⟩ nofun
    · exact goes_on ⟨rfl, rfl⟩ (setForeignKeys_closed fine true)
  | identifying =>
    simp only [advance]
    split
    · exact goes_on ⟨rfl, rfl⟩ ⟨fine.1, nofun⟩
    · exact goes_on ⟨rfl, rfl⟩ ⟨fine.1, fine.2, rfl⟩
  | reading identity =>
    rcases fine with ⟨enforced, closed, isIdentity⟩
    simp only [advance]
    split
    · rename_i index isPending _
      rw [isIdentity] at isPending
      exact goes_on ⟨rfl, rfl⟩ ⟨enforced, closed, isPending⟩
    · exact goes_on ⟨rfl, rfl⟩ ⟨enforced, nofun⟩
  | disabling index =>
    rcases fine with ⟨enforced, closed, behind⟩
    simp only [advance]
    split
    · rename_i last
      refine goes_on ⟨rfl, rfl⟩ ⟨enforced, fun _ => ?_⟩
      have isLast := Nat.le_antisymm behind.le last
      rw [isLast] at behind
      exact behind
    · split
      · exact goes_on ⟨rfl, rfl⟩ ⟨enforced, nofun⟩
      · exact goes_on ⟨rfl, rfl⟩ ⟨(setForeignKeys_closed closed false).2, behind⟩
  | beginning index =>
    simp only [advance]
    split
    · exact goes_on ⟨rfl, rfl⟩ trivial
    · exact goes_on ⟨rfl, rfl⟩ ⟨rfl, fine.2⟩
  | migrating index => exact goes_migrating choice fine
  | naming index | numbering index =>
    refine goes_within fine (fun session isWork => ?_)
    rcases fine with ⟨behind, migration, isMigration, well, _⟩
    exact ⟨behind, migration, isMigration, well, isWork migration isMigration⟩
  | verifying index =>
    simp only [advance]
    split
    · exact goes_on ⟨rfl, rfl⟩ trivial
    · rename_i work isWork
      split
      · exact goes_on ⟨rfl, rfl⟩ trivial
      · rename_i passes
        refine goes_on ⟨rfl, rfl⟩ ⟨fine, fun other isOther => ?_⟩
        rw [isWork] at isOther
        cases isOther
        exact of_not_eq_false (fun broken => passes (.inr broken))
  | committing index => exact goes_committing choice fine
  | enabling index =>
    exact goes_on ⟨rfl, rfl⟩ ⟨(setForeignKeys_closed fine.1 true).1, (setForeignKeys_closed fine.1 true).2, fine.2⟩
  | undoing => exact goes_on ⟨rfl, rfl⟩ rfl
  | restoring => exact goes_on ⟨rfl, rfl⟩ ⟨(setForeignKeys_closed fine true).1, nofun⟩
  | closing failed =>
    simp only [advance]
    split
    · exact goes_on ⟨rfl, rfl⟩ nofun
    · rename_i well
      exact goes_on ⟨rfl, rfl⟩ (fine.2 (of_not_eq_true fun failed => well (.inl failed)))
  | rechecking =>
    simp only [advance]
    split
    · exact goes_on ⟨rfl, rfl⟩ nofun
    · exact goes_on ⟨rfl, rfl⟩ fine
  | marking =>
    simp only [advance]
    split
    · exact goes_on ⟨rfl, rfl⟩ (fun _ => fine)
    · split
      · exact goes_on ⟨rfl, rfl⟩ nofun
      · exact goes_on ⟨rfl, rfl⟩ fine
  | syncing => exact goes_on ⟨rfl, rfl⟩ (fun _ => fine)
  | waiting | killed => exact goes_on ⟨rfl, rfl⟩ trivial
  | releasing failed | ended failed => exact goes_on ⟨rfl, rfl⟩ fine

def Stage.locks : Stage -> Bool
  | .waiting | .ended _ | .killed => false
  | _ => true

variable (schema) in
structure UpgradeKept (disk : Disk Data) (state : Upgrade Data) : Prop where
  upgraded : Upgraded schema disk.database state.disk.database state.disk.applied
  alone : ∀ index process, state.processes[index]? = some process -> process.stage.locks -> state.holder = some index
  fine : ∀ process ∈ state.processes, StageFine schema state.disk.database process.session process.stage

theorem fine_of_commits (commits : Commits schema index before after)
  (unlocked : process.stage.locks = false) (fine : StageFine schema before process.session process.stage) :
  StageFine schema after process.session process.stage := by
  rcases process with ⟨stage, _⟩
  cases stage with
  | waiting | killed => trivial
  | ended failed =>
    intro well
    have same := commits.1.eq (fine well)
    exact absurd commits.behind.1 (same ▸ Nat.lt_irrefl _)
  | _ => cases unlocked

section Steps

variable {disk : Disk Data} {state : Upgrade Data} (kept : UpgradeKept schema disk state)

include kept

theorem kept_set {moved : Process Data} (found : state.processes[index]? = some process) (holder : Option ℕ)
  (fine : StageFine schema state.disk.database moved.session moved.stage)
  (mine : moved.stage.locks -> holder = some index)
  (others : ∀ other, state.holder = some other -> other ≠ index -> holder = some other) :
  UpgradeKept schema disk { state with holder := holder, processes := state.processes.set index moved } := by
  refine ⟨kept.upgraded, ?_, ?_⟩
  · intro place other isOther locks
    rw [get_set found] at isOther
    by_cases same : place = index
    · rw [if_pos same] at isOther
      cases isOther
      rw [same]
      exact mine locks
    · rw [if_neg same] at isOther
      exact others place (kept.alone place other isOther locks) same
  · intro other mem
    rcases mem_set found mem with isMoved | ⟨_, _, isPlace⟩
    · rw [isMoved]
      exact fine
    · exact kept.fine other (mem_of_getElem? isPlace)

theorem kept_advance (found : state.processes[index]? = some process) (choice : Choice Data)
  (holds : state.holder = some index) : UpgradeKept schema disk { state with
    disk := (advance schema state.disk process.session choice process.stage).1
    processes := state.processes.set index (advance schema state.disk process.session choice process.stage).2 } := by
  have goes := goes_advance choice (kept.fine process (mem_of_getElem? found))
  refine ⟨?_, ?_, ?_⟩
  · rcases goes.database with ⟨same, noMore⟩ | ⟨migration, commits, isApplied⟩
    · rw [same, noMore]
      exact kept.upgraded
    · rw [isApplied]
      exact .commit kept.upgraded commits
  · intro place other isOther locks
    rw [get_set found] at isOther
    by_cases same : place = index
    · rw [same]
      exact holds
    · rw [if_neg same] at isOther
      exact kept.alone place other isOther locks
  · intro other mem
    rcases mem_set found mem with isMoved | ⟨place, apart, isPlace⟩
    · rw [isMoved]
      exact goes.fine
    · have fine := kept.fine other (mem_of_getElem? isPlace)
      rcases goes.database with ⟨same, _⟩ | ⟨_, commits, _⟩
      · rw [same]
        exact fine
      · refine fine_of_commits commits (of_not_eq_true ?_) fine
        intro locks
        have also := kept.alone place other isPlace locks
        rw [holds] at also
        cases also
        exact apart rfl

theorem kept_move (move : Move Data) : UpgradeKept schema disk (state.next schema move) := by
  cases move with
  | start =>
    refine ⟨kept.upgraded, ?_, ?_⟩
    · intro place process isProcess locks
      simp only [Upgrade.next] at isProcess
      rw [get_append] at isProcess
      by_cases last : place = state.processes.length
      · rw [if_pos last] at isProcess
        cases isProcess
        cases locks
      · rw [if_neg last] at isProcess
        exact kept.alone place process isProcess locks
    · intro process mem
      rcases mem_snoc.mp mem with old | new
      · exact kept.fine process old
      · rw [new]
        trivial
  | step index choice =>
    simp only [Upgrade.next]
    cases found : state.processes[index]? with
    | none => exact kept
    | some process =>
      have fine := kept.fine process (mem_of_getElem? found)
      have locked := kept.alone index process found
      have advances := kept_advance kept found choice
      rcases process with ⟨stage, _⟩
      cases stage with
      | waiting =>
        simp only [Upgrade.step]
        split
        · exact kept_set kept found state.holder nofun nofun
            (fun other isHolder _ => isHolder)
        · split
          · rename_i free
            refine kept_set kept found (some index) trivial (fun _ => rfl) ?_
            intro other isHolder
            rw [free] at isHolder
            cases isHolder
          · exact kept
      | releasing failed =>
        refine kept_set kept found none fine nofun ?_
        intro other isHolder apart
        rw [locked rfl] at isHolder
        cases isHolder
        exact absurd rfl apart
      | ended failed | killed =>
        exact kept_set kept found state.holder fine nofun (fun _ isHolder _ => isHolder)
      | _ => exact advances (locked rfl)
  | kill index =>
    simp only [Upgrade.next]
    cases found : state.processes[index]? with
    | none =>
      rw [set_eq_of_length_le (getElem?_eq_none_iff.mp found)]
      refine ⟨kept.upgraded, ?_, kept.fine⟩
      intro place process isProcess locks
      have isHolder := kept.alone place process isProcess locks
      have apart : state.holder ≠ some index := by
        intro same
        rw [isHolder] at same
        cases same
        rw [isProcess] at found
        cases found
      rw [if_neg apart]
      exact isHolder
    | some process =>
      refine kept_set kept found _ trivial nofun ?_
      intro _ isHolder apart
      rw [if_neg]
      · exact isHolder
      · rw [isHolder]
        exact fun same => apart (Option.some.inj same)
  | sidecars are => exact ⟨kept.upgraded, kept.alone, kept.fine⟩

end Steps

theorem upgradeKept_reachable {state : Upgrade Data} (reachable : (upgradeMachine schema disk).Reachable state) :
  UpgradeKept schema disk state := by
  induction reachable with
  | start isStart =>
    rw [isStart]
    exact ⟨.same, nofun, nofun⟩
  | next _ _ kept => exact kept_move kept _

def Stage.between : Stage -> Bool
  | .identifying | .reading _ | .disabling _ | .closing _ => true
  | _ => false

variable (schema) in
structure Resumed (disk : Disk Data) (state : Upgrade Data) : Prop where
  /-- Another application's database, one of a newer schema and one without its identity are refused. -/
  refused : Foreign schema disk.database -> state.disk.database = disk.database /\
    ∀ process ∈ state.processes, process.stage ≠ .ended false
  /-- Each migration that was missing is committed once and in order, with its number. -/
  resumed : ∀ index : ℕ, ¬ Foreign schema disk.database -> disk.database.version = index ->
    ∃ count : ℕ, index <= count /\ count <= schema.migrations.length /\ state.disk.database.version = count /\
      state.disk.applied = range' index (count - index) /\
      upgrade schema ((schema.migrations.take count).drop index) disk.database.data = some state.disk.database.data /\
      ∀ origin, upgrade schema (schema.migrations.take index) origin = some disk.database.data ->
        upgrade schema (schema.migrations.take count) origin = some state.disk.database.data
  /-- An initialisation that ends well leaves what the upgrade gives without interruption. -/
  ended : ∀ process ∈ state.processes, process.stage = .ended false ->
    state.disk.database.version = schema.migrations.length /\ ∀ index : ℕ, disk.database.version = index ->
      upgrade schema (schema.migrations.drop index) disk.database.data = some state.disk.database.data
  /-- Foreign keys are enforced again after every migration. -/
  foreignKeys : ∀ process ∈ state.processes, process.stage.between -> process.session.foreignKeys

theorem upgrades_resumed {disk : Disk Data} {state : Upgrade Data} (reachable : (upgradeMachine schema disk).Reachable state) :
  Resumed schema disk state := by
  have kept := upgradeKept_reachable reachable
  have complete {process : Process Data} (mem : process ∈ state.processes) (isEnded : process.stage = .ended false) :
      Complete schema state.disk.database := by
    have fine := kept.fine process mem
    rw [isEnded] at fine
    exact fine rfl
  have resumes {index : ℕ} (behind : Behind schema disk.database index) := kept.upgraded.resumes behind
  refine ⟨?_, ?_, ?_, ?_⟩
  · intro foreign
    have same := (kept.upgraded.foreign foreign).1
    refine ⟨same, fun process mem isEnded => ?_⟩
    have ours := (behind_iff.mp (complete mem isEnded)).1
    rw [same] at ours
    exact ours foreign
  · intro index ours isVersion
    rcases resumes (behind_iff.mpr ⟨ours, isVersion⟩) with ⟨count, atLeast, behind, isApplied, isData⟩
    refine ⟨count, atLeast, behind.le, (behind_iff.mp behind).2, isApplied, isData, ?_⟩
    intro origin isOrigin
    have parts : schema.migrations.take count = schema.migrations.take index ++ (schema.migrations.take count).drop index := by
      conv_lhs => rw [<- take_append_drop index (schema.migrations.take count)]
      rw [take_take, Nat.min_eq_left atLeast]
    rw [parts, upgrade_append, isOrigin]
    exact isData
  · intro process mem isEnded
    have all := complete mem isEnded
    refine ⟨(behind_iff.mp all).2, ?_⟩
    intro index isVersion
    have ours : ¬ Foreign schema disk.database := by
      intro foreign
      have same := (kept.upgraded.foreign foreign).1
      have ours := (behind_iff.mp all).1
      rw [same] at ours
      exact ours foreign
    rcases resumes (behind_iff.mpr ⟨ours, isVersion⟩) with ⟨count, _, behind, _, isData⟩
    have isLength := behind.eq all
    rw [isLength, take_length] at isData
    exact isData
  · intro process mem between
    have fine := kept.fine process mem
    rcases process with ⟨stage, session⟩
    cases stage with
    | identifying | reading identity | disabling index | closing failed => exact fine.1
    | _ => cases between

theorem admits_moves (disk : Disk Data) (moves : List (Move Data)) (state : Upgrade Data) :
  (upgradeMachine schema disk).Admits state moves := by
  induction moves generalizing state with
  | nil => trivial
  | cons move moves ih => exact ⟨trivial, ih _⟩

def numbers : Schema (List ℕ) := ⟨7, [fun rows => (rows ++ [1], false), fun rows => (rows ++ [2], false)], fun _ => true⟩

def nothing : Disk (List ℕ) := ⟨.missing, .missing, false, ⟨[], 0, 0⟩, []⟩

def killedRun : List (Move (List ℕ)) :=
  [.start, .start] ++ replicate 18 (.step 0 .works) ++ [.sidecars true, .kill 0] ++ replicate 21 (.step 1 .works)

def afterKill : Upgrade (List ℕ) := (upgradeMachine numbers nothing).run (.start nothing) killedRun

theorem upgrades_resumed_killed : afterKill.disk.database.version = 2 /\
  upgrade numbers numbers.migrations [] = some afterKill.disk.database.data := by
  have started : (upgradeMachine numbers nothing).Reachable (.start nothing) := .start rfl
  have resumed : Resumed numbers nothing afterKill := upgrades_resumed (started.run killedRun (admits_moves nothing killedRun _))
  have stages : Stage.ended false ∈ afterKill.processes.map Process.stage := by decide +kernel
  rcases mem_map.mp stages with ⟨process, mem, isEnded⟩
  rcases resumed.ended process mem isEnded with ⟨isVersion, isData⟩
  exact ⟨isVersion, isData 0 rfl⟩

end BananaChat.Storage

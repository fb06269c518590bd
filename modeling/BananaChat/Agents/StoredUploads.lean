import BananaChat.Foundation.Machine
import Mathlib.Algebra.GroupWithZero.Nat
import Mathlib.Algebra.Order.BigOperators.Group.List

namespace BananaChat.Agents.StoredUploads

open Foundation List

/-!
# The bytes that an account has stored

The deciding transactions follow one another.
-/

structure Folder where
  task : ℕ
  owner : ℕ
  bytes : ℕ
  staged : Bool

/-- Where a folder was listed: its task, and whether among the staged ones. -/
abbrev Path : Type := ℕ × Bool

def Folder.path (folder : Folder) : Path := (folder.task, folder.staged)

/-- How far `owned_bytes` is. -/
inductive Phase where
  | begun
  | stored (paths : List Path)
  | reading (paths : List Path) (total : ℕ)

/-- A start inside its transaction; `late` is history, the tasks whose files were staged beside it. -/
structure Decision where
  task : ℕ
  phase : Phase
  late : List ℕ

structure State where
  folders : List Folder
  deciding : Option Decision
  admitted : List ℕ
  used : List ℕ

inductive Action where
  | stage (task owner bytes : ℕ)
  | check (task : ℕ)
  | list
  | read
  | decide
  | commit (task : ℕ)
  | discard (task : ℕ)

variable (account limit : ℕ)

def listed (folders : List Folder) (staged : Bool) : List Path :=
  (folders.filter fun folder => folder.staged == staged).map Folder.path

def sizeOf (folders : List Folder) (path : Path) : ℕ :=
  match folders.find? fun folder => (folder.path = path) with
  | some folder => if folder.owner = account then folder.bytes else 0
  | none => 0

def State.next (state : State) : Action -> State
  | .stage task owner bytes =>
    { state with
      folders := ⟨task, owner, bytes, true⟩ :: state.folders
      used := task :: state.used
      deciding := state.deciding.map fun decision => { decision with late := task :: decision.late } }
  | .check task => { state with deciding := some ⟨task, .begun, []⟩ }
  | .list =>
    { state with
      deciding := state.deciding.map fun decision =>
        match decision.phase with
        | .begun => { decision with phase := .stored (listed state.folders false) }
        | .stored paths => { decision with phase := .reading (paths ++ listed state.folders true) 0 }
        | .reading _ _ => decision }
  | .read =>
    { state with
      deciding := state.deciding.map fun decision =>
        match decision.phase with
        | .reading (path :: paths) total => { decision with phase := .reading paths (total + sizeOf account state.folders path) }
        | _ => decision }
  | .decide =>
    match state.deciding with
    | some ⟨task, .reading [] total, _⟩ =>
      { state with deciding := none, admitted := if total <= limit then task :: state.admitted else state.admitted }
    | _ => state
  | .commit task =>
    { state with folders := state.folders.map fun folder => if folder.task = task then { folder with staged := false } else folder }
  | .discard task => { state with folders := state.folders.filter fun folder => (folder.task ≠ task) }

/-- A task has an id of its own, and one start decides at a time. -/
def State.Enabled (state : State) : Action -> Prop
  | .stage task _ _ => task ∉ state.used
  | .check task => state.deciding.isNone = true /\ task ∈ state.used
  | .commit task => ∀ folder ∈ state.folders, folder.task = task -> folder.owner = account -> task ∈ state.admitted
  | _ => True

/-- No folder of the account is renamed while a start decides. -/
def State.Orderly (state : State) : Action -> Prop
  | .commit task => state.deciding.isNone = true \/ ∀ folder ∈ state.folders, folder.task = task -> folder.owner ≠ account
  | _ => True

def machine : Machine State Action where
  initial state := state = ⟨[], none, [], []⟩
  enabled state := state.Enabled account
  next state := state.next account limit

def orderlyMachine : Machine State Action where
  initial state := state = ⟨[], none, [], []⟩
  enabled state action := state.Enabled account action /\ state.Orderly account action
  next state := state.next account limit

def weigh (counts : Folder -> Bool) (folders : List Folder) : ℕ :=
  ((folders.filter fun folder => (folder.owner = account) && counts folder).map Folder.bytes).sum

def State.admittedBytes (state : State) : ℕ := weigh account (fun folder => folder.task ∈ state.admitted) state.folders

def State.presentBytes (state : State) (late : List ℕ) : ℕ := weigh account (fun folder => folder.task ∉ late) state.folders

/-- What is behind a listing is among the paths to read, or counted. -/
def Covered (folders : List Folder) (late : List ℕ) : Phase -> Prop
  | .begun => True
  | .stored paths => ∀ folder ∈ folders, folder.owner = account -> folder.task ∉ late -> folder.staged = false -> folder.path ∈ paths
  | .reading paths total => weigh account (fun folder => folder.task ∉ late /\ folder.path ∉ paths) folders <= total

structure Kept (state : State) : Prop where
  distinct : (state.folders.map Folder.task).Nodup
  known : ∀ folder ∈ state.folders, folder.task ∈ state.used
  admitted : ∀ task ∈ state.admitted, task ∈ state.used
  fits : state.admittedBytes account <= limit
  covered : ∀ decision, state.deciding = some decision -> Covered account state.folders decision.late decision.phase /\
    decision.task ∈ state.used /\ decision.task ∉ decision.late /\ ∀ task ∈ decision.late, task ∉ state.admitted

variable {account limit} {state : State} {folders : List Folder} {counts other : Folder -> Bool}

theorem weigh_cons (folder : Folder) (folders : List Folder) : weigh account counts (folder :: folders) =
  (if (decide (folder.owner = account) && counts folder) then folder.bytes else 0) + weigh account counts folders := by
  unfold weigh
  rw [filter_cons]
  split
  · rw [map_cons, sum_cons]
  · rw [Nat.zero_add]

theorem weigh_mono (fewer : ∀ folder ∈ folders, folder.owner = account -> counts folder -> other folder) :
  weigh account counts folders <= weigh account other folders := by
  induction folders with
  | nil => exact le_rfl
  | cons folder rest ih =>
    rw [weigh_cons, weigh_cons]
    refine Nat.add_le_add ?_ (ih fun later mem => fewer later (.tail _ mem))
    split
    · rename_i own
      have parts := Bool.and_eq_true_iff.mp own
      rw [if_pos (Bool.and_eq_true_iff.mpr ⟨parts.1, fewer folder (.head _) (of_decide_eq_true parts.1) parts.2⟩)]
    · exact Nat.zero_le _

theorem weigh_filter (keeps : Folder -> Bool) : weigh account counts (folders.filter keeps) <= weigh account counts folders := by
  induction folders with
  | nil => exact le_rfl
  | cons folder rest ih =>
    rw [filter_cons, weigh_cons]
    split
    · rw [weigh_cons]
      exact Nat.add_le_add_left ih _
    · exact ih.trans (Nat.le_add_left _ _)

theorem weigh_map {change : Folder -> Folder} (same : ∀ folder ∈ folders,
  (change folder).owner = folder.owner /\ (change folder).bytes = folder.bytes /\ (folder.owner = account -> counts (change folder) = other folder)) :
  weigh account counts (folders.map change) = weigh account other folders := by
  induction folders with
  | nil => rfl
  | cons folder rest ih =>
    rw [map_cons, weigh_cons, weigh_cons, ih fun later mem => same later (.tail _ mem)]
    rcases same folder (.head _) with ⟨owner, bytes, counted⟩
    rw [owner, bytes]
    by_cases own : folder.owner = account
    · rw [counted own]
    · rw [decide_eq_false own, Bool.false_and, Bool.false_and]

theorem weigh_read {path : Path} {paths : List Path} {late : List ℕ} (distinct : (folders.map Folder.task).Nodup) :
  weigh account (fun folder => decide (folder.task ∉ late /\ folder.path ∉ paths)) folders <=
    weigh account (fun folder => decide (folder.task ∉ late /\ folder.path ∉ path :: paths)) folders + sizeOf account folders path := by
  induction folders with
  | nil => exact Nat.zero_le _
  | cons folder rest ih =>
    rw [map_cons, nodup_cons] at distinct
    rw [weigh_cons, weigh_cons]
    unfold sizeOf
    rw [find?_cons]
    by_cases here : folder.path = path
    · have further : weigh account (fun folder => decide (folder.task ∉ late /\ folder.path ∉ paths)) rest <=
          weigh account (fun folder => decide (folder.task ∉ late /\ folder.path ∉ path :: paths)) rest := by
        refine weigh_mono fun later mem _ counted => ?_
        rcases of_decide_eq_true counted with ⟨early, unread⟩
        refine decide_eq_true ⟨early, not_mem_cons_of_ne_of_not_mem (fun same => distinct.1 ?_) unread⟩
        exact mem_map.mpr ⟨later, mem, congrArg Prod.fst (same.trans here.symm)⟩
      rw [decide_eq_true here]
      dsimp only
      have own : (if (decide (folder.owner = account) && decide (folder.task ∉ late /\ folder.path ∉ paths)) then folder.bytes else 0) <=
          if folder.owner = account then folder.bytes else 0 := by
        split
        · rename_i counted
          rw [if_pos (of_decide_eq_true (Bool.and_eq_true_iff.mp counted).1)]
        · exact Nat.zero_le _
      omega
    · rw [decide_eq_false here]
      have same : decide (folder.task ∉ late /\ folder.path ∉ paths) = decide (folder.task ∉ late /\ folder.path ∉ path :: paths) := by
        refine decide_eq_decide.mpr (and_congr Iff.rfl ?_)
        rw [mem_cons, not_or]
        exact ⟨fun unread => ⟨here, unread⟩, And.right⟩
      rw [same]
      have rest := ih distinct.2
      unfold sizeOf at rest
      dsimp only
      omega

theorem next_kept (kept : Kept account limit state) {action : Action} (enabled : state.Enabled account action)
  (orderly : state.Orderly account action) : Kept account limit (state.next account limit action) := by
  cases action with
  | stage task owner bytes =>
    have fresh : task ∉ state.used := enabled
    refine ⟨nodup_cons.mpr ⟨fun mem => ?_, kept.distinct⟩, fun folder mem => ?_, fun other mem => .tail _ (kept.admitted other mem), ?_,
      fun decision isDeciding => ?_⟩
    · rcases mem_map.mp mem with ⟨folder, isFolder, same⟩
      have isTask : folder.task = task := same
      exact fresh (isTask ▸ kept.known folder isFolder)
    · rcases mem_cons.mp mem with rfl | old
      · exact .head _
      · exact .tail _ (kept.known folder old)
    · unfold State.admittedBytes State.next
      rw [weigh_cons, if_neg]
      · rw [Nat.zero_add]
        exact kept.fits
      · rw [Bool.and_eq_true_iff, not_and]
        exact fun _ isAdmitted => fresh (kept.admitted task (of_decide_eq_true isAdmitted))
    · rcases Option.map_eq_some_iff.mp isDeciding with ⟨before, isBefore, rfl⟩
      rcases kept.covered before isBefore with ⟨covered, isUsed, own, apart⟩
      refine ⟨?_, .tail _ isUsed, not_mem_cons_of_ne_of_not_mem (fun same => fresh (same ▸ isUsed)) own, fun other mem isAdmitted => ?_⟩
      · dsimp only [State.next]
        cases phase : before.phase with
        | begun => trivial
        | stored paths =>
          rw [phase] at covered
          intro folder mem isOwn early settled
          rcases mem_cons.mp mem with rfl | old
          · cases settled
          · exact covered folder old isOwn (fun isLate => early (.tail _ isLate)) settled
        | reading paths total =>
          rw [phase] at covered
          unfold Covered
          dsimp only
          rw [weigh_cons, if_neg]
          · rw [Nat.zero_add]
            refine (weigh_mono fun folder mem _ counted => ?_).trans covered
            rcases of_decide_eq_true counted with ⟨early, unread⟩
            exact decide_eq_true ⟨fun isLate => early (.tail _ isLate), unread⟩
          · rw [Bool.and_eq_true_iff, not_and]
            exact fun _ counted => (of_decide_eq_true counted).1 (.head _)
      · rcases mem_cons.mp mem with rfl | old
        · exact fresh (kept.admitted _ isAdmitted)
        · exact apart other old isAdmitted
  | check task =>
    refine ⟨kept.distinct, kept.known, kept.admitted, kept.fits, fun decision isDeciding => ?_⟩
    cases isDeciding
    exact ⟨trivial, enabled.2, not_mem_nil, fun _ mem => by cases mem⟩
  | list =>
    refine ⟨kept.distinct, kept.known, kept.admitted, kept.fits, fun decision isDeciding => ?_⟩
    rcases Option.map_eq_some_iff.mp isDeciding with ⟨before, isBefore, rfl⟩
    rcases kept.covered before isBefore with ⟨covered, others⟩
    have inListing (folder : Folder) (mem : folder ∈ state.folders) : folder.path ∈ listed state.folders folder.staged :=
      mem_map_of_mem (mem_filter.mpr ⟨mem, beq_self_eq_true _⟩)
    cases phase : before.phase with
    | begun => exact ⟨fun folder mem _ _ settled => settled ▸ inListing folder mem, others⟩
    | stored paths =>
      rw [phase] at covered
      refine ⟨?_, others⟩
      have nothing : weigh account (fun _ => false) state.folders = 0 := by
        unfold weigh
        rw [filter_eq_nil_iff.mpr fun _ _ => by rw [Bool.and_false]; exact Bool.false_ne_true]
        rfl
      refine (weigh_mono fun folder mem own counted => ?_).trans nothing.le
      rcases of_decide_eq_true counted with ⟨early, unread⟩
      refine absurd ?_ unread
      cases place : folder.staged with
      | false => exact mem_append_left _ (covered folder mem own early place)
      | true => exact mem_append_right _ (place ▸ inListing folder mem)
    | reading paths total =>
      rw [phase] at covered
      rw [phase]
      exact ⟨covered, others⟩
  | read =>
    refine ⟨kept.distinct, kept.known, kept.admitted, kept.fits, fun decision isDeciding => ?_⟩
    rcases Option.map_eq_some_iff.mp isDeciding with ⟨before, isBefore, rfl⟩
    rcases kept.covered before isBefore with ⟨covered, others⟩
    dsimp only [State.next]
    split
    · rename_i path paths total phase
      rw [phase] at covered
      exact ⟨(weigh_read kept.distinct).trans (Nat.add_le_add_right covered _), others⟩
    · exact ⟨covered, others⟩
  | decide =>
    unfold State.next
    dsimp only
    split
    · rename_i task total late isDeciding
      rcases kept.covered _ isDeciding with ⟨covered, isUsed, own, apart⟩
      refine ⟨kept.distinct, kept.known, fun other mem => ?_, ?_, fun decision impossible => by cases impossible⟩
      · split at mem
        · rcases mem_cons.mp mem with rfl | old
          · exact isUsed
          · exact kept.admitted other old
        · exact kept.admitted other mem
      · unfold State.admittedBytes
        dsimp only
        split
        · rename_i within
          refine (weigh_mono fun folder mem _ counted => ?_).trans (covered.trans within)
          refine decide_eq_true ⟨fun isLate => ?_, not_mem_nil⟩
          rcases mem_cons.mp (of_decide_eq_true counted) with same | old
          · exact own (same ▸ isLate)
          · exact apart _ isLate old
        · exact kept.fits
    · exact kept
  | commit task =>
    have tasks : (state.folders.map fun folder => if folder.task = task then { folder with staged := false } else folder).map Folder.task =
        state.folders.map Folder.task := by
      rw [map_map]
      refine map_congr_left fun folder _ => ?_
      dsimp only [Function.comp]
      split <;> rfl
    have unchanged (folder : Folder) : (if folder.task = task then { folder with staged := false } else folder).owner = folder.owner /\
        (if folder.task = task then { folder with staged := false } else folder).bytes = folder.bytes /\
        (if folder.task = task then { folder with staged := false } else folder).task = folder.task := by
      split <;> exact ⟨rfl, rfl, rfl⟩
    refine ⟨tasks ▸ kept.distinct, fun folder mem => ?_, kept.admitted, ?_, fun decision isDeciding => ?_⟩
    · rcases mem_map.mp mem with ⟨before, isBefore, rfl⟩
      rw [(unchanged before).2.2]
      exact kept.known before isBefore
    · refine le_trans (le_of_eq ?_) kept.fits
      refine weigh_map fun folder _ => ⟨(unchanged folder).1, (unchanged folder).2.1, fun _ => ?_⟩
      rw [(unchanged folder).2.2]
      rfl
    · rcases kept.covered decision isDeciding with ⟨covered, others⟩
      refine ⟨?_, others⟩
      -- The folder that is renamed is another account's.
      have foreign (folder : Folder) (mem : folder ∈ state.folders) (own : folder.owner = account) : folder.task ≠ task := by
        rcases orderly with none | apart
        · have isNow : state.deciding = some decision := isDeciding
          rw [isNow] at none
          cases none
        · exact fun same => apart folder mem same own
      cases phase : decision.phase with
      | begun => trivial
      | stored paths =>
        rw [phase] at covered
        intro folder mem own early settled
        rcases mem_map.mp mem with ⟨before, isBefore, rfl⟩
        rw [(unchanged before).1] at own
        rw [if_neg (foreign before isBefore own)] at early settled ⊢
        exact covered before isBefore own early settled
      | reading paths total =>
        rw [phase] at covered
        refine le_trans (le_of_eq ?_) covered
        refine weigh_map fun folder mem => ⟨(unchanged folder).1, (unchanged folder).2.1, fun own => ?_⟩
        rw [if_neg (foreign folder mem own)]
  | discard task =>
    refine ⟨kept.distinct.sublist (filter_sublist.map _), fun folder mem => kept.known folder (mem_of_mem_filter mem), kept.admitted,
      (weigh_filter _).trans kept.fits, fun decision isDeciding => ?_⟩
    rcases kept.covered decision isDeciding with ⟨covered, others⟩
    refine ⟨?_, others⟩
    cases phase : decision.phase with
    | begun => trivial
    | stored paths =>
      rw [phase] at covered
      exact fun folder mem => covered folder (mem_of_mem_filter mem)
    | reading paths total =>
      rw [phase] at covered
      exact (weigh_filter _).trans covered

def alone : List Action := [.stage 1 0 6, .check 1, .list, .list, .read, .decide, .commit 1]

/-- The second start lists the stored folders before the first one's files are moved, and the staged ones behind it. -/
def raced : List Action :=
  [.stage 1 0 6, .check 1, .list, .list, .read, .decide, .stage 2 0 6, .check 2, .list, .commit 1, .list, .read, .decide]

end BananaChat.Agents.StoredUploads

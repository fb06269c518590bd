import Mathlib
import BananaChat.Storage.Transactions

namespace BananaChat.Storage

universe u

open Foundation.Savepoints List Option

/-!
# Transaction blocks are atomic

An outermost block has its transaction, and a block inside it its savepoint, for as long as they
are open; what is committed does not change meanwhile.
-/

variable {Data : Type u}

inductive Nested (kept : Data) : List (Block Data) -> List (ℕ × Data) -> Prop
  | outermost : Nested kept [⟨none, kept⟩] []
  | inner {blocks : List (Block Data)} {named : List (ℕ × Data)} (point : ℕ × Data) :
      Nested kept blocks named -> Nested kept (⟨some point.1, point.2⟩ :: blocks) (point :: named)

variable {named : List (ℕ × Data)} {point : ℕ × Data}

theorem Nested.block {kept : Data} {blocks : List (Block Data)} (nested : Nested kept blocks named)
  (mem : point ∈ named) : ∃ block ∈ blocks, block.name = some point.1 := by
  induction nested with
  | outermost => cases mem
  | inner other nested ih =>
    rcases mem_cons.mp mem with same | earlier
    · rw [same]
      exact ⟨_, mem_cons_self, rfl⟩
    · rcases ih earlier with ⟨block, isBlock, named⟩
      exact ⟨block, mem_cons_of_mem _ isBlock, named⟩

def Kept (thread : Thread Data) : Prop :=
  (thread.blocks = [] /\ thread.connection.work = none) \/ ∃ work, thread.connection.work = some work /\
      ∃ named, Nested thread.connection.kept thread.blocks named /\ Work.Holds named work.points

structure Ends (thread : Thread Data) (block : Block Data) (outer : List (Block Data)) (next : Thread Data) : Prop where
  blocks : next.blocks = outer
  /-- A block that is left by an exception has changed nothing. -/
  undone : next.raising -> next.connection.visible = block.before
  /-- What another block has changed stays. -/
  stays : next.raising = false -> next.connection.visible = thread.connection.visible
  /-- Outside of all blocks no transaction is open. -/
  closed : outer = [] -> next.connection.work = none
  /-- Inside of others nothing is committed. -/
  kept : outer ≠ [] -> next.connection.kept = thread.connection.kept

variable {work : Work Data ℕ} {answer : Answer} {thread : Thread Data}

variable {connection : Connection Data ℕ} {name : ℕ}

theorem release_done {after : Work Data ℕ}
  (isOpen : connection.work = some work) (released : work.release name = some after) :
  release connection name .done = ({ connection with work := some after }, false) := by
  unfold release
  rw [isOpen]
  dsimp only
  rw [released]

theorem release_failed : release connection name .failed = (connection, true) := by
  unfold release
  cases connection.work with
  | none => rfl
  | some work =>
    dsimp only
    cases work.release name <;> rfl

theorem leave_outermost (careful : thread.raising \/ answer ≠ .failed) (isOpen : thread.connection.work = some work)
  (isBlocks : thread.blocks = [⟨none, thread.connection.kept⟩]) :
  Ends thread ⟨none, thread.connection.kept⟩ [] (thread.leave answer) /\
    ((thread.leave answer).raising = false ↔ thread.raising = false /\ answer = .done) := by
  unfold Thread.leave
  rw [isBlocks]
  cases raises : thread.raising with
  | true =>
    have undone : abandon thread.connection answer = thread.connection.rollback := by
      unfold abandon
      rw [isOpen]
      cases answer <;> rfl
    rw [undone]
    exact ⟨⟨rfl, fun _ => rfl, (fun clash => nomatch clash), fun _ => rfl, fun clash => absurd rfl clash⟩,
      ⟨(fun clash => nomatch clash), fun clash => nomatch clash.1⟩⟩
  | false =>
    unfold commit
    rw [isOpen]
    cases answer with
    | done =>
      exact ⟨⟨rfl, (fun clash => nomatch clash), fun _ => rfl, fun _ => rfl, fun clash => absurd rfl clash⟩,
        ⟨fun _ => ⟨rfl, rfl⟩, fun _ => rfl⟩⟩
    | failed =>
      rcases careful with is | apart
      · rw [raises] at is
        cases is
      · exact absurd rfl apart
    | undone =>
      exact ⟨⟨rfl, fun _ => rfl, (fun clash => nomatch clash), fun _ => rfl, fun clash => absurd rfl clash⟩,
        ⟨(fun clash => nomatch clash), fun clash => nomatch clash.2⟩⟩

variable {outer : List (Block Data)}

theorem leave_inner (careful : answer = .done \/
    (thread.raising /\ answer = .failed /\ ∀ other ∈ outer, other.name ≠ some point.1))
  (isOpen : thread.connection.work = some work) (isBlocks : thread.blocks = ⟨some point.1, point.2⟩ :: outer)
  (nested : Nested thread.connection.kept outer named) (holds : Work.Holds (point :: named) work.points) :
  Ends thread ⟨some point.1, point.2⟩ outer (thread.leave answer) /\ Kept (thread.leave answer) /\
    ((thread.leave answer).raising = false ↔ thread.raising = false) := by
  rcases holds.find with ⟨earlier, isFound, rest⟩
  have inside : outer ≠ [] := by
    intro nothing
    rw [nothing] at nested
    cases nested
  unfold Thread.leave
  rw [isBlocks]
  cases raises : thread.raising with
  | true =>
    have back : work.rollbackTo point.1 = some ⟨point.2, (point.1, point.2) :: earlier⟩ := by
      rw [Work.rollbackTo, isFound, map_some]
    unfold unwind
    rw [isOpen]
    dsimp only
    rw [back]
    dsimp only
    rcases careful with isDone | ⟨_, isFailed, apart⟩
    · rw [isDone]
      have released : Work.release ⟨point.2, (point.1, point.2) :: earlier⟩ point.1 = some ⟨point.2, earlier⟩ := by
        rw [Work.release, Work.find, if_pos rfl, map_some]
      rw [release_done rfl released]
      exact ⟨⟨rfl, fun _ => rfl, (by cases ·), fun nothing => absurd nothing inside, fun _ => rfl⟩,
        .inr ⟨_, rfl, named, nested, rest⟩, Iff.rfl⟩
    · rw [isFailed, release_failed]
      have left : Work.Holds named ((point.1, point.2) :: earlier) := by
        apply rest.leave
        intro _ mem same
        rcases nested.block mem with ⟨block, isBlock, isNamed⟩
        exact apart block isBlock (isNamed.trans (congrArg some same.symm))
      exact ⟨⟨rfl, fun _ => rfl, (by cases ·), fun nothing => absurd nothing inside, fun _ => rfl⟩,
        .inr ⟨_, rfl, named, nested, left⟩, Iff.rfl⟩
  | false =>
    have isDone : answer = .done := by
      rcases careful with isDone | ⟨clash, _⟩
      · exact isDone
      · rw [raises] at clash
        cases clash
    have released : work.release point.1 = some ⟨work.data, earlier⟩ := by
      rw [Work.release, isFound, map_some]
    dsimp only
    rw [isDone, release_done isOpen released]
    refine ⟨⟨rfl, (by cases ·), fun _ => ?_, fun nothing => absurd nothing inside, fun _ => rfl⟩,
      .inr ⟨_, rfl, named, nested, rest⟩, Iff.rfl⟩
    unfold Connection.visible
    rw [isOpen]

section

variable (kept : Kept thread)
include kept

theorem kept_enter (name : ℕ) (works : Bool) : Kept (thread.enter name works) := by
  unfold Thread.enter
  cases works with
  | false => exact kept
  | true =>
    rcases kept with ⟨outside, closed⟩ | ⟨work, isOpen, named, nested, holds⟩
    · rw [closed]
      refine .inr ⟨_, rfl, [], ?_, trivial⟩
      have sees : thread.connection.visible = thread.connection.kept := by
        unfold Connection.visible
        rw [closed]
      rw [outside, sees]
      exact .outermost
    · rw [isOpen]
      have sees : thread.connection.visible = work.data := by
        unfold Connection.visible
        rw [isOpen]
      refine .inr ⟨_, rfl, (name, work.data) :: named, ?_, holds.savepoint (name, work.data)⟩
      rw [sees]
      exact .inner (name, work.data) nested

theorem kept_write (change : Data -> Data) : Kept { thread with connection := thread.connection.write change } := by
  unfold Connection.write
  rcases kept with ⟨outside, closed⟩ | ⟨_, isOpen, named, nested, holds⟩
  · rw [closed]
    exact .inl ⟨outside, rfl⟩
  · rw [isOpen]
    exact .inr ⟨_, rfl, named, nested, holds⟩

theorem leave_ends (careful : thread.Careful (.leave answer)) {block : Block Data}
  (isBlocks : thread.blocks = block :: outer) :
  Ends thread block outer (thread.leave answer) /\ Kept (thread.leave answer) /\
    ((thread.leave answer).raising = false ↔ thread.raising = false /\ (outer = [] -> answer = .done)) /\
    (outer = [] -> block.name = none /\ block.before = thread.connection.kept) := by
  rcases kept with ⟨outside, _⟩ | ⟨_, isOpen, _, nested, holds⟩
  · rw [outside] at isBlocks
    cases isBlocks
  · unfold Thread.Careful at careful
    rw [isBlocks] at nested careful
    cases nested with
    | outermost =>
      rcases leave_outermost careful isOpen isBlocks with ⟨ends, raises⟩
      refine ⟨ends, .inl ⟨ends.blocks, ends.closed rfl⟩, ?_, fun _ => ⟨rfl, rfl⟩⟩
      rw [raises]
      exact and_congr_right (fun _ => ⟨fun isDone _ => isDone, fun isDone => isDone rfl⟩)
    | inner point nested =>
      rcases leave_inner careful isOpen isBlocks nested holds with ⟨ends, kept, raises⟩
      have inside : outer ≠ [] := by
        intro nothing
        rw [nothing] at nested
        cases nested
      refine ⟨ends, kept, ?_, fun nothing => absurd nothing inside⟩
      rw [raises]
      exact ⟨fun well => ⟨well, fun nothing => absurd nothing inside⟩, fun well => well.1⟩

theorem kept_next {action : Action Data} (enabled : thread.Enabled action)
  (careful : thread.Careful action) : Kept (thread.next action) := by
  cases action with
  | write change => exact kept_write kept change
  | raise | caught => exact kept
  | enter name works => exact kept_enter kept name works
  | leave answer =>
    cases isBlocks : thread.blocks with
    | nil => exact absurd isBlocks enabled
    | cons block outer => exact (leave_ends kept careful isBlocks).2.1
  | tidy answer =>
    simp only [Thread.next]
    rcases kept with ⟨outside, closed⟩ | ⟨_, _, _, nested, _⟩
    · rw [closed]
      exact .inl ⟨outside, closed⟩
    · rw [show thread.blocks = [] from enabled] at nested
      cases nested
  | close => exact .inl ⟨enabled, rfl⟩

end

theorem kept_reachable {data : Data} (reachable : (carefulMachine data).Reachable thread) : Kept thread := by
  induction reachable with
  | start isStart =>
    rw [isStart]
    exact .inl ⟨rfl, rfl⟩
  | next _ enabled kept => exact kept_next kept enabled.1 enabled.2

structure Atomic (thread : Thread Data) : Prop where
  /-- A transaction is open just where a block is. -/
  closed : thread.connection.work = none ↔ thread.blocks = []
  /-- So a block that is entered outside of all others begins its transaction. -/
  begins : ∀ name, thread.blocks = [] -> (thread.enter name true).blocks = [⟨none, thread.connection.kept⟩]
  /-- Each block ends as it should. -/
  ends : ∀ answer, thread.Careful (.leave answer) -> ∀ block outer, thread.blocks = block :: outer ->
    Ends thread block outer (thread.leave answer)
  /-- What an outermost block has changed is kept exactly if its body went well and its `COMMIT` succeeds. -/
  commits : ∀ answer, thread.Careful (.leave answer) -> ∀ block, thread.blocks = [block] ->
    block.before = thread.connection.kept /\
      ((thread.leave answer).raising = false ↔ thread.raising = false /\ answer = .done) /\
      (thread.leave answer).connection.kept =
        if thread.raising = false /\ answer = .done then thread.connection.visible else thread.connection.kept

theorem blocks_atomic {data : Data} {thread : Thread Data} (reachable : (carefulMachine data).Reachable thread) : Atomic thread := by
  have kept := kept_reachable reachable
  have closed : thread.connection.work = none ↔ thread.blocks = [] := by
    rcases kept with ⟨outside, closed⟩ | ⟨work, isOpen, named, nested, holds⟩
    · exact ⟨fun _ => outside, fun _ => closed⟩
    · constructor
      · intro closed
        rw [isOpen] at closed
        cases closed
      · intro outside
        rw [outside] at nested
        cases nested
  refine ⟨closed, ?_, fun answer careful block outer isBlocks => (leave_ends kept careful isBlocks).1, ?_⟩
  · intro name outside
    unfold Thread.enter
    rw [if_neg (fun clash => nomatch clash), closed.mpr outside, outside]
    unfold Connection.visible
    rw [closed.mpr outside]
  · intro answer careful block isBlocks
    rcases leave_ends kept careful isBlocks with ⟨ends, _, raises, before⟩
    have isBefore := (before rfl).2
    have isClosed := ends.closed rfl
    have sees : (thread.leave answer).connection.visible = (thread.leave answer).connection.kept := by
      unfold Connection.visible
      rw [isClosed]
    have well : (thread.leave answer).raising = false ↔ thread.raising = false /\ answer = .done := by
      rw [raises]
      exact and_congr_right (fun _ => ⟨fun isDone => isDone rfl, fun isDone _ => isDone⟩)
    refine ⟨isBefore, well, ?_⟩
    by_cases commits : thread.raising = false /\ answer = .done
    · rw [if_pos commits, <- sees]
      exact ends.stays (well.mpr commits)
    · rw [if_neg commits, <- sees, ends.undone ?_, isBefore]
      apply Bool.of_not_eq_false
      exact fun raises => commits (well.mp raises)

/-- The `COMMIT` of a first block fails, and a second block is left well. -/
def leakingRun : List (Action (List ℕ)) :=
  [.enter 1 true, .write (· ++ [1]), .leave .failed, .caught, .enter 2 true, .write (· ++ [2]), .leave .done]

/-- The `RELEASE` of a block inside another fails, and the other goes on. -/
def strayRun : List (Action (List ℕ)) :=
  [.enter 1 true, .enter 2 true, .write (· ++ [2]), .leave .failed, .caught, .leave .done]

def afterLeak : Thread (List ℕ) := (threadMachine []).run (.start []) leakingRun

def afterStray : Thread (List ℕ) := (threadMachine []).run (.start []) strayRun

/-- The second block began no transaction: its own `COMMIT` is none, and what it wrote is lost at the end of the request. -/
theorem failed_commit_leaks : (threadMachine []).Reachable afterLeak /\ (threadMachine []).Reachable afterStray /\
  (afterLeak.raising = false /\ afterLeak.blocks = [] /\ afterLeak.connection.work ≠ none /\
    (afterLeak.next (.tidy .done)).connection.kept = []) /\
  afterStray.connection.kept = [2] := by
  have leaks : (threadMachine []).Admits (.start []) leakingRun :=
    ⟨rfl, rfl, cons_ne_nil _ _, rfl, rfl, rfl, cons_ne_nil _ _, trivial⟩
  have strays : (threadMachine []).Admits (.start []) strayRun :=
    ⟨rfl, rfl, rfl, cons_ne_nil _ _, rfl, cons_ne_nil _ _, trivial⟩
  have started : (threadMachine ([] : List ℕ)).Reachable (.start []) := .start rfl
  exact ⟨started.run leakingRun leaks, started.run strayRun strays, ⟨rfl, rfl, (fun clash => nomatch clash), rfl⟩, rfl⟩

/-- A block inside another fails and is caught, and the `COMMIT` of the outer one is undone by the engine. -/
def carefulRun : List (Action (List ℕ)) :=
  [.enter 1 true, .write (· ++ [1]), .enter 2 true, .write (· ++ [2]), .raise, .leave .done, .caught]

def afterCare : Thread (List ℕ) := (carefulMachine []).run (.start []) carefulRun

theorem blocks_atomic_caught : afterCare.connection.visible = [1] /\ (afterCare.leave .undone).connection.kept = [] /\
  (afterCare.leave .done).connection.kept = [1] := by
  have admitted : (carefulMachine []).Admits (.start []) carefulRun :=
    ⟨⟨rfl, trivial⟩, ⟨rfl, trivial⟩, ⟨rfl, trivial⟩, ⟨rfl, trivial⟩, ⟨rfl, trivial⟩, ⟨cons_ne_nil _ _, .inl rfl⟩,
      ⟨rfl, trivial⟩, trivial⟩
  have started : (carefulMachine ([] : List ℕ)).Reachable (.start []) := .start rfl
  have atomic := blocks_atomic (started.run carefulRun admitted)
  refine ⟨rfl, ?_, ?_⟩
  · exact (atomic.commits .undone (.inr fun clash => nomatch clash) _ rfl).2.2
  · exact (atomic.commits .done (.inr fun clash => nomatch clash) _ rfl).2.2

end BananaChat.Storage

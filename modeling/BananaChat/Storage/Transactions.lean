import BananaChat.Foundation.Machine
import BananaChat.Foundation.Savepoints

namespace BananaChat.Storage

universe u

open Foundation Foundation.Savepoints

/-!
# Transaction blocks

A thread runs statements on its connection, in blocks of `transaction()` inside one another.
-/

inductive Answer
  | done
  /-- It fails, and the transaction stays open. -/
  | failed
  /-- It fails, and the engine has rolled the transaction back. -/
  | undone
deriving DecidableEq

section Commands

variable {Data : Type u} (connection : Connection Data ℕ)

/-- `COMMIT`, and whether it raises. -/
def commit (answer : Answer) : Connection Data ℕ × Bool :=
  match connection.work, answer with
  | none, _ => (connection, true)
  | some _, .done => (connection.commit, false)
  | some _, .failed => (connection, true)
  | some _, .undone => (connection.rollback, true)

/-- `RELEASE`, and whether it raises. -/
def release (name : ℕ) (answer : Answer) : Connection Data ℕ × Bool :=
  match connection.work with
  | none => (connection, true)
  | some work =>
    match work.release name, answer with
    | none, _ => (connection, true)
    | some after, .done => ({ connection with work := some after }, false)
    | some _, .failed => (connection, true)
    | some _, .undone => (connection.rollback, true)

/-- `ROLLBACK TO` and `RELEASE`, before the exception goes on. -/
def unwind (name : ℕ) (answer : Answer) : Connection Data ℕ :=
  match connection.work with
  | none => connection
  | some work =>
    match work.rollbackTo name with
    | none => connection
    | some after => (release { connection with work := some after } name answer).1

/-- `_safe_close`: the connection that a thread opens after it. -/
def safeClose : Connection Data ℕ := connection.rollback

/-- `release_thread_connection`, and also what is done about an outermost block with an exception. -/
def abandon (answer : Answer) : Connection Data ℕ :=
  match connection.work, answer with
  | some _, .done => connection.rollback
  | _, _ => safeClose connection

end Commands

/-- A block of `transaction()` whose body has begun. -/
structure Block (Data : Type u) where
  /-- The name of its savepoint; none for one that began its transaction. -/
  name : Option ℕ
  before : Data

structure Thread (Data : Type u) where
  connection : Connection Data ℕ
  /-- The blocks that are open, the innermost one first. -/
  blocks : List (Block Data)
  /-- Whether an exception is on its way out. -/
  raising : Bool

def Thread.start {Data : Type u} (data : Data) : Thread Data := ⟨⟨data, none⟩, [], false⟩

inductive Action (Data : Type u)
  | write (change : Data -> Data)
  | raise
  | caught
  /-- A block is entered, with the name that its savepoint gets, unless the command fails. -/
  | enter (name : ℕ) (works : Bool)
  | leave (answer : Answer)
  /-- `release_thread_connection`, outside of all blocks. -/
  | tidy (answer : Answer)
  /-- `close_thread_connection`, outside of all blocks. -/
  | close

namespace Thread

variable {Data : Type u} (thread : Thread Data)

/-- `transaction`, before its body. -/
def enter (name : ℕ) (works : Bool) : Thread Data :=
  if works = false then { thread with raising := true }
  else
    match thread.connection.work with
    | none => { thread with connection := thread.connection.begin, blocks := ⟨none, thread.connection.visible⟩ :: thread.blocks }
    | some work =>
      { thread with
        connection := { thread.connection with work := some (work.savepoint name) }
        blocks := ⟨some name, thread.connection.visible⟩ :: thread.blocks }

/-- `transaction`, after its body. -/
def leave (answer : Answer) : Thread Data :=
  match thread.blocks with
  | [] => thread
  | block :: outer =>
    match block.name, thread.raising with
    | some name, true => ⟨unwind thread.connection name answer, outer, true⟩
    | some name, false => ⟨(release thread.connection name answer).1, outer, (release thread.connection name answer).2⟩
    | none, true => ⟨abandon thread.connection answer, outer, true⟩
    | none, false => ⟨(commit thread.connection answer).1, outer, (commit thread.connection answer).2⟩

def next : Action Data -> Thread Data
  | .write change => { thread with connection := thread.connection.write change }
  | .raise => { thread with raising := true }
  | .caught => { thread with raising := false }
  | .enter name works => thread.enter name works
  | .leave answer => thread.leave answer
  | .tidy answer =>
    match thread.connection.work with
    | none => thread
    | some _ => { thread with connection := abandon thread.connection answer }
  | .close => { thread with connection := safeClose thread.connection }

def Enabled : Action Data -> Prop
  | .write _ | .raise | .enter _ _ => thread.raising = false
  | .caught => thread.raising = true
  | .leave _ => thread.blocks ≠ []
  | .tidy _ | .close => thread.blocks = []

def Careful : Action Data -> Prop
  | .leave answer =>
    match thread.blocks with
    | [] => True
    | block :: outer =>
      match block.name with
      | none => thread.raising = true \/ answer ≠ .failed
      | some name => answer = .done \/ (thread.raising /\ answer = .failed /\ ∀ other ∈ outer, other.name ≠ some name)
  | _ => True

end Thread

def threadMachine {Data : Type u} (data : Data) : Machine (Thread Data) (Action Data) where
  initial := fun thread => thread = .start data
  enabled := Thread.Enabled
  next := Thread.next

def carefulMachine {Data : Type u} (data : Data) : Machine (Thread Data) (Action Data) where
  initial := fun thread => thread = .start data
  enabled := fun thread action => thread.Enabled action /\ thread.Careful action
  next := Thread.next

end BananaChat.Storage

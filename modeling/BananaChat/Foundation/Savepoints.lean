import Mathlib.Data.List.Basic

namespace BananaChat.Foundation

open List

universe u v

/-!
# Savepoints

A transaction keeps a stack of savepoints, each with a name and with what the data was. A name
stands for the last savepoint with that name.
-/

namespace Savepoints

structure Work (Data : Type u) (Name : Type v) where
  data : Data
  /-- The savepoints, the last one first. -/
  points : List (Name × Data)

structure Connection (Data : Type u) (Name : Type v) where
  kept : Data
  work : Option (Work Data Name)

variable {Data : Type u} {Name : Type v}

namespace Work

def find [DecidableEq Name] (name : Name) : List (Name × Data) -> Option (Data × List (Name × Data))
  | [] => none
  | point :: earlier => if point.1 = name then some (point.2, earlier) else find name earlier

variable (work : Work Data Name)

def savepoint (name : Name) : Work Data Name := { work with points := (name, work.data) :: work.points }

/-- `ROLLBACK TO`; none where there is no such savepoint. -/
def rollbackTo [DecidableEq Name] (name : Name) : Option (Work Data Name) :=
  (find name work.points).map (fun found => ⟨found.1, (name, found.1) :: found.2⟩)

/-- `RELEASE`; none where there is no such savepoint. -/
def release [DecidableEq Name] (name : Name) : Option (Work Data Name) :=
  (find name work.points).map (fun found => ⟨work.data, found.2⟩)

end Work

namespace Connection

variable (connection : Connection Data Name)

def visible : Data :=
  match connection.work with
  | none => connection.kept
  | some work => work.data

def write (change : Data -> Data) : Connection Data Name :=
  match connection.work with
  | none => { connection with kept := change connection.kept }
  | some work => { connection with work := some { work with data := change work.data } }

def begin : Connection Data Name := { connection with work := some ⟨connection.kept, []⟩ }

def commit : Connection Data Name := ⟨connection.visible, none⟩

def rollback : Connection Data Name := { connection with work := none }

end Connection

namespace Work

def Holds : List (Name × Data) -> List (Name × Data) -> Prop
  | [], _ => True
  | block :: outer, points => ∃ left earlier, points = left ++ block :: earlier /\
      (∀ point ∈ left, ∀ other ∈ block :: outer, point.1 ≠ other.1) /\ Holds outer earlier

theorem find_append [DecidableEq Name] {name : Name} {left : List (Name × Data)} (apart : ∀ point ∈ left, point.1 ≠ name) (data : Data)
  (earlier : List (Name × Data)) : find name (left ++ (name, data) :: earlier) = some (data, earlier) := by
  induction left with
  | nil => exact if_pos rfl
  | cons point left ih =>
    rw [cons_append, find, if_neg (apart point mem_cons_self)]
    exact ih (fun other mem => apart other (mem_cons_of_mem point mem))

theorem Holds.savepoint {blocks points : List (Name × Data)} (holds : Holds blocks points) (block : Name × Data) :
  Holds (block :: blocks) (block :: points) :=
  ⟨[], points, rfl, nofun, holds⟩

theorem Holds.find [DecidableEq Name] {block : Name × Data} {outer points : List (Name × Data)} (holds : Holds (block :: outer) points) :
  ∃ earlier, Work.find block.1 points = some (block.2, earlier) /\ Holds outer earlier := by
  rcases holds with ⟨_, earlier, isPoints, apart, rest⟩
  refine ⟨earlier, ?_, rest⟩
  rw [isPoints]
  exact find_append (fun point mem => apart point mem block mem_cons_self) block.2 earlier

theorem Holds.leave {block : Name × Data} {outer earlier : List (Name × Data)} (holds : Holds outer earlier)
  (apart : ∀ other ∈ outer, block.1 ≠ other.1) : Holds outer (block :: earlier) := by
  cases outer with
  | nil => trivial
  | cons next outer =>
    rcases holds with ⟨left, rest, isEarlier, leftApart, inner⟩
    refine ⟨block :: left, rest, by rw [isEarlier, cons_append], ?_, inner⟩
    intro point mem other isOther
    rcases mem_cons.mp mem with same | old
    · rw [same]
      exact apart other isOther
    · exact leftApart point old other isOther

end Work

end Savepoints
end BananaChat.Foundation

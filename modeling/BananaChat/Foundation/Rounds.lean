import Mathlib.Data.List.Perm.Basic

namespace BananaChat.Foundation

open List

/-!
# Rounds of calls and their results

A conversation is a sequence of turns, each with the identifiers of its calls, and of results.
-/

inductive Event (Id : Type)
  | turn (calls : List Id)
  | result (id : Id)

variable {Id : Type}

inductive Rounds : List (Event Id) -> Prop
  | nil : Rounds []
  | round {calls answered : List Id} {rest : List (Event Id)} :
      calls.Nodup -> answered.Perm calls -> Rounds rest -> Rounds (.turn calls :: answered.map .result ++ rest)

theorem Rounds.append {first second : List (Event Id)} (rounds : Rounds first) (more : Rounds second) :
  Rounds (first ++ second) := by
  induction rounds with
  | nil => exact more
  | round distinct all _ ih =>
    rw [append_assoc]
    exact .round distinct all ih

inductive Unsettled (unanswered : List Id) : List (Event Id) -> Prop
  | idle {events : List (Event Id)} : unanswered = [] -> Rounds events -> Unsettled unanswered events
  | asked {earlier : List (Event Id)} {calls answered : List Id} :
      Rounds earlier -> calls.Nodup -> (answered ++ unanswered).Perm calls ->
      Unsettled unanswered (earlier ++ (.turn calls :: answered.map .result))

variable {events : List (Event Id)}

theorem Unsettled.settled (unsettled : Unsettled [] events) : Rounds events := by
  cases unsettled with
  | idle _ rounds => exact rounds
  | asked earlier distinct all =>
    rw [append_nil] at all
    have last := Rounds.round distinct all Rounds.nil
    rw [append_nil] at last
    exact earlier.append last

variable {unanswered : List Id}

theorem Unsettled.nodup (unsettled : Unsettled unanswered events) : unanswered.Nodup := by
  cases unsettled with
  | idle empty _ =>
    rw [empty]
    exact nodup_nil
  | asked earlier distinct all => exact (nodup_append.mp (all.nodup_iff.mpr distinct)).2.1

theorem Unsettled.turn (unsettled : Unsettled [] events) {calls : List Id}
  (distinct : calls.Nodup) : Unsettled calls (events ++ [.turn calls]) :=
  @Unsettled.asked Id calls events calls [] unsettled.settled distinct (List.Perm.refl calls)

theorem Unsettled.result [DecidableEq Id]
  (unsettled : Unsettled unanswered events) {id : Id} (isOpen : id ∈ unanswered) :
  Unsettled (unanswered.erase id) (events ++ [.result id]) := by
  cases unsettled with
  | idle empty _ =>
    rw [empty] at isOpen
    cases isOpen
  | @asked earlier calls answered rounds distinct all =>
    have regrouped : earlier ++ (.turn calls :: answered.map .result) ++ [.result id] =
        earlier ++ (.turn calls :: (answered ++ [id]).map Event.result) := by
      rw [append_assoc, map_append]
      rfl
    rw [regrouped]
    refine .asked rounds distinct ?_
    rw [append_assoc]
    exact ((perm_cons_erase isOpen).symm.append_left answered).trans all

end BananaChat.Foundation

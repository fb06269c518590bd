import Mathlib.Order.Basic
import Mathlib.Data.Nat.Find

namespace BananaChat.Foundation

open Option Function

/-!
# Chains of links

Every item has at most one link.  A link that is set closes no loop where the chain
behind its target does not come by the item.
-/

universe u

variable {Item : Type u}

def follow (link : Item -> Option Item) : ℕ -> Item -> Option Item
  | 0, item => some item
  | count + 1, item => (link item).bind (follow link count)

def Acyclic (link : Item -> Option Item) : Prop := ∀ count item, follow link (count + 1) item ≠ some item

variable {link after : Item -> Option Item} {item target found : Item} {count : ℕ}

theorem follow_succ (isLink : link item = some target) : follow link (count + 1) item = follow link count target := by
  rw [follow, isLink, bind_some]

theorem follow_end (noLink : link item = none) : follow link (count + 1) item = none := by
  rw [follow, noLink, bind_none]

theorem follow_add (first second : ℕ) (item : Item) :
  follow link (first + second) item = (follow link first item).bind (follow link second) := by
  induction first generalizing item with
  | zero =>
    rw [Nat.zero_add]
    rfl
  | succ first ih =>
    rw [Nat.succ_add]
    cases isLink : link item with
    | none => rw [follow_end isLink, follow_end isLink, bind_none]
    | some target => rw [follow_succ isLink, follow_succ isLink, ih]

theorem follow_later {more : ℕ} (ended : follow link count item = none) (le : count <= more) : follow link more item = none := by
  rw [<- Nat.add_sub_cancel' le, follow_add, ended, bind_none]

theorem follow_mono (fewer : ∀ item target, after item = some target -> link item = some target)
  (isFound : follow after count item = some found) : follow link count item = some found := by
  induction count generalizing item with
  | zero => exact isFound
  | succ count ih =>
    cases isLink : after item with
    | none =>
      rw [follow_end isLink] at isFound
      cases isFound
    | some target =>
      rw [follow_succ isLink] at isFound
      rw [follow_succ (fewer item target isLink)]
      exact ih isFound

theorem Acyclic.mono (acyclic : Acyclic link) (fewer : ∀ item target, after item = some target -> link item = some target) :
  Acyclic after :=
  fun count item loop => acyclic count item (follow_mono fewer loop)

variable [DecidableEq Item]

theorem follow_update {source : Item} {value : Option Item} (apart : ∀ early, early < count -> follow link early item ≠ some source) :
  follow (update link source value) count item = follow link count item := by
  induction count generalizing item with
  | zero => rfl
  | succ count ih =>
    have other : item ≠ source := fun same => apart 0 (Nat.succ_pos _) (congrArg some same)
    have sameLink : update link source value item = link item := update_of_ne other _ _
    cases isLink : link item with
    | none => rw [follow_end isLink, follow_end (sameLink.trans isLink)]
    | some next =>
      rw [follow_succ isLink, follow_succ (sameLink.trans isLink)]
      apply ih
      intro early below
      rw [<- follow_succ isLink]
      exact apart (early + 1) (Nat.succ_lt_succ below)

theorem Acyclic.update (acyclic : Acyclic link) (clear : ∀ count, follow link count target ≠ some item) :
  Acyclic (Function.update link item (some target)) := by
  intro count start loop
  by_cases passes : ∃ early, early <= count /\ follow link early start = some item
  · -- The loop goes through the item, and so through its new link.
    let early := Nat.find passes
    have isEarly : early <= count /\ follow link early start = some item := Nat.find_spec passes
    have first (before : ℕ) (below : before < early) : follow link before start ≠ some item := by
      intro also
      exact Nat.find_min passes below ⟨below.le.trans isEarly.1, also⟩
    have reached : follow (Function.update link item (some target)) early start = some item := by
      rw [follow_update first, isEarly.2]
    have turned : follow (Function.update link item (some target)) (count + 1) item = some item := by
      have twice := @follow_add _ (Function.update link item (some target)) (count + 1) early start
      rw [loop, bind_some, reached, Nat.add_comm, follow_add, reached, bind_some] at twice
      exact twice
    rw [follow_succ (Function.update_self _ _ _), follow_update fun before _ => clear before] at turned
    exact clear count turned
  · have apart (early : ℕ) (below : early < count + 1) : follow link early start ≠ some item :=
      fun also => passes ⟨early, Nat.le_of_lt_succ below, also⟩
    rw [follow_update apart] at loop
    exact acyclic count start loop

end BananaChat.Foundation

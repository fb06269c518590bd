import BananaChat.Foundation.Links
import Mathlib.Data.List.Nodup

namespace BananaChat.Models

/-!
# Replacements of deprecated models

The chain behind a replacement is walked one row at a time before the transaction that
writes the link.
-/

open Foundation List Option Bool Function

structure ModelRow where
  backend : String
  replacementId : Option ℕ
  deprecated : Bool
  retired : Bool

abbrev Catalogue : Type := ℕ -> Option ModelRow

/-- An id that is not `None` and not `0`. -/
def truthy (id : Option ℕ) : Option ℕ := id.filter fun number => number != 0

def ModelRow.link (row : ModelRow) : Option ℕ := truthy row.replacementId

section

variable (catalogue : Catalogue)

def links (model : ℕ) : Option ℕ := (catalogue model).bind ModelRow.link

/-- `set_lifecycle` of one row. -/
def setLifecycle (model : ℕ) (fields : ModelRow -> ModelRow) : Catalogue :=
  update catalogue model ((catalogue model).map fields)

inductive Refusal where
  | gone
  | itself
  | otherKind
  | retired
  | loop

/-- Where a call of `deprecate` stands: `current` is the row that `_check_replacement` read last. -/
inductive Call where
  | idle
  | walking (model chosen : ℕ) (seen : List ℕ) (current : Option (ℕ × ModelRow)) (left : ℕ)
  | writing (model : ℕ) (replacement : Option ℕ)
  | refused (refusal : Refusal)

def read (model : ℕ) : Option (ℕ × ModelRow) := (catalogue model).map (Prod.mk model)

/-- `_check_replacement` up to its loop. -/
def checkReplacement (model : ℕ) (backend : String) (replacement : Option ℕ) : Call :=
  match truthy replacement with
  | none => .writing model none
  | some chosen =>
    match catalogue chosen with
    | none => .refused .gone
    | some row =>
      if chosen = model then
        .refused .itself
      else if row.backend ≠ backend then
        .refused .otherKind
      else if row.retired then
        .refused .retired
      else
        .walking model chosen [model] (some (chosen, row)) 20

/-- One pass of the loop of `_check_replacement`. -/
def Call.walk : Call -> Call
  | .walking model chosen _ _ 0 => .writing model (some chosen)
  | .walking model chosen _ none (_ + 1) => .writing model (some chosen)
  | .walking model chosen seen (some (id, row)) (left + 1) =>
    match row.link with
    | none => .writing model (some chosen)
    | some next =>
      if next ∈ seen then
        .refused .loop
      else
        .walking model chosen (id :: seen) (read catalogue next) left
  | call => call

end

/-- `linked` counts the links that were set, and `began` keeps the count when a call began: both are history. -/
structure State where
  catalogue : Catalogue
  calls : ℕ -> Call
  linked : ℕ
  began : ℕ -> ℕ

def first (catalogue : Catalogue) : State := ⟨catalogue, fun _ => .idle, 0, fun _ => 0⟩

inductive Action where
  | check (call model : ℕ) (backend : String) (replacement : Option ℕ)
  | walk (call : ℕ)
  | write (call : ℕ)
  | undeprecate (model : ℕ)
  | retire (model : ℕ)

def State.next (state : State) : Action -> State
  | .check call model backend replacement =>
    { state with
      calls := update state.calls call (checkReplacement state.catalogue model backend replacement)
      began := update state.began call state.linked }
  | .walk call => { state with calls := update state.calls call ((state.calls call).walk state.catalogue) }
  | .write call =>
    match state.calls call with
    | .writing model replacement =>
      { state with
        catalogue := setLifecycle state.catalogue model fun row =>
          { row with deprecated := true, replacementId := replacement, retired := false }
        calls := update state.calls call .idle
        linked := if replacement.isSome then state.linked + 1 else state.linked }
    | _ => state
  | .undeprecate model =>
    { state with
      catalogue := setLifecycle state.catalogue model fun row => { row with deprecated := false, replacementId := none, retired := false } }
  | .retire model =>
    { state with catalogue := setLifecycle state.catalogue model fun row => { row with deprecated := true, retired := true } }

/-- No link was set since the check began, and the chain of the replacement has at most 20 links. -/
def Orderly (state : State) : Action -> Prop
  | .write call =>
    match state.calls call with
    | .writing _ (some chosen) => state.began call = state.linked /\ follow (links state.catalogue) 21 chosen = none
    | _ => True
  | _ => True

inductive Reached : State -> Prop where
  | start {catalogue : Catalogue} (acyclic : Acyclic (links catalogue)) : Reached (first catalogue)
  | step {state : State} {action : Action} (reached : Reached state) (orderly : Orderly state action) : Reached (state.next action)

def Call.Sound (link : ℕ -> Option ℕ) : Call -> Prop
  | .walking model chosen seen current left =>
    left <= 20 /\ chosen ≠ 0 /\ model ∈ seen /\ (∀ count, count <= 20 - left -> follow link count chosen ≠ some model) /\
      (∀ id next, follow link (20 - left) chosen = some id -> link id = some next ->
        (current.bind fun read => read.2.link) = some next)
  | .writing model (some chosen) => chosen ≠ 0 /\ ∀ count, count <= 20 -> follow link count chosen ≠ some model
  | _ => True

structure Kept (state : State) : Prop where
  acyclic : Acyclic (links state.catalogue)
  sound : ∀ call, state.began call = state.linked -> (state.calls call).Sound (links state.catalogue)
  past : ∀ call, state.began call <= state.linked

variable {catalogue : Catalogue} {link after : ℕ -> Option ℕ} {call : Call} {state : State} {model : ℕ}

theorem Call.Sound.mono (sound : call.Sound link) (fewer : ∀ item target, after item = some target -> link item = some target) :
  call.Sound after := by
  cases call with
  | idle | refused => trivial
  | walking model chosen seen current left =>
    rcases sound with ⟨le, nonzero, own, clear, known⟩
    refine ⟨le, nonzero, own, fun count below at_ => clear count below (follow_mono fewer at_), ?_⟩
    intro id next isHere isNext
    exact known id next (follow_mono fewer isHere) (fewer id next isNext)
  | writing model replacement =>
    cases replacement with
    | none => trivial
    | some chosen => exact ⟨sound.1, fun count below at_ => sound.2 count below (follow_mono fewer at_)⟩

theorem checkReplacement_sound (catalogue : Catalogue) (model : ℕ) (backend : String) (replacement : Option ℕ) :
  (checkReplacement catalogue model backend replacement).Sound (links catalogue) := by
  unfold checkReplacement
  split
  · trivial
  · rename_i chosen isChosen
    have nonzero : chosen ≠ 0 := bne_iff_ne.mp (filter_eq_some_iff.mp isChosen).2
    split
    · trivial
    · rename_i row isRow
      split
      · trivial
      · rename_i differs
        split
        · trivial
        · split
          · trivial
          · refine ⟨le_rfl, nonzero, mem_cons_self, ?_, ?_⟩
            · intro _ below
              cases Nat.le_zero.mp below
              exact fun same => differs (some.inj same)
            · intro _ _ isHere isNext
              cases isHere
              rw [links, isRow] at isNext
              exact isNext

theorem Call.Sound.walk (sound : call.Sound (links catalogue)) : (call.walk catalogue).Sound (links catalogue) := by
  cases call with
  | idle | refused => trivial
  | writing model replacement => exact sound
  | walking model chosen seen current left =>
    rcases sound with ⟨le, nonzero, own, clear, known⟩
    have ended (left : ℕ) (le : left + 1 <= 20) (clear : ∀ count, count <= 20 - (left + 1) -> follow (links catalogue) count chosen ≠ some model)
        (unknown : ∀ id next, follow (links catalogue) (20 - (left + 1)) chosen = some id -> links catalogue id = some next -> False) :
        Call.Sound (links catalogue) (.writing model (some chosen)) := by
      refine ⟨nonzero, fun count _ at_ => ?_⟩
      rcases Nat.lt_or_ge (20 - (left + 1)) count with further | early
      · rw [<- Nat.add_sub_of_le further, Nat.succ_eq_add_one, Nat.add_assoc, follow_add] at at_
        rcases bind_eq_some_iff.mp at_ with ⟨id, isHere, rest⟩
        cases isNext : links catalogue id with
        | none =>
          rw [Nat.add_comm, follow_end isNext] at rest
          cases rest
        | some next => exact unknown id next isHere isNext
      · exact clear count early at_
    cases left with
    | zero => exact ⟨nonzero, clear⟩
    | succ left =>
      cases current with
      | none =>
        refine ended left le clear fun id next isHere isNext => ?_
        cases known id next isHere isNext
      | some current =>
        unfold Call.walk
        dsimp only
        cases isLink : current.2.link with
        | none =>
          refine ended left le clear fun id next isHere isNext => ?_
          have same := known id next isHere isNext
          rw [bind_some, isLink] at same
          cases same
        | some next =>
          dsimp only
          split
          · trivial
          · rename_i unseen
            have steps : 20 - left = 20 - (left + 1) + 1 := by omega
            have isNext (id : ℕ) (isThere : follow (links catalogue) (20 - left) chosen = some id) : id = next := by
              rw [steps, follow_add] at isThere
              rcases bind_eq_some_iff.mp isThere with ⟨here, isHere, rest⟩
              cases isOther : links catalogue here with
              | none =>
                rw [follow_end isOther] at rest
                cases rest
              | some other =>
                rw [follow_succ isOther] at rest
                have same := known here other isHere isOther
                rw [bind_some, isLink] at same
                exact (some.inj rest).symm.trans (some.inj same).symm
            refine ⟨(Nat.le_succ left).trans le, nonzero, mem_cons_of_mem _ own, ?_, ?_⟩
            · intro count below at_
              rcases Nat.lt_or_ge (20 - (left + 1)) count with further | early
              · cases Nat.le_antisymm below (steps ▸ further)
                exact unseen (isNext model at_ ▸ own)
              · exact clear count early at_
            · intro id _ isThere isTarget
              cases isNext id isThere
              unfold links at isTarget
              cases isRow : catalogue next with
              | none =>
                rw [isRow] at isTarget
                cases isTarget
              | some row =>
                rw [isRow] at isTarget
                rw [read, isRow]
                exact isTarget

theorem links_setLifecycle (fields : ModelRow -> ModelRow) (model item : ℕ) :
  links (setLifecycle catalogue model fields) item =
    if item = model then (catalogue model).bind fun row => (fields row).link else links catalogue item := by
  unfold links setLifecycle
  rcases eq_or_ne item model with rfl | other
  · rw [update_self, if_pos rfl, bind_map]
    rfl
  · rw [update_of_ne other, if_neg other]

theorem links_fewer (model : ℕ) {fields : ModelRow -> ModelRow} (keeps : ∀ row, (fields row).link = row.link \/ (fields row).link = none)
  (item target : ℕ) (isLink : links (setLifecycle catalogue model fields) item = some target) : links catalogue item = some target := by
  rw [links_setLifecycle] at isLink
  split at isLink
  · rename_i same
    rw [same]
    rcases bind_eq_some_iff.mp isLink with ⟨row, isRow, isTarget⟩
    rw [links, isRow]
    rcases keeps row with kept | cleared
    · exact kept.symm.trans isTarget
    · cases cleared.symm.trans isTarget
  · exact isLink

theorem Kept.fewer (kept : Kept state)
  (fewer : ∀ item target, links catalogue item = some target -> links state.catalogue item = some target) :
  Kept { state with catalogue } :=
  ⟨kept.acyclic.mono fewer, fun call isNow => (kept.sound call isNow).mono fewer, kept.past⟩

theorem Kept.setCall (kept : Kept state) (number : ℕ) (sound : state.began number = state.linked -> call.Sound (links state.catalogue)) :
  Kept { state with calls := update state.calls number call } := by
  refine ⟨kept.acyclic, fun other isNow => ?_, kept.past⟩
  dsimp only
  rcases eq_or_ne other number with rfl | differs
  · rw [update_self]
    exact sound isNow
  · rw [update_of_ne differs]
    exact kept.sound other isNow

theorem next_kept (kept : Kept state) (action : Action) (orderly : Orderly state action) : Kept (state.next action) := by
  cases action with
  | check number model backend replacement =>
    have begun : Kept { state with began := update state.began number state.linked, calls := update state.calls number .idle } := by
      refine ⟨kept.acyclic, fun other isNow => ?_, fun other => ?_⟩
      · dsimp only at isNow ⊢
        rcases eq_or_ne other number with rfl | differs
        · rw [update_self]
          trivial
        · rw [update_of_ne differs] at isNow ⊢
          exact kept.sound other isNow
      · dsimp only
        rcases eq_or_ne other number with rfl | differs
        · rw [update_self]
        · rw [update_of_ne differs]
          exact kept.past other
    have checked := begun.setCall number fun _ => checkReplacement_sound state.catalogue model backend replacement
    rw [update_idem] at checked
    exact checked
  | walk number => exact kept.setCall number fun isNow => (kept.sound number isNow).walk
  | undeprecate model => exact kept.fewer (links_fewer model fun _ => .inr rfl)
  | retire model => exact kept.fewer (links_fewer model fun _ => .inl rfl)
  | write number =>
    unfold State.next
    unfold Orderly at orderly
    dsimp only at orderly ⊢
    cases isCall : state.calls number with
    | idle | walking | refused => exact kept
    | writing model replacement =>
      rw [isCall] at orderly
      cases replacement with
      | none =>
        have written := kept.fewer (links_fewer model fun row => (Or.inr rfl : (ModelRow.link { row with deprecated := true, replacementId := none, retired := false }) = row.link \/ _))
        exact written.setCall number fun _ => trivial
      | some chosen =>
        dsimp only at orderly ⊢
        have sound := kept.sound number orderly.1
        rw [isCall] at sound
        have clear (count : ℕ) : follow (links state.catalogue) count chosen ≠ some model := by
          rcases Nat.lt_or_ge 20 count with long | short
          · rw [follow_later orderly.2 long]
            exact fun same => by cases same
          · exact sound.2 count short
        refine ⟨(kept.acyclic.update clear).mono fun item target isLink => ?_, fun other isNow => ?_, fun other => ?_⟩
        · rw [links_setLifecycle] at isLink
          split at isLink
          · rename_i same
            rw [same, update_self]
            rcases bind_eq_some_iff.mp isLink with ⟨_, _, isTarget⟩
            have same : truthy (some chosen) = some target := isTarget
            exact (filter_eq_some_iff.mp same).1
          · rename_i other
            rw [update_of_ne other]
            exact isLink
        · have old := kept.past other
          dsimp only at isNow
          rw [isSome_some, if_pos rfl] at isNow
          omega
        · have old := kept.past other
          dsimp only
          rw [isSome_some, if_pos rfl]
          omega

theorem Reached.kept (reached : Reached state) : Kept state := by
  induction reached with
  | start acyclic => exact ⟨acyclic, fun _ _ => trivial, fun _ => le_rfl⟩
  | step _ orderly ih => exact next_kept ih _ orderly

/-- The loop of `replacement_for`, with the models it has read, the newest first. -/
def following (catalogue : Catalogue) (canUse : ℕ -> ModelRow -> Bool) :
    ℕ -> List ℕ -> ModelRow -> Option ℕ -> List ℕ × Option ℕ
  | 0, seen, _, fallback => (seen, fallback)
  | left + 1, seen, current, fallback =>
    match current.link with
    | none => (seen, fallback)
    | some next =>
      if next ∈ seen then
        (seen, fallback)
      else
        match catalogue next with
        | none => (next :: seen, fallback)
        | some row =>
          if row.retired \/ canUse next row = false then
            following catalogue canUse left (next :: seen) row fallback
          else if row.deprecated = false then
            (next :: seen, some next)
          else
            following catalogue canUse left (next :: seen) row (fallback.or (some next))

section

variable (catalogue : Catalogue) (canUse : ℕ -> ModelRow -> Bool) (model : ℕ)

def replacementFor (row : ModelRow) : List ℕ × Option ℕ := following catalogue canUse 20 [model] row none

def Fit : Prop := ∃ row, catalogue model = some row /\ row.retired = false /\ canUse model row

end

def OnChain (catalogue : Catalogue) (start model : ℕ) : Prop := ∃ count, follow (links catalogue) count start = some model

variable {canUse : ℕ -> ModelRow -> Bool} {start here : ℕ} {row : ModelRow} {seen : List ℕ} {fallback : Option ℕ}

theorem following_sound (left : ℕ) (isRow : catalogue here = some row) (reached : OnChain catalogue start here) (own : start ∈ seen)
  (distinct : seen.Nodup) (onChain : ∀ model ∈ seen, OnChain catalogue start model)
  (fine : ∀ found, fallback = some found -> found ≠ start /\ Fit catalogue canUse found /\ OnChain catalogue start found) :
  (following catalogue canUse left seen row fallback).1.Nodup /\
    (∀ model ∈ (following catalogue canUse left seen row fallback).1, OnChain catalogue start model) /\
    ∀ found, (following catalogue canUse left seen row fallback).2 = some found ->
      found ≠ start /\ Fit catalogue canUse found /\ OnChain catalogue start found := by
  induction left generalizing here row seen fallback with
  | zero => exact ⟨distinct, onChain, fine⟩
  | succ left ih =>
    unfold following
    split
    · exact ⟨distinct, onChain, fine⟩
    · rename_i next isNext
      split
      · exact ⟨distinct, onChain, fine⟩
      · rename_i unseen
        have further : OnChain catalogue start next := by
          rcases reached with ⟨count, isHere⟩
          refine ⟨count + 1, ?_⟩
          have isLink : links catalogue here = some next := by rw [links, isRow, bind_some, isNext]
          rw [follow_add, isHere, bind_some, follow_succ isLink]
          rfl
        have nowDistinct : (next :: seen).Nodup := nodup_cons.mpr ⟨unseen, distinct⟩
        have nowOnChain (model : ℕ) (mem : model ∈ next :: seen) : OnChain catalogue start model := by
          rcases mem_cons.mp mem with rfl | old
          · exact further
          · exact onChain model old
        split
        · exact ⟨nowDistinct, nowOnChain, fine⟩
        · rename_i nextRow isNextRow
          split
          · exact ih isNextRow further (.tail _ own) nowDistinct nowOnChain fine
          · rename_i fits
            have good : next ≠ start /\ Fit catalogue canUse next /\ OnChain catalogue start next := by
              refine ⟨fun same => unseen (same ▸ own), ⟨nextRow, isNextRow, ?_, ?_⟩, further⟩
              · exact eq_false_iff.mpr fun retired => fits (.inl retired)
              · exact not_eq_false _ ▸ fun unusable => fits (.inr unusable)
            split
            · refine ⟨nowDistinct, nowOnChain, fun found same => ?_⟩
              cases same
              exact good
            · refine ih isNextRow further (.tail _ own) nowDistinct nowOnChain fun found same => ?_
              rcases or_eq_some_iff.mp same with old | ⟨_, new⟩
              · exact fine found old
              · cases new
                exact good

theorem following_isSome (acyclic : Acyclic (links catalogue)) (left : ℕ) (isRow : catalogue here = some row)
  (behind : ∀ model ∈ seen, OnChain catalogue model here) (ahead : fallback.isSome \/ ∃ count, count < left /\
    ∃ found, follow (links catalogue) (count + 1) here = some found /\ Fit catalogue canUse found) :
  (following catalogue canUse left seen row fallback).2.isSome := by
  induction left generalizing here row seen fallback with
  | zero =>
    rcases ahead with kept | ⟨count, below, _⟩
    · exact kept
    · cases below
  | succ left ih =>
    unfold following
    have isLink : links catalogue here = row.link := by rw [links, isRow, bind_some]
    cases isNext : row.link with
    | none =>
      rcases ahead with kept | ⟨count, _, found, isFound, _⟩
      · exact kept
      · rw [follow_end (isLink.trans isNext)] at isFound
        cases isFound
    | some next =>
      rw [isNext] at isLink
      dsimp only
      have unseen : next ∉ seen := by
        intro mem
        rcases behind next mem with ⟨count, loop⟩
        refine acyclic count here ?_
        rw [Nat.add_comm, follow_add, follow_succ isLink]
        exact loop
      rw [if_neg unseen]
      have nowBehind (model : ℕ) (mem : model ∈ next :: seen) : OnChain catalogue model next := by
        rcases mem_cons.mp mem with rfl | old
        · exact ⟨0, rfl⟩
        · rcases behind model old with ⟨count, isHere⟩
          refine ⟨count + 1, ?_⟩
          rw [follow_add, isHere, bind_some, follow_succ isLink]
          rfl
      cases isRow : catalogue next with
      | none =>
        rcases ahead with kept | ⟨count, _, found, isFound, ⟨_, isFoundRow, _⟩⟩
        · exact kept
        · rw [follow_succ isLink] at isFound
          cases count with
          | zero =>
            cases isFound
            cases isRow.symm.trans isFoundRow
          | succ count =>
            have noLink : links catalogue next = none := by rw [links, isRow, bind_none]
            rw [follow_end noLink] at isFound
            cases isFound
      | some nextRow =>
        dsimp only
        -- What is ahead is the next model itself or lies further along.
        have rest (unfit : ¬ Fit catalogue canUse next) : fallback.isSome \/ ∃ count, count < left /\
            ∃ found, follow (links catalogue) (count + 1) next = some found /\ Fit catalogue canUse found := by
          rcases ahead with kept | ⟨count, below, found, isFound, fits⟩
          · exact .inl kept
          · rw [follow_succ isLink] at isFound
            cases count with
            | zero =>
              cases isFound
              exact absurd fits unfit
            | succ count => exact .inr ⟨count, Nat.lt_of_succ_lt_succ below, found, isFound, fits⟩
        split
        · rename_i unfit
          refine ih isRow nowBehind (rest ?_)
          rintro ⟨_, isOther, notRetired, usable⟩
          cases isRow.symm.trans isOther
          rcases unfit with retired | unusable
          · exact false_ne_true (notRetired.symm.trans retired)
          · exact false_ne_true (unusable.symm.trans usable)
        · split
          · rfl
          · refine ih isRow nowBehind (.inl ?_)
            cases fallback <;> rfl

def twoModels : Catalogue := fun model => if model = 1 \/ model = 2 then some ⟨"ollama", none, false, false⟩ else none

theorem twoModels_acyclic : Acyclic (links twoModels) := by
  have none (model : ℕ) : links twoModels model = none := by
    unfold links twoModels
    split <;> rfl
  intro _ item loop
  rw [follow_end (none item)] at loop
  cases loop

/-- Two calls whose checks both end before either link is written. -/
def crossed : List Action :=
  [.check 0 1 "ollama" (some 2), .check 1 2 "ollama" (some 1), .walk 0, .walk 1, .write 0, .write 1]

end BananaChat.Models

import BananaChat.Providers.Converted

namespace BananaChat.Providers

open Foundation List Bool

/-!
# Signed thinking that goes back

`_replay` decides which thinking blocks of streamed turns a request sends again.
-/

variable {Json : Type}

inductive ThinkingMode
  | adaptive
  | budget
deriving DecidableEq

/-- What `_replay` takes from the standard library, and the size of a thinking block. -/
structure Hashing (Json : Type) where
  canonical : Item Json -> List UInt8
  /-- `hexdigest`, of all that was hashed. -/
  sha256 : List UInt8 -> String
  /-- The lengths of `thinking`, `signature` and `data` together. -/
  chars : Json -> ℕ

def replayThinkingChars : ℕ := 300000

def Block.isThinking : Block Json -> Bool
  | .thinking _ => true
  | _ => false

def Block.thinkingChars (hashing : Hashing Json) : Block Json -> ℕ
  | .thinking block => hashing.chars block
  | _ => 0

def Item.hasThinking (item : Item Json) : Bool := item.content.blockList.any Block.isThinking

def Item.thinkingChars (hashing : Hashing Json) (item : Item Json) : ℕ :=
  (item.content.blockList.map (Block.thinkingChars hashing)).sum

def Record.thinkingChars (hashing : Hashing Json) (record : Record Json) : ℕ :=
  ((record.content.getD []).map (Block.thinkingChars hashing)).sum

def Item.withoutThinking (item : Item Json) : Item Json :=
  { item with content := .blocks (item.content.blockList.filter (!·.isThinking)) }

/-- The record of the item at a position; `_convert` makes one for a position at most. -/
def recordAt (records : List (ℕ × Record Json)) (position : ℕ) : Option (Record Json) :=
  (records.find? (·.1 = position)).map Prod.snd

def roundChars (hashing : Hashing Json) (records : List (ℕ × Record Json)) (roundStart : ℕ) : ℕ :=
  ((records.filter (roundStart <= ·.1)).map (·.2.thinkingChars hashing)).sum

/-- The loop of `_replay`: the messages to send, what was hashed, and whether records may still be kept. -/
structure Replay (Json : Type) where
  items : List (Item Json)
  hashed : List UInt8
  keep : Bool
  resumable : Bool

def Replay.send (hashing : Hashing Json) (item : Item Json) (resumable : Bool) (state : Replay Json) : Replay Json :=
  { state with
    items := state.items ++ [item]
    hashed := state.hashed ++ hashing.canonical item
    resumable := resumable }

section Loop

variable (hashing : Hashing Json) (records : List (ℕ × Record Json)) (roundStart : ℕ) (mode : Option ThinkingMode)

def Replay.keeps (position : ℕ) (record : Record Json) (state : Replay Json) : Bool :=
  state.keep && (roundStart <= position) && (record.digest = some (hashing.sha256 state.hashed))

/-- The loop of `_replay` for one item. -/
def replayItem (position : ℕ) (item : Item Json) (state : Replay Json) : Replay Json :=
  match recordAt records position with
  | none => state.send hashing item (if item.role = .assistant then false else state.resumable)
  | some record =>
    if state.keeps hashing roundStart position record then
      let thinksFirst := (item.content.blockList.head?.map Block.isThinking).getD false
      state.send hashing item ((mode ≠ some .budget) || thinksFirst)
    else
      let state := { state with keep := state.keep && (position < roundStart) }
      if item.withoutThinking.content.isEmpty then state else state.send hashing item.withoutThinking false

def replayFrom : ℕ -> List (Item Json) -> Replay Json -> Replay Json
  | _, [], state => state
  | position, item :: later, state =>
    replayFrom (position + 1) later (replayItem hashing records roundStart mode position item state)

/-- `_replay`; `header` is what was hashed before the messages. -/
def replay (items : List (Item Json)) (header : List UInt8) : Replay Json :=
  replayFrom hashing records roundStart mode 0 items
    ⟨[], header, mode.isSome && (roundChars hashing records roundStart <= replayThinkingChars), false⟩

end Loop

def rebuiltItem (records : List (ℕ × Record Json)) (roundStart frontier position : ℕ) (item : Item Json) : List (Item Json) :=
  match recordAt records position with
  | none => [item]
  | some _ =>
    if roundStart <= position /\ position < frontier then [item]
    else if item.withoutThinking.content.isEmpty then [] else [item.withoutThinking]

def rebuilt (records : List (ℕ × Record Json)) (roundStart frontier : ℕ) : ℕ -> List (Item Json) -> List (Item Json)
  | _, [] => []
  | position, item :: later =>
    rebuiltItem records roundStart frontier position item ++ rebuilt records roundStart frontier (position + 1) later

def Item.opensRound (item : Item Json) : Bool := (item.role = .user) && !item.onlyResults

def lastRound (items : List (Item Json)) : ℕ := items.length - (items.reverse.takeWhile (!·.opensRound)).length

theorem lastRound_append (items : List (Item Json)) (item : Item Json) :
  lastRound (items ++ [item]) = if item.opensRound then items.length + 1 else lastRound items := by
  unfold lastRound
  rw [reverse_append, reverse_singleton, singleton_append, takeWhile_cons, length_append, length_singleton]
  cases item.opensRound with
  | true => rfl
  | false =>
    change items.length + 1 - ((items.reverse.takeWhile (!·.opensRound)).length + 1) = _
    rw [Nat.add_sub_add_right]
    rfl

structure Recorded (state : Conversion Json) : Prop where
  held : ∀ entry ∈ state.records, ∃ item blocks,
    state.items[entry.1]? = some item /\ item.role = .assistant /\ item.content = .blocks blocks /\
      entry.2.content = some blocks
  increasing : (state.records.map Prod.fst).Pairwise (fun first second => first < second)
  plain : ∀ position item, state.items[position]? = some item ->
    (∀ record, (position, record) ∉ state.records) -> item.hasThinking = false
  round : state.roundStart = lastRound state.items

theorem recorded_start : Recorded (Conversion.start : Conversion Json) := by
  refine ⟨?_, List.Pairwise.nil, ?_, rfl⟩
  · intro _ mem
    cases mem
  · intro _ _ isItem
    cases isItem

variable {state : Conversion Json}

theorem Recorded.inside (recorded : Recorded state) {entry : ℕ × Record Json}
  (mem : entry ∈ state.records) : entry.1 < state.items.length := by
  rcases recorded.held entry mem with ⟨_, _, isItem, _⟩
  exact (List.getElem?_eq_some_iff.mp isItem).1

variable {item : Item Json}

theorem Recorded.append (recorded : Recorded state)
  (none : item.hasThinking = false) (pending : List (Name × String)) :
  Recorded { state with
    items := state.items ++ [item], pending := pending,
    roundStart := if item.opensRound then state.items.length + 1 else state.roundStart } := by
  refine ⟨?_, recorded.increasing, ?_, ?_⟩
  · intro entry mem
    rcases recorded.held entry mem with ⟨found, blocks, isItem, facts⟩
    exact ⟨found, blocks, (getElem?_append_left (recorded.inside mem)).trans isItem, facts⟩
  · intro position found isItem noRecord
    rw [getElem?_append] at isItem
    split at isItem
    · exact recorded.plain position found isItem noRecord
    · rw [(mem_singleton.mp (mem_of_getElem? isItem))]
      exact none
  · rw [lastRound_append, recorded.round]

theorem Recorded.appendRecord (recorded : Recorded state) {item : Item Json}
  {record : Record Json} {blocks : List (Block Json)} (isAssistant : item.role = .assistant)
  (isBlocks : item.content = .blocks blocks) (hasContent : record.content = some blocks) (pending : List (Name × String)) :
  Recorded { state with
    items := state.items ++ [item], pending := pending, records := state.records ++ [(state.items.length, record)] } := by
  refine ⟨?_, ?_, ?_, ?_⟩
  · intro entry mem
    rcases mem_snoc.mp mem with isOld | isNew
    · rcases recorded.held entry isOld with ⟨found, blocks, isItem, facts⟩
      exact ⟨found, blocks, (getElem?_append_left (recorded.inside isOld)).trans isItem, facts⟩
    · cases isNew
      exact ⟨item, blocks, getElem?_concat_length, isAssistant, isBlocks, hasContent⟩
  · rw [map_append, map_singleton, pairwise_append]
    refine ⟨recorded.increasing, pairwise_singleton _ _, ?_⟩
    intro position isOld other isNew
    rcases mem_map.mp isOld with ⟨_, mem, rfl⟩
    rw [mem_singleton.mp isNew]
    exact recorded.inside mem
  · intro position found isItem noRecord
    rw [getElem?_append] at isItem
    split at isItem
    · exact recorded.plain position found isItem
        (fun other mem => noRecord other (mem_append_left _ mem))
    · rename_i beyond
      have last : position = state.items.length := by
        have within := (List.getElem?_eq_some_iff.mp isItem).1
        rw [length_singleton] at within
        omega
      exact absurd (mem_append_right _ (by rw [last]; exact mem_singleton.mpr rfl)) (noRecord record)
  · have notUser : item.opensRound = false := by
      unfold Item.opensRound
      rw [isAssistant]
      rfl
    rw [lastRound_append, notUser, recorded.round]
    rfl

theorem hasThinking_results (only : item.onlyResults) : item.hasThinking = false := by
  have results := (and_eq_true_iff.mp only).2
  unfold Item.hasThinking
  rw [any_eq_false]
  intro block mem thinks
  have isResult := all_eq_true.mp results block mem
  cases block with
  | thinking block => cases isResult
  | part part | toolUse id name input | toolResult id content => cases thinks

theorem opensRound_results (only : item.onlyResults) : item.opensRound = false := by
  unfold Item.opensRound
  rw [only, Bool.not_true, Bool.and_false]

theorem answer_anthropic (items : List (Item Json)) (id : String) (content : Content) :
  ∃ results : Item Json, results.onlyResults /\ (answer .anthropic items id content = items ++ [results] \/
      ∃ before, ∃ previous : Item Json, items = before ++ [previous] /\ previous.onlyResults /\
          answer .anthropic items id content = before ++ [results]) := by
  have alone : (⟨.user, .blocks [.toolResult id content], [], none⟩ : Item Json).onlyResults := rfl
  unfold answer
  cases isLast : items.getLast? with
  | none => exact ⟨_, alone, .inl rfl⟩
  | some previous =>
    dsimp only
    by_cases only : previous.onlyResults
    · rw [if_pos only]
      refine ⟨_, ?_, .inr ⟨items.dropLast, previous, ?_, only, rfl⟩⟩
      · unfold Item.onlyResults at only ⊢
        simp only [and_eq_true] at only
        change (decide (previous.role = .user) && !(previous.content.blockList ++ [Block.toolResult id content]).isEmpty &&
          (previous.content.blockList ++ [Block.toolResult id content]).all Block.isToolResult)
        rw [only.1.1, all_append, only.2]
        cases previous.content.blockList with
        | nil | cons block others => rfl
      · exact (dropLast_append_getLast? previous isLast).symm
    · rw [if_neg only]
      exact ⟨_, alone, .inl rfl⟩

theorem Recorded.answer (recorded : Recorded state) (id : String) (content : Content)
  (pending : List (Name × String)) :
  Recorded { state with items := Providers.answer .anthropic state.items id content, pending := pending } := by
  rcases answer_anthropic state.items id content with ⟨results, only, appended | ⟨before, previous, split, wasResults, replaced⟩⟩
  · have grown := recorded.append (hasThinking_results only) pending
    rw [opensRound_results only] at grown
    rw [appended]
    exact grown
  · rw [replaced]
    have isUser : previous.role = .user := by
      exact of_decide_eq_true (and_eq_true_iff.mp (and_eq_true_iff.mp wasResults).1).1
    -- A record is never at the last position, since results are no turn of an assistant.
    have earlier : ∀ entry ∈ state.records, entry.1 < before.length := by
      intro entry mem
      rcases recorded.held entry mem with ⟨found, blocks, isItem, isAssistant, _⟩
      have within := recorded.inside mem
      rw [split, length_append, length_singleton] at within
      by_contra notEarlier
      have last : entry.1 = before.length := by omega
      rw [split, last, getElem?_concat_length] at isItem
      cases isItem
      rw [isUser] at isAssistant
      cases isAssistant
    refine ⟨?_, recorded.increasing, ?_, ?_⟩
    · intro entry mem
      rcases recorded.held entry mem with ⟨found, blocks, isItem, facts⟩
      rw [split, getElem?_append_left (earlier entry mem)] at isItem
      exact ⟨found, blocks, (getElem?_append_left (earlier entry mem)).trans isItem, facts⟩
    · intro position found isItem noRecord
      rw [getElem?_append] at isItem
      split at isItem
      · rename_i inside
        refine recorded.plain position found ?_ noRecord
        rw [split, getElem?_append_left inside]
        exact isItem
      · rw [mem_singleton.mp (mem_of_getElem? isItem)]
        exact hasThinking_results only
    · rw [recorded.round, split, lastRound_append, lastRound_append, opensRound_results only, opensRound_results wasResults]

end BananaChat.Providers

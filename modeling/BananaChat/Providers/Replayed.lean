import BananaChat.Providers.Replay

namespace BananaChat.Providers

open Foundation List

/-!
# Replayed thinking matches its prefix

First where `_convert` leaves thinking, then what the loop of `_replay` keeps: the records
between the start of the round and a frontier, each bound to exactly what is sent before it.
-/

variable {Json : Type}

variable {state : Conversion Json} {item : Item Json} {library : Library Json} {frontier position : ℕ}

theorem Recorded.answerAll (content : Content) (pending : List (Name × String)) (recorded : Recorded state)
  (left : List (Name × String)) :
  Recorded { state with
    items := pending.foldl (fun items call => Providers.answer .anthropic items call.2 content) state.items
    pending := left } := by
  induction pending generalizing state with
  | nil => exact ⟨recorded.held, recorded.increasing, recorded.plain, recorded.round⟩
  | cons call rest ih => exact ih (recorded.answer call.2 content left)

theorem Recorded.answerPending (recorded : Recorded state) :
  Recorded (state.answerPending .anthropic) :=
  recorded.answerAll (.text toolNotRun) state.pending []

theorem Recorded.addResult (recorded : Recorded state) (name : Name) (content : Content) :
  Recorded (state.addResult .anthropic name content) := by
  unfold Conversion.addResult
  split
  · exact recorded.answer _ content _
  · exact recorded

theorem ofContent_plain (role : Role) (content : Content) (some : (Body.ofContent content : Body Json).isEmpty = false) :
  (⟨role, .ofContent content, [], none⟩ : Item Json).hasThinking = false /\
    (⟨role, .ofContent content, [], none⟩ : Item Json).opensRound = decide (role = .user) := by
  cases content with
  | text value =>
    refine ⟨rfl, ?_⟩
    cases role <;> rfl
  | parts parts =>
    cases parts with
    | nil => cases some
    | cons part others =>
      refine ⟨?_, ?_⟩
      · unfold Item.hasThinking
        rw [any_eq_false]
        intro _ mem thinks
        rcases mem_map.mp mem with ⟨_, _, rfl⟩
        cases thinks
      · cases role <;> rfl

theorem Recorded.addPlain (recorded : Recorded state) {pending : List (Name × String)}
  (none : item.content.isEmpty = false -> item.hasThinking = false)
  (opens : item.content.isEmpty = false -> item.opensRound = decide (item.role = .user)) :
  Recorded (state.addTurn .anthropic ⟨item, pending, Option.none⟩) := by
  unfold Conversion.addTurn
  by_cases empty : item.content.isEmpty
  · rw [if_pos ⟨rfl, empty⟩]
    exact ⟨recorded.held, recorded.increasing, recorded.plain, recorded.round⟩
  · rw [if_neg (empty ·.2)]
    have some := Bool.not_eq_true _ ▸ empty
    have grown := recorded.append (none some) pending
    rw [opens some] at grown
    simp only [decide_eq_true_eq] at grown
    exact grown

variable {index : ℕ} {message : Message Json}

theorem Recorded.addTurn {role : Role} {text : Text} {plain : Content} {turn : Turn Json} (recorded : Recorded state)
  (isRole : message.role = some role)
  (made : turnOf library .anthropic index role text plain message = .ok turn) : Recorded (state.addTurn .anthropic turn) := by
  unfold turnOf at made
  cases replayed : message.replayed .anthropic with
  | some found =>
    rcases found with ⟨record, blocks⟩
    rw [replayed] at made
    cases made
    rcases replayed_facts replayed with ⟨isAssistant, _, hasContent, _⟩
    have roleIs : role = .assistant := Option.some.inj (isRole.symm.trans isAssistant)
    unfold Conversion.addTurn
    dsimp only
    split
    · exact ⟨recorded.held, recorded.increasing, recorded.plain, recorded.round⟩
    · exact @Recorded.appendRecord _ _ recorded ⟨role, .blocks blocks, [], none⟩ record blocks roleIs rfl hasContent _
  | none =>
    rw [replayed] at made
    dsimp only at made
    split at made
    · split at made
      · cases made
      · rename_i named _
        cases made
        refine recorded.addPlain (fun _ => ?_) (fun _ => rfl)
        unfold Item.hasThinking
        rw [any_eq_false]
        intro _ mem thinks
        rcases mem_append.mp mem with isText | isUse
        · split at isText
          · rw [mem_singleton.mp isText] at thinks
            cases thinks
          · cases isText
        · rcases mem_map.mp isUse with ⟨_, _, rfl⟩
          cases thinks
    · cases made
      exact recorded.addPlain (fun some => (ofContent_plain role plain some).1) (fun some => (ofContent_plain role plain some).2)

theorem Recorded.step {next : Conversion Json} (recorded : Recorded state)
  (stepped : convertMessage library .anthropic index message state = .ok next) : Recorded next := by
  unfold convertMessage at stepped
  cases isRole : message.role with
  | none =>
    rw [isRole] at stepped
    cases stepped
  | some role =>
    cases isText : message.content with
    | none =>
      rw [isRole, isText] at stepped
      cases stepped
    | some text =>
      rw [isRole, isText] at stepped
      dsimp only at stepped
      have settled : Recorded (if role = .tool then state else state.answerPending .anthropic) := by
        split
        · exact recorded
        · exact recorded.answerPending
      generalize (if role = .tool then state else state.answerPending .anthropic) = between at stepped settled
      split at stepped
      · cases stepped
        exact ⟨settled.held, settled.increasing, settled.plain, settled.round⟩
      · split at stepped
        · cases stepped
        · split at stepped
          · cases stepped
            exact settled.addResult _ _
          · split at stepped
            · cases stepped
            · rename_i turn made
              cases stepped
              exact settled.addTurn isRole made

variable {messages : List (Message Json)}

theorem Recorded.run {final : Conversion Json} (recorded : Recorded state)
  (ran : convertFrom library .anthropic index messages state = .ok final) : Recorded final := by
  induction messages generalizing index state with
  | nil =>
    cases ran
    exact recorded
  | cons message rest ih =>
    unfold convertFrom at ran
    split at ran
    · cases ran
    · rename_i next stepped
      exact ih (recorded.step stepped) ran

variable {conversation : Conversion Json}

theorem recorded_convert
  (converted : convert library .anthropic messages = .ok conversation) : Recorded conversation := by
  unfold convert at converted
  split at converted
  · cases converted
  · rename_i state ran
    cases converted
    exact (recorded_start.run ran).answerPending

section Loop

variable (hashing : Hashing Json) (records : List (ℕ × Record Json)) (roundStart : ℕ) (mode : Option ThinkingMode)

section

variable (frontier start : ℕ) (items : List (Item Json))

def hashedBefore (hashed : List UInt8) (position : ℕ) : List UInt8 :=
  hashed ++ (rebuilt records roundStart frontier start (items.take (position - start))).flatMap hashing.canonical

def Bound (hashed : List UInt8) : Prop :=
  ∀ position record, start <= position -> position < start + items.length -> roundStart <= position ->
    position < frontier -> recordAt records position = some record ->
    record.digest = some (hashing.sha256 (hashedBefore hashing records roundStart frontier start items hashed position))

def Sends (state : Replay Json) : Prop :=
  let final := replayFrom hashing records roundStart mode start items state
  final.items = state.items ++ rebuilt records roundStart frontier start items /\
    final.hashed = state.hashed ++ (rebuilt records roundStart frontier start items).flatMap hashing.canonical

end

variable {hashing records roundStart mode}

variable {start : ℕ}

theorem replayItem_sends (item : Item Json) {state : Replay Json}
  (agrees : ∀ record, recordAt records start = some record ->
    (state.keeps hashing roundStart start record ↔ roundStart <= start /\ start < frontier)) :
  (replayItem hashing records roundStart mode start item state).items =
      state.items ++ rebuiltItem records roundStart frontier start item /\
    (replayItem hashing records roundStart mode start item state).hashed =
      state.hashed ++ (rebuiltItem records roundStart frontier start item).flatMap hashing.canonical := by
  unfold replayItem rebuiltItem
  cases isRecord : recordAt records start with
  | none =>
    rw [flatMap_singleton]
    exact ⟨rfl, rfl⟩
  | some record =>
    dsimp only
    by_cases keeps : state.keeps hashing roundStart start record
    · rw [if_pos keeps, if_pos ((agrees record isRecord).mp keeps), flatMap_singleton]
      exact ⟨rfl, rfl⟩
    · rw [if_neg keeps, if_neg fun inside => keeps ((agrees record isRecord).mpr inside)]
      by_cases empty : item.withoutThinking.content.isEmpty
      · rw [if_pos empty, if_pos empty, flatMap_nil, append_nil, append_nil]
        exact ⟨rfl, rfl⟩
      · rw [if_neg empty, if_neg empty, flatMap_singleton]
        exact ⟨rfl, rfl⟩

variable {later : List (Item Json)}

theorem Sends.cons {state : Replay Json} (agrees : ∀ record, recordAt records start = some record ->
    (state.keeps hashing roundStart start record ↔ roundStart <= start /\ start < frontier))
  (others : Sends hashing records roundStart mode frontier (start + 1) later
    (replayItem hashing records roundStart mode start item state)) :
  Sends hashing records roundStart mode frontier start (item :: later) state := by
  rcases others with ⟨items, hashed⟩
  rcases replayItem_sends item agrees with ⟨firstItems, firstHashed⟩
  unfold Sends
  dsimp only
  rw [replayFrom, rebuilt, items, hashed, firstItems, firstHashed, flatMap_append, append_assoc, append_assoc]
  exact ⟨rfl, rfl⟩

theorem replayItem_keep (start : ℕ) (item : Item Json) (state : Replay Json) :
  (replayItem hashing records roundStart mode start item state).keep = match recordAt records start with
    | none => state.keep
    | some record =>
      if state.keeps hashing roundStart start record then state.keep
      else state.keep && decide (start < roundStart) := by
  unfold replayItem
  cases recordAt records start with
  | none => rfl
  | some record =>
    dsimp only
    by_cases keeps : state.keeps hashing roundStart start record
    · rw [if_pos keeps, if_pos keeps]
      rfl
    · rw [if_neg keeps, if_neg keeps]
      split
      · rfl
      · rfl

theorem replayFrom_stopped {frontier start : ℕ} (behind : frontier <= start) (items : List (Item Json)) {state : Replay Json}
  (stopped : state.keep = false) : Sends hashing records roundStart mode frontier start items state := by
  induction items generalizing start state with
  | nil => exact ⟨(append_nil _).symm, (append_nil _).symm⟩
  | cons item later ih =>
    have drops (record : Record Json) : state.keeps hashing roundStart start record = false := by
      unfold Replay.keeps
      rw [stopped]
      rfl
    apply Sends.cons
    · intro record _
      rw [drops record]
      constructor
      · intro clash
        cases clash
      · rintro ⟨_, _⟩
        omega
    · apply ih (Nat.le_succ_of_le behind)
      rw [replayItem_keep, stopped]
      cases recordAt records start with
      | none => rfl
      | some record =>
        dsimp only
        rw [Bool.false_and, ite_self]

theorem Bound.cons {hashed : List UInt8}
  (first : ∀ record, roundStart <= start -> start < frontier -> recordAt records start = some record ->
    record.digest = some (hashing.sha256 hashed)) (others : Bound hashing records roundStart frontier (start + 1) later
    (hashed ++ (rebuiltItem records roundStart frontier start item).flatMap hashing.canonical)) :
  Bound hashing records roundStart frontier start (item :: later) hashed := by
  intro position record from_ inside inRound before isRecord
  unfold hashedBefore
  rcases Nat.eq_or_lt_of_le from_ with rfl | behind
  · rw [Nat.sub_self, take_zero, rebuilt, flatMap_nil, append_nil]
    exact first record inRound before isRecord
  · rw [length_cons] at inside
    have bound := others position record behind (by omega) inRound before isRecord
    unfold hashedBefore at bound
    have place : position - start = position - (start + 1) + 1 := by omega
    rw [bound, place, take_succ_cons, rebuilt, flatMap_append, append_assoc]

theorem replayFrom_frontier (items : List (Item Json)) {start : ℕ} {state : Replay Json} (keep : state.keep) :
  ∃ frontier, start <= frontier /\ Sends hashing records roundStart mode frontier start items state /\
    Bound hashing records roundStart frontier start items state.hashed := by
  induction items generalizing start state with
  | nil =>
    refine ⟨start, Nat.le_refl _, ⟨(append_nil _).symm, (append_nil _).symm⟩, ?_⟩
    intro position record from_ inside
    exact absurd inside (Nat.not_lt.mpr from_)
  | cons item later ih =>
    have kept := @replayItem_keep _ hashing records roundStart mode start item state
    -- The loop stops at this item, or the frontier of the later items is the one of all.
    by_cases stops : ∃ record, recordAt records start = some record /\ roundStart <= start /\
        state.keeps hashing roundStart start record = false
    · rcases stops with ⟨record, isRecord, inRound, drops⟩
      have notBefore : ¬ start < start := Nat.lt_irrefl start
      rw [isRecord] at kept
      dsimp only at kept
      rw [drops, if_neg Bool.false_ne_true, decide_eq_false (Nat.not_lt.mpr inRound), Bool.and_false] at kept
      refine ⟨start, Nat.le_refl _, ?_, ?_⟩
      · apply Sends.cons
        · intro other isOther
          cases isRecord.symm.trans isOther
          rw [drops]
          constructor
          · intro clash
            cases clash
          · rintro ⟨_, before⟩
            exact absurd before notBefore
        · exact replayFrom_stopped (Nat.le_succ start) later kept
      · intro _ _ from_ _ _ before
        exact absurd before (Nat.not_lt.mpr from_)
    · have goesOn : (replayItem hashing records roundStart mode start item state).keep := by
        rw [kept]
        cases isRecord : recordAt records start with
        | none => exact keep
        | some record =>
          dsimp only
          by_cases keeps : state.keeps hashing roundStart start record
          · rw [if_pos keeps]
            exact keep
          · have before : start < roundStart := by
              by_contra notBefore
              exact stops ⟨record, isRecord, Nat.not_lt.mp notBefore, Bool.not_eq_true _ ▸ keeps⟩
            rw [if_neg keeps, keep, decide_eq_true before]
            rfl
      rcases ih goesOn with ⟨frontier, behind, sends, bound⟩
      have agrees (record : Record Json) (isRecord : recordAt records start = some record) :
          state.keeps hashing roundStart start record ↔ roundStart <= start /\ start < frontier := by
        constructor
        · intro keeps
          unfold Replay.keeps at keeps
          simp only [Bool.and_eq_true, decide_eq_true_eq] at keeps
          exact ⟨keeps.1.2, behind⟩
        · rintro ⟨inRound, _⟩
          by_contra drops
          exact stops ⟨record, isRecord, inRound, Bool.not_eq_true _ ▸ drops⟩
      refine ⟨frontier, Nat.le_of_succ_le behind, Sends.cons agrees sends, Bound.cons ?_ ?_⟩
      · intro record inRound before isRecord
        have keeps := (agrees record isRecord).mpr ⟨inRound, before⟩
        unfold Replay.keeps at keeps
        simp only [Bool.and_eq_true, decide_eq_true_eq] at keeps
        exact keeps.2
      · rw [<- (replayItem_sends item agrees).2]
        exact bound

end Loop

theorem withoutThinking_plain (item : Item Json) : item.withoutThinking.hasThinking = false := by
  unfold Item.hasThinking
  rw [any_eq_false]
  intro _ mem thinks
  have kept := (mem_filter.mp mem).2
  rw [thinks] at kept
  cases kept

theorem thinkingChars_plain (hashing : Hashing Json) (none : item.hasThinking = false) :
  item.thinkingChars hashing = 0 := by
  unfold Item.hasThinking at none
  rw [any_eq_false] at none
  unfold Item.thinkingChars
  rw [sum_eq_zero_iff]
  intro _ mem
  rcases mem_map.mp mem with ⟨block, isBlock, rfl⟩
  have notThinking := none block isBlock
  cases block with
  | thinking value => exact absurd rfl notThinking
  | part part | toolUse id name input | toolResult id content => rfl

theorem recordAt_mem {records : List (ℕ × Record Json)} {record : Record Json}
  (isRecord : recordAt records position = some record) : (position, record) ∈ records := by
  rcases Option.map_eq_some_iff.mp isRecord with ⟨entry, found, rfl⟩
  have matching := find?_some found
  have same : entry.1 = position := of_decide_eq_true matching
  rw [<- same]
  exact mem_of_find?_eq_some found

theorem recordAt_none {records : List (ℕ × Record Json)} (none : recordAt records position = none) (record : Record Json) :
  (position, record) ∉ records := by
  intro mem
  exact find?_eq_none.mp (Option.map_eq_none_iff.mp none) _ mem (decide_eq_true rfl)

def Described (records : List (ℕ × Record Json)) (position : ℕ) (item : Item Json) : Prop :=
  match recordAt records position with
  | none => item.hasThinking = false
  | some record => record.content = some item.content.blockList

theorem Recorded.described (recorded : Recorded state) (isItem : state.items[position]? = some item) :
  Described state.records position item := by
  unfold Described
  cases isRecord : recordAt state.records position with
  | none => exact recorded.plain position item isItem (recordAt_none isRecord)
  | some record =>
    rcases recorded.held _ (recordAt_mem isRecord) with ⟨_, _, isFound, _, isBlocks, hasContent⟩
    cases isFound.symm.trans isItem
    dsimp only at hasContent ⊢
    rw [hasContent, isBlocks]
    rfl

section Sizes

variable (hashing : Hashing Json) {records : List (ℕ × Record Json)} {roundStart frontier : ℕ}

theorem rebuiltItem_plain (described : Described records position item)
  (outside : ¬ (roundStart <= position /\ position < frontier)) :
  ∀ sent ∈ rebuiltItem records roundStart frontier position item, sent.hasThinking = false := by
  intro _ mem
  unfold rebuiltItem at mem
  unfold Described at described
  cases isRecord : recordAt records position with
  | none =>
    rw [isRecord] at mem described
    rw [mem_singleton.mp mem]
    exact described
  | some record =>
    rw [isRecord] at mem
    dsimp only at mem
    rw [if_neg outside] at mem
    split at mem
    · cases mem
    · rw [mem_singleton.mp mem]
      exact withoutThinking_plain item

theorem sum_plain {items : List (Item Json)} (plain : ∀ item ∈ items, item.hasThinking = false) :
  (items.map (Item.thinkingChars hashing)).sum = 0 := by
  rw [sum_eq_zero_iff]
  intro _ mem
  rcases mem_map.mp mem with ⟨item, isItem, rfl⟩
  exact thinkingChars_plain hashing (plain item isItem)

def charsFrom (records : List (ℕ × Record Json)) (roundStart position : ℕ) : ℕ :=
  ((records.filter fun entry => (roundStart <= entry.1) && (position <= entry.1)).map
    (·.2.thinkingChars hashing)).sum

theorem charsFrom_cons (entry : ℕ × Record Json) (others : List (ℕ × Record Json)) (position : ℕ) :
  charsFrom hashing (entry :: others) roundStart position =
    (if roundStart <= entry.1 /\ position <= entry.1 then entry.2.thinkingChars hashing else 0) +
      charsFrom hashing others roundStart position := by
  unfold charsFrom
  rw [filter_cons]
  by_cases counts : roundStart <= entry.1 /\ position <= entry.1
  · rw [if_pos (by rw [decide_eq_true counts.1, decide_eq_true counts.2]; rfl), if_pos counts, map_cons, sum_cons]
  · rw [if_neg counts, Nat.zero_add, if_neg]
    intro both
    simp only [Bool.and_eq_true, decide_eq_true_eq] at both
    exact counts both

theorem charsFrom_succ_le (records : List (ℕ × Record Json)) (position : ℕ) :
  charsFrom hashing records roundStart (position + 1) <= charsFrom hashing records roundStart position := by
  induction records with
  | nil => exact Nat.le_refl _
  | cons entry others ih =>
    rw [charsFrom_cons, charsFrom_cons]
    split
    · rename_i later
      rw [if_pos ⟨later.1, Nat.le_of_succ_le later.2⟩]
      omega
    · omega

theorem charsFrom_record {record : Record Json} (mem : (position, record) ∈ records) (inRound : roundStart <= position) :
  record.thinkingChars hashing + charsFrom hashing records roundStart (position + 1) <=
    charsFrom hashing records roundStart position := by
  induction records with
  | nil => cases mem
  | cons entry others ih =>
    have fewer := @charsFrom_succ_le Json hashing roundStart others position
    rw [charsFrom_cons, charsFrom_cons]
    rcases mem_cons.mp mem with same | isLater
    · subst same
      rw [if_neg (Nat.not_succ_le_self position ·.2), if_pos ⟨inRound, Nat.le_refl position⟩, Nat.zero_add]
      exact Nat.add_le_add_left fewer _
    · have rest := ih isLater
      split
      · rename_i later
        rw [if_pos ⟨later.1, Nat.le_of_succ_le later.2⟩]
        omega
      · omega

theorem rebuilt_chars_le (items : List (Item Json)) {position : ℕ}
  (described : ∀ place item, items[place]? = some item -> Described records (position + place) item) :
  ((rebuilt records roundStart frontier position items).map (Item.thinkingChars hashing)).sum <=
    charsFrom hashing records roundStart position := by
  induction items generalizing position with
  | nil => exact Nat.zero_le _
  | cons item later ih =>
    have first := described 0 item rfl
    rw [Nat.add_zero] at first
    have others := @ih (position + 1) (fun place found isItem => by
      rw [Nat.add_assoc, Nat.add_comm 1 place]
      exact described (place + 1) found isItem)
    rw [rebuilt, map_append, sum_append]
    by_cases inside : roundStart <= position /\ position < frontier
    · cases isRecord : recordAt records position with
      | none =>
        have same : rebuiltItem records roundStart frontier position item = [item] := by
          unfold rebuiltItem
          rw [isRecord]
        unfold Described at first
        rw [isRecord] at first
        rw [same, map_singleton, sum_singleton, thinkingChars_plain hashing first, Nat.zero_add]
        exact Nat.le_trans others (charsFrom_succ_le hashing records position)
      | some record =>
        have same : rebuiltItem records roundStart frontier position item = [item] := by
          unfold rebuiltItem
          rw [isRecord]
          exact if_pos inside
        unfold Described at first
        rw [isRecord] at first
        have size : item.thinkingChars hashing = record.thinkingChars hashing := by
          unfold Item.thinkingChars Record.thinkingChars
          rw [first]
          rfl
        have counted := charsFrom_record hashing (recordAt_mem isRecord) inside.1
        rw [same, map_singleton, sum_singleton, size]
        omega
    · rw [sum_plain hashing (rebuiltItem_plain first inside), Nat.zero_add]
      exact Nat.le_trans others (charsFrom_succ_le hashing records position)

theorem charsFrom_zero : charsFrom hashing records roundStart 0 = roundChars hashing records roundStart := by
  unfold charsFrom roundChars
  congr 3
  funext entry
  rw [decide_eq_true (Nat.zero_le entry.1), Bool.and_true]

theorem rebuilt_append (first second : List (Item Json)) (position : ℕ) :
  rebuilt records roundStart frontier position (first ++ second) =
    rebuilt records roundStart frontier position first ++
      rebuilt records roundStart frontier (position + first.length) second := by
  induction first generalizing position with
  | nil => rfl
  | cons item later ih =>
    rw [cons_append, rebuilt, rebuilt, ih, append_assoc, length_cons, Nat.add_right_comm, Nat.add_assoc]

theorem rebuilt_plain (items : List (Item Json))
  (described : ∀ place item, items[place]? = some item -> Described records (position + place) item)
  (outside : ∀ place, place < items.length -> ¬ (roundStart <= position + place /\ position + place < frontier)) :
  ∀ sent ∈ rebuilt records roundStart frontier position items, sent.hasThinking = false := by
  induction items generalizing position with
  | nil => exact forall_mem_nil _
  | cons item later ih =>
    intro sent mem
    rcases mem_append.mp mem with isFirst | isLater
    · exact rebuiltItem_plain (described 0 item rfl) (outside 0 (Nat.zero_lt_succ _)) sent isFirst
    · refine ih ?_ ?_ sent isLater
      · intro place found isItem
        rw [Nat.add_assoc, Nat.add_comm 1 place]
        exact described (place + 1) found isItem
      · intro place within
        rw [Nat.add_assoc, Nat.add_comm 1 place]
        exact outside (place + 1) (Nat.succ_lt_succ within)

end Sizes

structure Matches (hashing : Hashing Json) (conversation : Conversion Json) (header : List UInt8) (frontier : ℕ)
  (sent : List (Item Json)) : Prop where
  /-- The records kept are those of the round before the frontier; no other thinks. -/
  isRebuilt : sent = rebuilt conversation.records conversation.roundStart frontier 0 conversation.items
  /-- A kept record is sent as it is, bound to exactly what is sent before it. -/
  bound : ∀ position record item, conversation.items[position]? = some item ->
    recordAt conversation.records position = some record -> conversation.roundStart <= position -> position < frontier ->
    let before := rebuilt conversation.records conversation.roundStart frontier 0 (conversation.items.take position)
    (before ++ [item]) <+: sent /\ record.content = some item.content.blockList /\
      record.digest = some (hashing.sha256 (header ++ before.flatMap hashing.canonical))
  /-- Before the round nothing thinks. -/
  earlier : ∀ item, item ∈ rebuilt conversation.records conversation.roundStart frontier 0
    (conversation.items.take conversation.roundStart) -> item.hasThinking = false
  small : (sent.map (Item.thinkingChars hashing)).sum <= replayThinkingChars

theorem matches_of_bound {hashing : Hashing Json} (recorded : Recorded conversation)
  {header : List UInt8} {sent : List (Item Json)}
  (isRebuilt : sent = rebuilt conversation.records conversation.roundStart frontier 0 conversation.items)
  (bound : Bound hashing conversation.records conversation.roundStart frontier 0 conversation.items header)
  (small : (sent.map (Item.thinkingChars hashing)).sum <= replayThinkingChars) :
  Matches hashing conversation header frontier sent := by
  refine ⟨isRebuilt, ?_, ?_, small⟩
  · intro position record item isItem isRecord inRound before
    rcases List.getElem?_eq_some_iff.mp isItem with ⟨inside, isThere⟩
    have split := take_append_drop position conversation.items
    rw [drop_eq_getElem_cons inside, isThere] at split
    have described := recorded.described isItem
    unfold Described at described
    rw [isRecord] at described
    refine ⟨?_, described, ?_⟩
    · have same : rebuiltItem conversation.records conversation.roundStart frontier position item = [item] := by
        unfold rebuiltItem
        rw [isRecord]
        exact if_pos ⟨inRound, before⟩
      rw [isRebuilt, <- split, rebuilt_append, take_append_of_le_length (by rw [length_take]; omega),
        take_take, Nat.min_self, rebuilt, length_take, Nat.min_eq_left (Nat.le_of_lt inside), Nat.zero_add, same,
        <- append_assoc]
      exact prefix_append _ _
    · exact bound position record (Nat.zero_le _) (by omega) inRound before isRecord
  · apply rebuilt_plain
    · intro place _ isItem
      rw [getElem?_take] at isItem
      split at isItem
      · rw [Nat.zero_add]
        exact recorded.described isItem
      · cases isItem
    · rintro _ inside ⟨_, _⟩
      rw [length_take] at inside
      omega

/-- For every conversation: its round begins behind the last turn of the user, and the records that are kept match. -/
theorem replay_matches {library : Library Json} {messages : List (Message Json)} {conversation : Conversion Json}
  (converted : convert library .anthropic messages = .ok conversation) (hashing : Hashing Json) (header : List UInt8)
  (mode : Option ThinkingMode) :
  conversation.roundStart = lastRound conversation.items /\
    ∃ frontier,
      Matches hashing conversation header frontier
        (replay hashing conversation.records conversation.roundStart mode conversation.items header).items /\
      (mode = none -> frontier = 0) := by
  have recorded := recorded_convert converted
  have described : ∀ place item, conversation.items[place]? = some item ->
      Described conversation.records (0 + place) item := by
    intro place item isItem
    rw [Nat.zero_add]
    exact recorded.described isItem
  refine ⟨recorded.round, ?_⟩
  unfold replay
  cases keep : mode.isSome && decide (roundChars hashing conversation.records conversation.roundStart <= replayThinkingChars) with
  | false =>
    have sends := @replayFrom_stopped _ hashing conversation.records conversation.roundStart mode 0 0 (Nat.le_refl 0)
      conversation.items ⟨[], header, false, false⟩ rfl
    refine ⟨0, matches_of_bound recorded sends.1 ?_ ?_, fun _ => rfl⟩
    · intro position record _ _ _ clash
      exact absurd clash (Nat.not_lt_zero position)
    · rw [sends.1, nil_append, sum_plain hashing (rebuilt_plain _ described (fun place _ inside =>
        Nat.not_lt_zero _ inside.2))]
      exact Nat.zero_le _
  | true =>
    rcases Bool.and_eq_true_iff.mp keep with ⟨thinks, fits⟩
    rcases @replayFrom_frontier _ hashing conversation.records conversation.roundStart mode conversation.items 0
      ⟨[], header, true, false⟩ rfl with ⟨frontier, _, sends, bound⟩
    refine ⟨frontier, matches_of_bound recorded sends.1 bound ?_, ?_⟩
    · have size := @rebuilt_chars_le _ hashing conversation.records conversation.roundStart frontier conversation.items 0 described
      rw [charsFrom_zero] at size
      rw [sends.1, nil_append]
      exact Nat.le_trans size (of_decide_eq_true fits)
    · intro none
      rw [none] at thinks
      cases thinks

def toolRound : List (Message ℕ) :=
  let call : Call ℕ := ⟨some (some "shell"), none⟩
  let turn (digest : String) : Record ℕ := ⟨some "anthropic", some digest, some [.thinking 7, .toolUse "id" (some "shell") 0]⟩
  [⟨some .user, some (Text.ofString "list"), [], [], none, none⟩,
    ⟨some .assistant, some [], [], [call], none, some (turn "2")⟩,
    ⟨some .tool, some (Text.ofString "files"), [], [], some "shell", none⟩,
    ⟨some .assistant, some [], [], [call], none, some (turn "2")⟩]

def counting : Hashing ℕ := ⟨fun _ => [0], fun bytes => toString bytes.length, id⟩

theorem replay_matches_toolRound :
  ∃ conversation : Conversion ℕ,
    convert ⟨0, fun _ => none, fun _ => "\x7b\x7d"⟩ .anthropic toolRound = .ok conversation /\
      (conversation.roundStart = lastRound conversation.items /\
        ∃ frontier,
          Matches counting conversation [0] frontier
            (replay counting conversation.records conversation.roundStart (some .adaptive) conversation.items [0]).items /\
          ((some .adaptive : Option ThinkingMode) = none -> frontier = 0)) /\
      (replay counting conversation.records conversation.roundStart (some .adaptive) conversation.items [0]).items.map
        (Item.thinkingChars counting) = [0, 7, 0, 0, 0] :=
  ⟨_, rfl, @replay_matches ℕ ⟨0, fun _ => none, fun _ => "\x7b\x7d"⟩ toolRound _ rfl counting [0] (some .adaptive),
    by decide +kernel⟩

end BananaChat.Providers

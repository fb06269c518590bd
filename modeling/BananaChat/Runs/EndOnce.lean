import BananaChat.Runs.ChatRuns

namespace BananaChat.Runs

open Foundation Credits List Rows ActiveStream ChatStore

/-!
# Chat runs end once

A run ends when its row goes: its answer is committed, its last checkpoint is recovered, or its
question is taken back.
-/

inductive RunEvent
  | began (token : ℕ)
  | finished (token : ℕ)
  | recovered (token : ℕ)
  | aborted (token : ℕ)
deriving DecidableEq

def RunEvent.ended : RunEvent -> Option ℕ
  | .began _ => none
  | .finished token => some token
  | .recovered token => some token
  | .aborted token => some token

def endedTokens (past : List RunEvent) : List ℕ := past.filterMap RunEvent.ended

def chargedTokens (ledger : List LedgerRow) : List ℕ := ledger.filterMap LedgerRow.origin

def ChatStore.tokens (store : ChatStore) : List ℕ := store.streams.map ActiveStream.ownerToken

def streamKey (row : ActiveStream) : ℕ × ℕ := (row.sessionId, row.ownerToken)

def runEvents (store : ChatStore) : ChatAction -> List RunEvent
  | .begin site now rows question =>
    match begin site now rows question store with
    | none => []
    | some result => rows.map (.recovered ·.ownerToken) ++ [.began result.2.token]
  | .abort sessionId begun => if (abort sessionId begun store).2 then [.aborted begun.token] else []
  | .finish site now sessionId token outcome =>
    if (finish site now sessionId token outcome store).isSome then [.finished token] else []
  | .recoverStale _ _ rows => rows.map (.recovered ·.ownerToken)
  | _ => []

theorem storeAnswer_tables (site : Credits.Site) (now : ℚ) (sessionId : ℕ) (outcome : Outcome) (incognito : Bool)
  (store : ChatStore) :
  let after := storeAnswer site now sessionId outcome incognito store
  after.streams = store.streams /\ after.nextToken = store.nextToken /\ after.books = store.books := by
  unfold storeAnswer
  cases store.session sessionId with
  | none => exact ⟨rfl, rfl, rfl⟩
  | some session =>
    by_cases deleted : session.deleted
    · simp [deleted]
    · by_cases empty : outcome.content = ""
      · simp only [deleted, empty, if_true, updateSession]
        exact ⟨rfl, rfl, rfl⟩
      · simp only [deleted, empty, updateSession]
        exact ⟨rfl, rfl, rfl⟩

theorem commit_tables (site : Credits.Site) (now : ℚ) (sessionId token : ℕ) (outcome : Outcome) (leaseIncognito : Bool)
  (store : ChatStore) :
  let after := commit site now sessionId token outcome leaseIncognito store
  after.streams = deleteWhere (·.sessionId = sessionId) store.streams /\ after.nextToken = store.nextToken /\
    (chargedTokens after.books.ledger = chargedTokens store.books.ledger \/
      chargedTokens after.books.ledger = chargedTokens store.books.ledger ++ [token]) := by
  rcases storeAnswer_tables site now sessionId outcome
    (((store.session sessionId).map ChatSession.isIncognito).getD leaseIncognito) store with ⟨streams, nextToken, books⟩
  simp only [commit, streams, nextToken, books, true_and]
  by_cases charged : outcome.charged site
  · right
    rw [if_pos charged]
    have known : (site.user outcome.userId).isSome := by
      unfold Outcome.charged at charged
      simp only [Bool.and_eq_true] at charged
      exact charged.1.2
    rw [charge_of_user known]
    simp only [chargedTokens, filterMap_append]
    rfl
  · left
    rw [if_neg charged]

variable {after store : ChatStore} {sessionId token : ℕ} {past : List RunEvent}

variable {site : Credits.Site} {now : ℚ}

theorem finish_tables {outcome : Outcome} (finished : finish site now sessionId token outcome store = some after) :
  (∃ row ∈ store.streams, row.sessionId = sessionId /\ row.ownerToken = token) /\
    ∃ incognito, after = commit site now sessionId token outcome incognito store := by
  unfold finish at finished
  split at finished
  · cases found : store.streams.find? (owned sessionId token) with
    | none =>
      rw [found] at finished
      cases finished
    | some lease =>
      rw [found] at finished
      have owned : lease.sessionId = sessionId /\ lease.ownerToken = token := by
        simpa [owned] using find?_some found
      refine ⟨⟨lease, mem_of_find?_eq_some found, owned.1, owned.2⟩, lease.isIncognito, ?_⟩
      cases finished
      rfl
  · cases finished

theorem abort_tables {begun : Begun}
  (owned : ¬ affected (ActiveStream.owned sessionId begun.token) store.streams = 0) :
  let after := abort sessionId begun store
  (∃ row ∈ store.streams, ActiveStream.owned sessionId begun.token row /\ row.ownerToken = begun.token) /\
    after.1.streams = deleteWhere (ActiveStream.owned sessionId begun.token) store.streams /\
    after.1.nextToken = store.nextToken /\ after.1.books = store.books /\ after.2 := by
  constructor
  · by_contra absent
    apply owned
    rw [affected_eq_zero_iff]
    intro row mem selected
    exact absent ⟨row, mem, selected, (of_decide_eq_true selected).2⟩
  · simp only [abort, owned, if_false, updateSession]
    cases begun.title with
    | none => exact ⟨rfl, rfl, rfl, trivial⟩
    | some title =>
      by_cases empty : title = ""
      · simp [empty]
      · simp [empty]

theorem recoverStream_tables (site : Credits.Site) (now : ℚ) (store : ChatStore) (row : ActiveStream) :
  let after := recoverStream site now store row
  after.streams = deleteWhere (·.sessionId = row.sessionId) store.streams /\ after.nextToken = store.nextToken /\
    (chargedTokens after.books.ledger = chargedTokens store.books.ledger \/
      chargedTokens after.books.ledger = chargedTokens store.books.ledger ++ [row.ownerToken]) := by
  unfold recoverStream
  cases ((store.session row.sessionId).map ChatSession.userId).or row.userId with
  | none => exact ⟨rfl, rfl, .inl rfl⟩
  | some userId => exact commit_tables site now row.sessionId row.ownerToken _ row.isIncognito store

theorem beginRun_tables (now : ℚ) (question : Question) (session : ChatSession) (store : ChatStore) :
  let result := beginRun now question session store
  (∃ row, result.1.streams = store.streams ++ [row] /\ streamKey row = (question.sessionId, store.nextToken)) /\
    result.1.nextToken = store.nextToken + 1 /\ result.1.books = store.books /\ result.2.token = store.nextToken := by
  unfold beginRun
  cases question.title with
  | none => exact ⟨⟨_, rfl, rfl⟩, rfl, rfl, rfl⟩
  | some title =>
    simp only [updateSession]
    split
    · exact ⟨⟨_, rfl, rfl⟩, trivial, rfl, trivial⟩
    · exact ⟨⟨_, rfl, rfl⟩, trivial, rfl, trivial⟩

theorem begin_tables {rows : List ActiveStream} {question : Question}
  {result : ChatStore × Begun} (begun : begin site now rows question store = some result) :
  (∀ row ∈ (recoverStreams site now rows store).streams, row.sessionId ≠ question.sessionId) /\
    ∃ session, result = beginRun now question session (recoverStreams site now rows store) := by
  simp only [begin] at begun
  split at begun
  · cases begun
  · rename_i free
    refine ⟨?_, ?_⟩
    · intro row mem same
      apply free
      rw [any_eq_true]
      exact ⟨row, mem, decide_eq_true same⟩
    · split at begun
      · cases begun
      · split at begun
        · cases begun
        · cases begun
          exact ⟨_, rfl⟩

theorem updateStream_of_absent (absent : (sessionId, token) ∉ store.streams.map streamKey)
  (change : ActiveStream -> ActiveStream) : updateStream sessionId token change store = store := by
  have unselected : ∀ row ∈ store.streams, ¬ owned sessionId token row := by
    intro row mem owned
    apply absent
    have key := of_decide_eq_true owned
    exact mem_map.mpr ⟨row, mem, by rw [streamKey, key.1, key.2]⟩
  unfold updateStream
  rw [updateWhere_eq_self unselected]

theorem affected_of_absent (absent : (sessionId, token) ∉ store.streams.map streamKey) :
  affected (owned sessionId token) store.streams = 0 := by
  rw [affected_eq_zero_iff]
  intro row mem owned
  apply absent
  have key := of_decide_eq_true owned
  exact mem_map.mpr ⟨row, mem, by rw [streamKey, key.1, key.2]⟩

/-- Rows are of different sessions and of runs that have not ended; a run that
has ended has no row; only runs that ended are charged. -/
structure RunsKept (past : List RunEvent) (store : ChatStore) : Prop where
  sessions : (store.streams.map ActiveStream.sessionId).Nodup
  tokens : store.tokens.Nodup
  below : ∀ token ∈ store.tokens, token < store.nextToken
  live : ∀ token ∈ store.tokens, token ∉ endedTokens past
  endedBelow : ∀ token ∈ endedTokens past, token < store.nextToken
  endedOnce : (endedTokens past).Nodup
  chargedEnded : ∀ token ∈ chargedTokens store.books.ledger, token ∈ endedTokens past
  chargedOnce : (chargedTokens store.books.ledger).Nodup

theorem endedTokens_append (past events : List RunEvent) :
    endedTokens (past ++ events) = endedTokens past ++ endedTokens events := filterMap_append ..

theorem RunsKept.keep (kept : RunsKept past store) (keys : after.streams.map streamKey = store.streams.map streamKey)
  (nextToken : after.nextToken = store.nextToken)
  (charged : chargedTokens after.books.ledger = chargedTokens store.books.ledger) : RunsKept past after := by
  have sessions : after.streams.map sessionId = store.streams.map sessionId := by
    have first := congrArg (map Prod.fst) keys
    rwa [map_map, map_map] at first
  have tokens : after.tokens = store.tokens := by
    have second := congrArg (map Prod.snd) keys
    rwa [map_map, map_map] at second
  constructor
  · rw [sessions]
    exact kept.sessions
  · rw [tokens]
    exact kept.tokens
  · rw [tokens, nextToken]
    exact kept.below
  · rw [tokens]
    exact kept.live
  · rw [nextToken]
    exact kept.endedBelow
  · exact kept.endedOnce
  · rw [charged]
    exact kept.chargedEnded
  · rw [charged]
    exact kept.chargedOnce

theorem RunsKept.close (kept : RunsKept past store) {event : RunEvent} (ends : event.ended = some token)
  (running : token ∈ store.tokens) (fewer : after.streams.Sublist store.streams) (gone : token ∉ after.tokens)
  (nextToken : after.nextToken = store.nextToken)
  (charged : chargedTokens after.books.ledger = chargedTokens store.books.ledger \/
    chargedTokens after.books.ledger = chargedTokens store.books.ledger ++ [token]) :
  RunsKept (past ++ [event]) after := by
  have ended : endedTokens (past ++ [event]) = endedTokens past ++ [token] := by
    simp [endedTokens, ends]
  have fewerTokens : after.tokens.Sublist store.tokens := fewer.map ownerToken
  have uncharged : token ∉ chargedTokens store.books.ledger :=
    fun before => kept.live token running (kept.chargedEnded token before)
  constructor
  · exact kept.sessions.sublist (fewer.map sessionId)
  · exact kept.tokens.sublist fewerTokens
  · intro other mem
    rw [nextToken]
    exact kept.below other (fewerTokens.subset mem)
  · intro other mem
    rw [ended, mem_append, mem_singleton, not_or]
    exact ⟨kept.live other (fewerTokens.subset mem), fun same => gone (same ▸ mem)⟩
  · intro other mem
    rw [ended, mem_append, mem_singleton] at mem
    rw [nextToken]
    rcases mem with before | rfl
    · exact kept.endedBelow other before
    · exact kept.below other running
  · rw [ended]
    apply kept.endedOnce.append (nodup_singleton token)
    intro other before last
    rw [mem_singleton] at last
    exact kept.live token running (last ▸ before)
  · intro other mem
    rw [ended, mem_append, mem_singleton]
    rcases charged with same | more
    · rw [same] at mem
      exact .inl (kept.chargedEnded other mem)
    · rw [more, mem_append, mem_singleton] at mem
      rcases mem with before | last
      · exact .inl (kept.chargedEnded other before)
      · exact .inr last
  · rcases charged with same | more
    · rw [same]
      exact kept.chargedOnce
    · rw [more]
      apply kept.chargedOnce.append (nodup_singleton token)
      intro _ before last
      rw [mem_singleton] at last
      exact uncharged (last ▸ before)

variable {row : ActiveStream}

theorem RunsKept.gone (kept : RunsKept past store) (mem : row ∈ store.streams)
  {selected : ActiveStream -> Bool} (selects : selected row) :
  row.ownerToken ∉ (deleteWhere selected store.streams).map ownerToken := by
  intro still
  rcases mem_map.mp still with ⟨other, otherIn, same⟩
  rcases mem_deleteWhere.mp otherIn with ⟨before, unselected⟩
  have sameRow : other = row := eq_of_key kept.tokens before mem same
  exact unselected (sameRow ▸ selects)

theorem RunsKept.open (kept : RunsKept past store) (free : ∀ other ∈ store.streams, other.sessionId ≠ sessionId)
  (streams : after.streams = store.streams ++ [row]) (key : streamKey row = (sessionId, store.nextToken))
  (nextToken : after.nextToken = store.nextToken + 1) (books : after.books = store.books) :
  RunsKept (past ++ [.began store.nextToken]) after := by
  have ended : endedTokens (past ++ [.began store.nextToken]) = endedTokens past := by
    rw [endedTokens_append]
    exact append_nil _
  have tokens : after.tokens = store.tokens ++ [store.nextToken] := by
    have token : row.ownerToken = store.nextToken := congrArg Prod.snd key
    rw [ChatStore.tokens, streams, map_append, map_singleton, token]
    rfl
  have fresh : store.nextToken ∉ store.tokens := fun mem => lt_irrefl _ (kept.below _ mem)
  constructor
  · rw [streams, map_append]
    apply kept.sessions.append (nodup_singleton _)
    intro other before last
    rcases mem_map.mp before with ⟨old, mem, rfl⟩
    have session : row.sessionId = sessionId := congrArg Prod.fst key
    exact free old mem ((mem_singleton.mp last).trans session)
  · rw [tokens]
    apply kept.tokens.append (nodup_singleton _)
    intro _ before last
    exact fresh (mem_singleton.mp last ▸ before)
  · intro token mem
    rw [tokens, mem_append, mem_singleton] at mem
    rw [nextToken]
    rcases mem with before | rfl
    · exact Nat.lt_succ_of_lt (kept.below token before)
    · exact Nat.lt_succ_self _
  · intro token mem
    rw [tokens, mem_append, mem_singleton] at mem
    rw [ended]
    rcases mem with before | rfl
    · exact kept.live token before
    · exact fun before => lt_irrefl _ (kept.endedBelow _ before)
  · intro token mem
    rw [ended] at mem
    rw [nextToken]
    exact Nat.lt_succ_of_lt (kept.endedBelow token mem)
  · rw [ended]
    exact kept.endedOnce
  · rw [ended, books]
    exact kept.chargedEnded
  · rw [books]
    exact kept.chargedOnce

theorem RunsKept.recover (site : Credits.Site) (now : ℚ) (rows : List ActiveStream) (kept : RunsKept past store)
  (distinct : rows.Nodup) (stored : ∀ row ∈ rows, row ∈ store.streams) :
  RunsKept (past ++ rows.map (.recovered ·.ownerToken)) (recoverStreams site now rows store) := by
  induction rows generalizing past store with
  | nil =>
    rw [map_nil, append_nil]
    exact kept
  | cons row rest ih =>
    rw [nodup_cons] at distinct
    have mem := stored row mem_cons_self
    rcases recoverStream_tables site now store row with ⟨streams, nextToken, charged⟩
    have closed : RunsKept (past ++ [.recovered row.ownerToken]) (recoverStream site now store row) := by
      refine kept.close rfl (mem_map.mpr ⟨row, mem, rfl⟩) ?_ ?_ nextToken charged
      · rw [streams]
        exact deleteWhere_sublist
      · rw [ChatStore.tokens, streams]
        exact kept.gone mem (decide_eq_true rfl)
    have later := ih closed distinct.2 (by
      intro other otherIn
      rw [streams]
      refine mem_deleteWhere.mpr ⟨stored other (.tail _ otherIn), ?_⟩
      intro same
      have sameRow : other = row := eq_of_key kept.sessions (stored other (.tail _ otherIn))
        mem (of_decide_eq_true same)
      exact distinct.1 (sameRow ▸ otherIn))
    rw [append_assoc] at later
    exact later

theorem RunsKept.next {past : List RunEvent} {store : ChatStore} (kept : RunsKept past store) (action : ChatAction)
  (allowed : chatEnabled store action) : RunsKept (past ++ runEvents store action) (chatNext store action) := by
  have quiet : ∀ after : ChatStore, after.streams.map streamKey = store.streams.map streamKey ->
      after.nextToken = store.nextToken -> chargedTokens after.books.ledger = chargedTokens store.books.ledger ->
      RunsKept (past ++ []) after := by
    intro after keys nextToken charged
    rw [append_nil]
    exact kept.keep keys nextToken charged
  have updated : ∀ (selected : ActiveStream -> Bool) (change : ActiveStream -> ActiveStream),
      (∀ row, streamKey (change row) = streamKey row) ->
      (updateWhere selected change store.streams).map streamKey = store.streams.map streamKey :=
    fun _ _ same => map_updateWhere streamKey same
  cases action with
  | begin site now rows question =>
    simp only [chatNext, runEvents]
    cases started : begin site now rows question store with
    | none => exact quiet store rfl rfl rfl
    | some result =>
      rcases begin_tables started with ⟨free, session, rfl⟩
      rcases beginRun_tables now question session (recoverStreams site now rows store) with
        ⟨⟨row, streams, key⟩, nextToken, books, token⟩
      have recovered := kept.recover site now rows allowed.1.distinct allowed.1.stored
      have opened := recovered.open free streams key nextToken books
      rw [append_assoc] at opened
      exact opened
  | abort sessionId begun =>
    simp only [chatNext, runEvents]
    by_cases lost : affected (owned sessionId begun.token) store.streams = 0
    · simp only [abort, lost, if_true, Bool.false_eq_true, if_false]
      exact quiet store rfl rfl rfl
    · rcases abort_tables lost with ⟨⟨row, mem, owned, token⟩, streams, nextToken, books, aborted⟩
      rw [aborted, if_pos rfl]
      refine kept.close rfl (mem_map.mpr ⟨row, mem, token⟩) ?_ ?_ nextToken (.inl ?_)
      · rw [streams]
        exact deleteWhere_sublist
      · rw [ChatStore.tokens, streams, <- token]
        exact kept.gone mem (by rw [token]; exact owned)
      · rw [books]
  | markRunning site sessionId token modelId =>
    simp only [chatNext, runEvents, markRunning]
    split
    · exact quiet _ (updated _ _ fun _ => rfl) rfl rfl
    · exact quiet _ (updated _ _ fun _ => rfl) rfl rfl
  | checkpoint site sessionId token content modelId tokensIn tokensOut =>
    exact quiet _ (updated _ _ fun _ => rfl) rfl rfl
  | renew now sessionId token | expire sessionId token | requestStop sessionId | softDelete sessionId
  | hardDelete sessionId => exact quiet _ (updated _ _ fun _ => rfl) rfl rfl
  | finish site now sessionId token outcome =>
    simp only [chatNext, runEvents]
    cases finished : finish site now sessionId token outcome store with
    | none => exact quiet store rfl rfl rfl
    | some after =>
      rcases finish_tables finished with ⟨⟨row, mem, session, rowToken⟩, incognito, rfl⟩
      rcases commit_tables site now sessionId token outcome incognito store with ⟨streams, nextToken, charged⟩
      simp only [Option.isSome_some, if_true, Option.getD_some]
      refine kept.close rfl (mem_map.mpr ⟨row, mem, rowToken⟩) ?_ ?_ nextToken charged
      · rw [streams]
        exact deleteWhere_sublist
      · rw [ChatStore.tokens, streams, <- rowToken]
        exact kept.gone mem (decide_eq_true session)
  | recoverStale site now rows => exact kept.recover site now rows allowed.1.distinct allowed.1.stored
  | chargeElsewhere site now request =>
    refine quiet _ rfl rfl ?_
    simp only [chatNext]
    cases known : site.user request.userId with
    | none => rw [charge_of_no_user known]
    | some user =>
      have noRun : request.origin = none := allowed
      rw [charge_of_user (by rw [known]; rfl), chargedTokens, filterMap_append]
      simp [ChargeRequest.row, noRun, chargedTokens]

theorem runsKept_of_trace (trace : chatMachine.Trace runEvents past store) : RunsKept past store := by
  apply trace.induct
  · intro _ isInitial
    rcases isInitial with ⟨streams, books⟩
    constructor
    · rw [streams]
      exact nodup_nil
    · rw [tokens, streams]
      exact nodup_nil
    · intro token mem
      rw [tokens, streams] at mem
      cases mem
    · intro token mem
      rw [tokens, streams] at mem
      cases mem
    · intro token mem
      cases mem
    · exact nodup_nil
    · intro _ mem
      rw [books] at mem
      cases mem
    · rw [books]
      exact nodup_nil
  · intro _ _ action kept allowed
    exact kept.next action allowed

def ChatAction.carries (sessionId token : ℕ) : ChatAction -> Prop
  | .abort session begun => session = sessionId /\ begun.token = token
  | .markRunning _ session own _ => session = sessionId /\ own = token
  | .checkpoint _ session own _ _ _ _ => session = sessionId /\ own = token
  | .renew _ session own => session = sessionId /\ own = token
  | .expire session own => session = sessionId /\ own = token
  | .finish _ _ session own _ => session = sessionId /\ own = token
  | _ => False

theorem chatNext_of_absent {action : ChatAction} (carried : action.carries sessionId token)
  (absent : (sessionId, token) ∉ store.streams.map streamKey) : chatNext store action = store := by
  cases action with
  | abort session begun =>
    rcases carried with ⟨rfl, rfl⟩
    simp [chatNext, abort, affected_of_absent absent]
  | markRunning site session own modelId =>
    rcases carried with ⟨rfl, rfl⟩
    simp [chatNext, markRunning, affected_of_absent absent, updateStream_of_absent absent]
  | checkpoint site session own content modelId tokensIn tokensOut | renew now session own | expire session own =>
    rcases carried with ⟨rfl, rfl⟩
    exact updateStream_of_absent absent _
  | finish site now session own outcome =>
    rcases carried with ⟨rfl, rfl⟩
    cases finished : finish site now session own outcome store with
    | none => simp [chatNext, finished]
    | some after =>
      rcases finish_tables finished with ⟨⟨row, mem, rowSession, rowToken⟩, _⟩
      exact absurd (mem_map.mpr ⟨row, mem, by rw [streamKey, rowSession, rowToken]⟩) absent
  | begin site now rows question | recoverStale site now rows | requestStop sessionId | softDelete sessionId
  | hardDelete sessionId | chargeElsewhere site now request => cases carried

/-- Chat runs end exactly once: a run is charged at most once, and late operations change nothing. -/
theorem chat_runs_end_once {past : List RunEvent} {store : ChatStore}
  (trace : chatMachine.Trace runEvents past store) :
  (store.streams.map ActiveStream.sessionId).Nodup /\
    (endedTokens past).Nodup /\
    (∀ token, (store.books.ledger.filter (·.origin = some token)).length <= 1) /\
    (∀ sessionId token action, ChatAction.carries sessionId token action -> token ∈ endedTokens past ->
      chatNext store action = store) /\
    (∀ row ∈ store.streams, ∀ token action, ChatAction.carries row.sessionId token action ->
      token ≠ row.ownerToken -> chatNext store action = store) := by
  have kept := runsKept_of_trace trace
  refine ⟨kept.sessions, kept.endedOnce, ?_, ?_, ?_⟩
  · intro token
    have counted : (store.books.ledger.filter (·.origin = some token)).length =
        (chargedTokens store.books.ledger).count token := by
      rw [chargedTokens, count_filterMap, countP_eq_length_filter]
      congr 1
      apply filter_congr
      intro row _
      exact (beq_eq_decide _ _).symm
    rw [counted]
    exact nodup_iff_count_le_one.mp kept.chargedOnce token
  · intro sessionId token action carried ended
    apply chatNext_of_absent carried
    intro mem
    rcases mem_map.mp mem with ⟨row, rowMember, key⟩
    have own : row.ownerToken = token := congrArg Prod.snd key
    exact kept.live token (mem_map.mpr ⟨row, rowMember, own⟩) ended
  · intro row rowMember token action carried older
    apply chatNext_of_absent carried
    intro mem
    rcases mem_map.mp mem with ⟨other, otherIn, key⟩
    have sameRow : other = row := eq_of_key kept.sessions otherIn rowMember (congrArg Prod.fst key)
    exact older ((congrArg Prod.snd key).symm.trans (by rw [sameRow]; rfl))

/-- A run stalls, the next question of its chat recovers it, and its slow finish
comes after that: the partial answer is charged and the new run is untouched. -/
theorem chat_runs_end_once_witness :
  ∃ past store,
    chatMachine.Trace runEvents past store /\ past = [.began 0, .recovered 0, .began 1] /\
    store.books.ledger.map (fun row => (row.origin, row.tokensIn, row.tokensOut)) = [(some 0, 3, 4)] /\
    ∀ site now outcome, chatNext store (.finish site now 1 0 outcome) = store := by
  let site : Credits.Site := ⟨[⟨1, false⟩], [], [], [], none, none⟩
  let chat : ChatSession := ⟨1, 1, "Tea", false, false, .idle, "", none⟩
  let empty : ChatStore := ⟨[chat], [], 0, [], 0, [], 0, ⟨[], []⟩, []⟩
  let stalled : ActiveStream := ⟨1, 0, false, 10, 10, 0, some 1, false, none, "abc", 3, 4⟩
  have start : chatMachine.Trace runEvents [] empty := .start ⟨rfl, rfl⟩
  have begun := start.act (.begin site 10 [] ⟨1, 1, "Why?", [], none, true⟩)
    ⟨⟨nodup_nil, by decide +kernel, by decide +kernel⟩, by decide +kernel⟩
  have partly := begun.act (.checkpoint site 1 0 "abc" none 3 4) trivial
  have again := partly.act (.begin site 100 [stalled] ⟨1, 1, "And?", [], none, true⟩)
    ⟨⟨nodup_singleton _, by decide +kernel, by decide +kernel⟩, by decide +kernel⟩
  refine ⟨_, _, again, by decide +kernel, by decide +kernel, ?_⟩
  intro site now outcome
  exact (chat_runs_end_once again).2.2.2.1 1 0 (.finish site now 1 0 outcome) ⟨rfl, rfl⟩ (by decide +kernel)

end BananaChat.Runs

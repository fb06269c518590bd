import BananaChat.Community.Board

namespace BananaChat.Community

open Foundation Rows

/-!
# What an operation may do

Each operation is at most one quiet change (a submission, a vote, a decision against the request)
followed by at most one application of a request.
-/

/-- The row that `create_grant` stores. -/
def GrantDraft.row (draft : GrantDraft) (id : ℕ) : Grant :=
  { id, userId := draft.userId, pool := draft.pool, modelId := draft.modelId, scope := draft.scope, kind := draft.kind,
    amount := if draft.kind = .unlimited then 0 else draft.amount, startsAt := draft.startsAt, endsAt := draft.endsAt,
    revokedAt := none }

def Tables.withGrant (tables : Tables) (grant : Grant) : Tables :=
  { tables with nextGrant := tables.nextGrant + 1, grants := tables.grants ++ [grant] }

variable {around : Surroundings} {tables : Tables}

theorem createGrant_eq {draft : GrantDraft} {created : ℕ × Tables}
  (done : createGrant around draft tables = some created) :
  created = (tables.nextGrant, tables.withGrant (draft.row tables.nextGrant)) /\ validateGrant around draft := by
  unfold createGrant at done
  split at done
  · rename_i valid
    cases done
    exact ⟨rfl, valid⟩
  · cases done

theorem validateGrant_extra {draft : GrantDraft} (valid : validateGrant around draft)
  (extra : draft.kind = .extra) : 1 <= draft.amount := by
  unfold validateGrant at valid
  rw [extra] at valid
  simp only [Bool.and_eq_true, decide_eq_true_eq] at valid
  exact valid.1.2.1.1.2

structure Carries (around : Surroundings) (row : QuotaRequest) (ends : ℕ) (grant : Grant) : Prop where
  owner : grant.userId = some row.userId
  pool : grant.pool = (target row).pool
  modelId : grant.modelId = (target row).modelId
  starts : grant.startsAt = around.later
  ends : grant.endsAt = some ends
  standing : grant.revokedAt = none
  tokens : ∀ period, scope row = some period ->
    grant.scope = some (.period period) /\ grant.kind = .extra /\ grant.amount = increase around row /\
      0 < increase around row
  others : scope row = none -> grant.kind ≠ .extra

theorem grantFor_spec {row : QuotaRequest} {ends : ℕ} {granted : Tables} {grantId : Option ℕ}
  (done : grantFor around row ends tables = some (grantId, granted)) :
  (grantId = none /\ granted = tables /\ increase around row = 0) \/
    ∃ grant, grantId = some tables.nextGrant /\ grant.id = tables.nextGrant /\ granted = tables.withGrant grant /\
      Carries around row ends grant := by
  have create : ∀ draft : GrantDraft,
      (createGrant around draft tables).map (fun created => (some created.1, created.2)) = some (grantId, granted) ->
      grantId = some tables.nextGrant /\ granted = tables.withGrant (draft.row tables.nextGrant) /\
        validateGrant around draft := by
    intro _ created
    rcases Option.map_eq_some_iff.mp created with ⟨_, made, same⟩
    rcases createGrant_eq made with ⟨rfl, valid⟩
    cases same
    exact ⟨rfl, rfl, valid⟩
  have extra : ∀ period amount, scope row = some period -> amount = increase around row ->
      (createGrant around
        { userId := some row.userId, pool := (target row).pool, modelId := (target row).modelId, scope := some (.period period),
          kind := .extra, amount := (amount : ℕ), startsAt := around.later, endsAt := some ends } tables).map
        (fun created => (some created.1, created.2)) = some (grantId, granted) ->
      ∃ grant, grantId = some tables.nextGrant /\ grant.id = tables.nextGrant /\ granted = tables.withGrant grant /\
        Carries around row ends grant := by
    intro period amount isScope isIncrease created
    rcases create _ created with ⟨isNext, isGranted, valid⟩
    have positive : (1 : ℚ) <= (amount : ℕ) := validateGrant_extra valid rfl
    refine ⟨_, isNext, rfl, isGranted, rfl, rfl, rfl, rfl, rfl, rfl, ?_, ?_⟩
    · intro _ isOther
      rw [isScope] at isOther
      cases isOther
      refine ⟨rfl, rfl, ?_, ?_⟩
      · rw [<- isIncrease]
        rfl
      · rw [<- isIncrease]
        exact_mod_cast positive
    · intro none
      rw [isScope] at none
      cases none
  unfold grantFor at done
  cases kind : row.kind with
  | effort =>
    rw [kind] at done
    dsimp only at done
    split at done
    · cases done
    · cases done
      refine .inl ⟨rfl, rfl, ?_⟩
      unfold increase
      rw [kind]
  | temporary =>
    rw [kind] at done
    dsimp only at done
    split at done
    · cases done
    · rename_i allowed
      have limited : row.grantUnlimited = false := Bool.not_eq_true _ ▸ fun isUnlimited => allowed (.inl isUnlimited)
      refine .inr (extra .window (row.newTokens.getD 0) ?_ ?_ done)
      · unfold scope
        rw [kind, limited]
        rfl
      · unfold increase
        rw [kind, limited]
        rfl
  | window =>
    rw [kind] at done
    dsimp only at done
    split at done
    · cases done
    · split at done
      · refine .inr (extra .window _ ?_ rfl done)
        unfold scope
        rw [kind]
      · rename_i none
        cases done
        exact .inl ⟨rfl, rfl, Nat.eq_zero_of_not_pos none⟩
  | weekly =>
    rw [kind] at done
    dsimp only at done
    split at done
    · cases done
    · split at done
      · refine .inr (extra .weekly _ ?_ rfl done)
        unfold scope
        rw [kind]
      · rename_i none
        cases done
        exact .inl ⟨rfl, rfl, Nat.eq_zero_of_not_pos none⟩
  | rate =>
    have unscoped : scope row = none := by
      unfold scope
      rw [kind]
    have without : increase around row = 0 := by
      unfold increase
      rw [kind]
    rw [kind] at done
    dsimp only at done
    split at done
    · cases done
    · split at done
      · cases done
      · split at done
        · rcases create _ done with ⟨isNext, isGranted, _⟩
          refine .inr ⟨_, isNext, rfl, isGranted, rfl, rfl, rfl, rfl, rfl, rfl, ?_, ?_⟩
          · intro _ isScope
            rw [unscoped] at isScope
            cases isScope
          · exact fun _ => GrantKind.noConfusion
        · cases done
          exact .inl ⟨rfl, rfl, without⟩

inductive Quiet (action : Action) (tables : Tables) : Tables -> Prop
  | stays : Quiet action tables tables
  | submitted (row : QuotaRequest) (fresh : row.id = tables.nextRequest) (waits : row.status = .pending)
      (manual : row.source = .manual) (unclosed : row.communityClosedAt = none) :
      Quiet action tables { tables with requests := tables.requests ++ [row], nextRequest := tables.nextRequest + 1 }
  | voted (user : Person) (row : QuotaRequest) (stance : Stance) (tokens : ℕ) (mem : row ∈ tables.requests)
      (isOpen : votingOpen action.around.options action.around.now row)
      (room : 0 < tokens -> stance = .support /\ tokens <= pledgeRoom action.around user row tables.votes) :
      Quiet action tables { tables with votes := castVote user row stance tokens tables.votes }
  | withdrew (selected : Vote -> Bool) :
      Quiet action tables { tables with votes := deleteWhere selected tables.votes }
  | ended (row : QuotaRequest) (status : Status) (now : ℕ) (selected : QuotaRequest -> Bool) (mem : row ∈ tables.requests)
      (waits : row.status = .pending) (against : status ≠ .pending /\ status ≠ .approved)
      (chosen : ∀ other, selected other -> other.id = row.id) (itself : selected row) :
      Quiet action tables { tables with
        requests := updateWhere selected (fun other => { other with status }) tables.requests,
        votes := release row.id now tables.votes }
  | closed (row : QuotaRequest) (now : ℕ) (mem : row ∈ tables.requests) (waits : row.status = .pending) :
      Quiet action tables { tables with
        requests := updateWhere (·.id = row.id)
          (fun other => { other with communityClosedAt := some now }) tables.requests,
        votes := release row.id now tables.votes }
  | revoked (around : Surroundings) (grantId : ℕ) (isRevoke : action = .revoke around grantId) :
      Quiet action tables (revokeGrant grantId around.now tables)

def Action.Settles (tables : Tables) : Action -> QuotaRequest -> List Vote -> Prop
  | .vote around user requestId stance tokens, row, votes =>
    requestRow requestId tables = some row /\ eligible around user row = none /\
      renouncedTokens row stance tokens <= pledgeRoom around user row tables.votes /\
      votes = castVote user row stance (renouncedTokens row stance tokens) tables.votes
  | .close _ requestId, row, votes => requestRow requestId tables = some row /\ votes = tables.votes
  | _, _, _ => False

inductive Approves (around : Surroundings) (settles : QuotaRequest -> List Vote -> Prop) (tables : Tables) : Tables -> Prop
  | community (row : QuotaRequest) (mem : row ∈ tables.requests) (settled : settles row tables.votes)
      (isOpen : votingOpen around.options around.later row)
      (covered : (consent around row tables.votes).reached) (after : Tables)
      (applied : apply around row tables = some after) : Approves around settles tables after
  | exact (row : QuotaRequest) (mem : row ∈ tables.requests) (waits : row.status = .pending) (grantId : Option ℕ)
      (granted : Tables) (creates : (grantId = none /\ granted = tables) \/ ∃ grant,
        grantId = some tables.nextGrant /\ grant.id = tables.nextGrant /\ granted = tables.withGrant grant) :
      Approves around settles tables { granted.carry row.id with
        requests := updateWhere (·.id = row.id)
          (fun other => { other with status := .approved, grantId := grantId.or other.grantId }) tables.requests,
        votes := release row.id around.later tables.votes }
  | automatic (row : QuotaRequest) (fresh : row.id = tables.nextRequest) (isAutomatic : row.status = .approved /\ row.source = .automatic) :
      Approves around settles tables
        { tables.carry row.id with requests := tables.requests ++ [row], nextRequest := tables.nextRequest + 1 }

theorem requestRow_mem {requestId : ℕ} {row : QuotaRequest} (found : requestRow requestId tables = some row) :
  row ∈ tables.requests /\ row.id = requestId :=
  of_find_key found

theorem votingOpen_pending {options : Options} {now : ℕ} {row : QuotaRequest} (isOpen : votingOpen options now row) :
  row.status = .pending /\ unlimited row = false /\ row.community /\ row.communityClosedAt = none := by
  unfold votingOpen at isOpen
  simp only [Bool.and_eq_true, decide_eq_true_eq, Bool.not_eq_true', Option.isNone_iff_eq_none] at isOpen
  exact ⟨isOpen.1.1.1.1.1.1, isOpen.2, isOpen.1.1.1.1.1.2, isOpen.1.1.1.1.2⟩

theorem settle_cases (around : Surroundings) {settles : QuotaRequest -> List Vote -> Prop} {row : QuotaRequest}
  (mem : row ∈ tables.requests) (settled : settles row tables.votes) :
  (settle around row tables).1 = tables \/ Approves around settles tables (settle around row tables).1 := by
  unfold settle
  split
  · exact .inl rfl
  · rename_i waiting
    split
    · exact .inl rfl
    · rename_i covered
      rw [Bool.or_eq_true, not_or] at waiting covered
      cases applied : apply around row tables with
      | none => exact .inl rfl
      | some after =>
        refine .inr (Approves.community row mem settled ?_ ?_ after applied)
        · exact Bool.not_eq_false _ ▸ fun closed => waiting.2 (by rw [closed]; rfl)
        · exact Bool.not_eq_false _ ▸ fun uncovered => covered.2 (by rw [uncovered]; rfl)

def castTables (user : Person) (row : QuotaRequest) (stance : Stance) (tokens : ℕ) (tables : Tables) : Tables :=
  { tables with votes := castVote user row stance (renouncedTokens row stance tokens) tables.votes }

theorem vote_cases {user : Person} {requestId : ℕ} {stance : Stance} {tokens : ℕ} {after : Tables} {status : Status}
  (done : vote around user requestId stance tokens tables = .ok (after, status)) :
  ∃ row, requestRow requestId tables = some row /\
    Quiet (.vote around user requestId stance tokens) tables (castTables user row stance tokens tables) /\
    (after = castTables user row stance tokens tables \/
      Approves around (Action.Settles tables (.vote around user requestId stance tokens))
        (castTables user row stance tokens tables) after) := by
  unfold vote at done
  cases found : requestRow requestId tables with
  | none =>
    rw [found] at done
    cases done
  | some row =>
    rw [found] at done
    dsimp only at done
    have mem := (requestRow_mem found).1
    cases problem : eligible around user row with
    | some error =>
      rw [problem] at done
      cases done
    | none =>
      rw [problem] at done
      dsimp only at done
      split at done
      · cases done
      · rename_i fits
        have isOpen : votingOpen around.options around.now row := by
          unfold eligible at problem
          split at problem
          · cases problem
          · rename_i notClosed
            exact Bool.not_eq_false _ ▸ notClosed
        have room : 0 < renouncedTokens row stance tokens ->
            stance = .support /\ renouncedTokens row stance tokens <= pledgeRoom around user row tables.votes := by
          intro positive
          refine ⟨?_, Nat.le_of_not_lt fun more => fits ⟨positive, more⟩⟩
          cases stance with
          | support => rfl
          | object => exact absurd positive (Nat.lt_irrefl 0)
        have settled : settle around row (castTables user row stance tokens tables) = (after, status) := Except.ok.inj done
        have fitting : renouncedTokens row stance tokens <= pledgeRoom around user row tables.votes := by
          rcases Nat.eq_zero_or_pos (renouncedTokens row stance tokens) with nothing | positive
          · rw [nothing]
            exact Nat.zero_le _
          · exact (room positive).2
        have settles : Action.Settles tables (.vote around user requestId stance tokens) row
            (castTables user row stance tokens tables).votes := ⟨found, problem, fitting, rfl⟩
        have outcomes := settle_cases around
          (show row ∈ (castTables user row stance tokens tables).requests from mem) settles
        rw [settled] at outcomes
        exact ⟨row, rfl, Quiet.voted user row stance _ mem isOpen room, outcomes⟩

theorem closeExpired_cases (around : Surroundings) (requestId : ℕ) (tables : Tables) :
  ∃ middle, Quiet (.close around requestId) tables middle /\ (closeExpired around requestId tables = middle \/
    Approves around (Action.Settles tables (.close around requestId)) middle (closeExpired around requestId tables)) := by
  unfold closeExpired
  cases found : requestRow requestId tables with
  | none => exact ⟨tables, .stays, .inl rfl⟩
  | some row =>
    have settles : Action.Settles tables (.close around requestId) row tables.votes := ⟨found, rfl⟩
    rcases requestRow_mem found with ⟨mem, rfl⟩
    dsimp only
    split
    · exact ⟨tables, .stays, .inl rfl⟩
    · rename_i waiting
      have waits : row.status = .pending := by
        by_contra decided
        exact waiting (.inl decided)
      split
      · exact ⟨_, .closed row around.now mem waits, .inl rfl⟩
      · exact ⟨tables, .stays, settle_cases around mem settles⟩

theorem updateWhere_updateWhere (requestId : ℕ) (first second : QuotaRequest -> QuotaRequest)
  (kept : ∀ row, (first row).id = row.id) (requests : List QuotaRequest) : updateWhere (·.id = requestId) second
      (updateWhere (·.id = requestId) first requests) =
    updateWhere (·.id = requestId) (fun row => second (first row)) requests := by
  unfold updateWhere
  rw [List.map_map]
  apply List.map_congr_left
  intro row _
  rw [Function.comp_apply]
  by_cases chosen : decide (row.id = requestId)
  · have again : decide ((first row).id = requestId) := by
      rw [kept]
      exact chosen
    rw [if_pos chosen, if_pos chosen, if_pos again]
  · rw [if_neg chosen, if_neg chosen, if_neg chosen]

theorem applyExactly_spec {row : QuotaRequest} {applied : Tables}
  (done : applyExactly around row tables = some applied) :
  applied = tables.carry row.id \/ ∃ grant, grant.id = tables.nextGrant /\
    applied = { (tables.withGrant grant).carry row.id with
      requests := updateWhere (·.id = row.id)
        (fun other => { other with grantId := some tables.nextGrant }) tables.requests } := by
  unfold applyExactly at done
  dsimp only at done
  split at done
  · cases done
  · split at done
    · split at done
      · cases done
      · cases done
        exact .inl rfl
    · split at done
      · cases done
      · cases done
        exact .inl rfl
    · split at done
      · cases done
      · cases done
        exact .inl rfl
    · split at done
      · cases done
      · cases done
        exact .inl rfl
    · split at done
      · cases done
      · rcases Option.map_eq_some_iff.mp done with ⟨_, made, same⟩
        rcases createGrant_eq made with ⟨rfl, _⟩
        exact .inr ⟨_, rfl, same.symm⟩

theorem resolveRequest_cases (around : Surroundings) (settles : QuotaRequest -> List Vote -> Prop) (requestId : ℕ)
  (approved : Bool) (tables : Tables) :
  ∃ middle, Quiet (.resolve around requestId approved) tables middle /\ (resolveRequest around requestId approved tables = middle \/
    Approves around settles middle (resolveRequest around requestId approved tables)) := by
  unfold resolveRequest
  cases found : requestRow requestId tables with
  | none => exact ⟨tables, .stays, .inl rfl⟩
  | some row =>
    rcases requestRow_mem found with ⟨mem, rfl⟩
    dsimp only
    split
    · rename_i waits
      cases approved with
      | false =>
        refine ⟨_, .ended row .denied around.later (fun other => decide (other.id = row.id)) mem waits
          ⟨Status.noConfusion, Status.noConfusion⟩ (fun other chosen => of_decide_eq_true chosen) (decide_eq_true rfl),
          .inl rfl⟩
      | true =>
        rw [if_pos rfl]
        cases done : applyExactly around row tables with
        | none => exact ⟨tables, .stays, .inl rfl⟩
        | some applied =>
          refine ⟨tables, .stays, .inr ?_⟩
          rcases applyExactly_spec done with same | ⟨grant, isNext, same⟩
          · rw [same]
            exact Approves.exact row mem waits none tables (.inl ⟨rfl, rfl⟩)
          · rw [same]
            dsimp only
            rw [updateWhere_updateWhere]
            · exact Approves.exact row mem waits (some tables.nextGrant) _ (.inr ⟨grant, rfl, isNext, rfl⟩)
            · exact fun _ => rfl
    · exact ⟨tables, .stays, .inl rfl⟩

theorem applyExactly_limit {row : QuotaRequest} {applied : Tables} (isLimit : row.kind = .window \/ row.kind = .weekly)
  (done : applyExactly around row tables = some applied) : applied = tables.carry row.id := by
  unfold applyExactly at done
  split at done
  · cases done
  · rcases isLimit with kind | kind
    · rw [kind] at done
      dsimp only at done
      split at done
      · cases done
      · cases done
        rfl
    · rw [kind] at done
      dsimp only at done
      split at done
      · cases done
      · cases done
        rfl

theorem automatic_kind {wish : Wish} (isAutomatic : automatic around wish) :
  wish.kind = .window \/ wish.kind = .weekly := by
  unfold automatic at isAutomatic
  cases kind : wish.kind with
  | window => exact .inl rfl
  | weekly => exact .inr rfl
  | _ =>
    rw [kind] at isAutomatic
    simp at isAutomatic

theorem submitRequest_cases (settles : QuotaRequest -> List Vote -> Prop) {wish : Wish} {after : Tables}
  (done : submitRequest around wish tables = .ok after) :
  Quiet (.submit around wish) tables after \/ Approves around settles tables after := by
  unfold submitRequest at done
  dsimp only at done
  split at done
  · cases done
  · split at done
    · cases done
    · split at done
      · cases done
      · split at done
        · cases done
        · split at done
          · rename_i isAutomatic
            have approved : (submittedRow around wish tables.nextRequest).status = .approved /\
                (submittedRow around wish tables.nextRequest).source = .automatic := by
              unfold submittedRow
              dsimp only
              rw [if_pos isAutomatic, if_pos isAutomatic]
              exact ⟨rfl, rfl⟩
            let inserted : Tables := { tables with
              requests := tables.requests ++ [submittedRow around wish tables.nextRequest],
              nextRequest := tables.nextRequest + 1 }
            cases applied : applyExactly around (submittedRow around wish tables.nextRequest) inserted with
            | none =>
              rw [applied] at done
              cases done
            | some result =>
              rw [applied] at done
              cases done
              rw [applyExactly_limit (automatic_kind isAutomatic) applied]
              exact .inr (.automatic _ rfl approved)
          · rename_i manual
            cases done
            refine .inl (.submitted _ rfl ?_ ?_ rfl)
            · unfold submittedRow
              dsimp only
              rw [if_neg manual]
            · unfold submittedRow
              dsimp only
              rw [if_neg manual]

theorem cancelRequest_quiet (around : Surroundings) (requestId userId now : ℕ) (tables : Tables) :
  Quiet (.cancel around requestId userId) tables (cancelRequest requestId userId now tables) := by
  unfold cancelRequest
  dsimp only
  split
  · rename_i changed
    have some : ∃ row ∈ tables.requests, (decide (row.id = requestId) && decide (row.userId = userId) &&
        decide (row.status = .pending)) := by
      by_contra none
      have unaffected := affected_eq_zero_iff.mpr (fun row mem chosen => none ⟨row, mem, chosen⟩)
      rw [unaffected] at changed
      exact absurd changed Nat.zero_ne_one
    rcases some with ⟨row, mem, chosen⟩
    have mine := chosen
    rw [Bool.and_eq_true, Bool.and_eq_true, decide_eq_true_eq, decide_eq_true_eq, decide_eq_true_eq] at mine
    obtain rfl : row.id = requestId := mine.1.1
    refine .ended row .cancelled now _ mem mine.2 ⟨Status.noConfusion, Status.noConfusion⟩ ?_ chosen
    intro _ otherChosen
    rw [Bool.and_eq_true, Bool.and_eq_true, decide_eq_true_eq] at otherChosen
    exact otherChosen.1.1
  · exact .stays

theorem perform_cases (tables : Tables) (action : Action) : (∃ middle, Quiet action tables middle /\
    (perform tables action = middle \/
      Approves action.around (action.Settles tables) middle (perform tables action))) \/
    ∃ around draft grant, action = .grant around draft /\
      grant.id = tables.nextGrant /\ perform tables action = tables.withGrant grant := by
  cases action with
  | submit around wish =>
    refine .inl ?_
    dsimp only [perform, Action.around]
    cases done : submitRequest around wish tables with
    | error problem => exact ⟨tables, .stays, .inl rfl⟩
    | ok after =>
      rcases submitRequest_cases (Action.Settles tables (.submit around wish)) done with quiet | approves
      · exact ⟨after, quiet, .inl rfl⟩
      · exact ⟨tables, .stays, .inr approves⟩
  | vote around user requestId stance tokens =>
    refine .inl ?_
    dsimp only [perform, Action.around]
    cases done : vote around user requestId stance tokens tables with
    | error problem => exact ⟨tables, .stays, .inl rfl⟩
    | ok result =>
      rcases vote_cases done with ⟨row, _, quiet, outcomes⟩
      exact ⟨_, quiet, outcomes⟩
  | withdraw around userId requestId =>
    refine .inl ⟨_, ?_, .inl rfl⟩
    dsimp only [perform, Action.around]
    unfold withdraw
    cases requestRow requestId tables with
    | none => exact .stays
    | some row =>
      dsimp only
      split
      · exact .withdrew _
      · exact .stays
  | cancel around requestId userId => exact .inl ⟨_, cancelRequest_quiet _ _ _ _ _, .inl rfl⟩
  | resolve around requestId approved => exact .inl (resolveRequest_cases around _ requestId approved tables)
  | close around requestId => exact .inl (closeExpired_cases around requestId tables)
  | grant around draft =>
    dsimp only [perform, Action.around]
    cases done : createGrant around draft tables with
    | none => exact .inl ⟨tables, .stays, .inl rfl⟩
    | some created =>
      rcases createGrant_eq done with ⟨rfl, _⟩
      exact .inr ⟨around, draft, _, rfl, rfl, rfl⟩
  | revoke around grantId => exact .inl ⟨_, .revoked around grantId rfl, .inl rfl⟩

end BananaChat.Community

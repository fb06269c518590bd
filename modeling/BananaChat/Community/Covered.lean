import BananaChat.Community.BoardKept

namespace BananaChat.Community

open Foundation List

/-!
# Requests that were carried out

A request is carried out once, with one grant at most.
-/

/-- A request that a step carried out, the grants that were created in that step, and
what supporters had pledged by its end. -/
structure Application where
  requestId : ℕ
  source : Option Source
  grants : List Grant
  pledged : ℕ
  coverage : ℕ
deriving DecidableEq

def Application.Covered (application : Application) : Prop :=
  ∀ grant ∈ application.grants, grant.kind = .extra ->
    ∃ tokens : ℕ, grant.amount = tokens /\ share tokens application.coverage <= application.pledged

def applications (state : Board) (action : Action) : List Application :=
  let after := perform state.tables action
  (after.carriedOut.drop state.tables.carriedOut.length).map (fun requestId =>
    { requestId, source := (requestRow requestId after).map QuotaRequest.source,
      grants := after.grants.drop state.tables.grants.length, pledged := pledgedFor requestId after.votes,
      coverage := action.around.options.coveragePercent })

variable {row : QuotaRequest}

theorem pledgedFor_applied (tokens : row.kind ≠ .effort) (starts ends : ℕ) (votes : List Vote) :
  pledgedFor row.id votes <= pledgedFor row.id (votes.map (appliedVote row starts ends)) := by
  have kept := @Rows.sumWhere_le_updateWhere _ (fun _ => true) (appliedVote row starts ends) votes
    (fun vote => decide (vote.requestId = row.id) && decide (vote.stance = .support) && vote.releasedAt.isNone) Vote.tokens
  refine kept ?_
  intro vote _ _ counted
  rcases Nat.eq_zero_or_pos vote.tokens with nothing | positive
  · exact .inl nothing
  · have started : startOne row.id starts ends vote = { vote with startsAt := some starts, endsAt := some ends } := by
      unfold startOne
      rw [Bool.and_eq_true, Bool.and_eq_true] at counted
      rw [counted.1.1, counted.1.2, counted.2, decide_eq_true positive]
      rfl
    have applied : appliedVote row starts ends vote = { vote with startsAt := some starts, endsAt := some ends } := by
      unfold appliedVote releaseOne
      rw [if_neg tokens, started, if_neg]
      simp
    refine .inr ⟨?_, ?_⟩
    · rw [applied]
      exact counted
    · rw [applied]

variable {around : Surroundings}

theorem consent_covers {votes : List Vote} {period : Period}
  (isScope : scope row = some period) (reached : (consent around row votes).reached) :
  share (increase around row) around.options.coveragePercent <= pledgedFor row.id votes := by
  unfold Consent.reached at reached
  rw [Bool.and_eq_true, decide_eq_true_eq] at reached
  have enough := reached.2
  unfold consent at enough
  rw [isScope] at enough
  exact enough

theorem scope_effort (effort : row.kind = .effort) : scope row = none := by
  unfold scope
  rw [effort]

variable {tables after : Tables}

theorem Quiet.carriedOut {action : Action} (quiet : Quiet action tables after) :
  after.carriedOut = tables.carriedOut /\ after.grants.map Grant.id = tables.grants.map Grant.id := by
  cases quiet with
  | revoked around grantId isRevoke => exact ⟨rfl, Rows.map_updateWhere Grant.id fun _ => rfl⟩
  | _ => exact ⟨rfl, rfl⟩

/-- One request is carried out, with one grant at most; where it was the community's
approval, the pledges cover the tokens. -/
theorem Approves.carriedOut {settles : QuotaRequest -> List Vote -> Prop} (approves : Approves around settles tables after)
  (before : Sound tables) : ∃ requestId, ∃ created : List Grant, after.carriedOut = tables.carriedOut ++ [requestId] /\
    after.grants = tables.grants ++ created /\ created.length <= 1 /\
    ((requestRow requestId after).map QuotaRequest.source = some .community ->
      ∀ grant ∈ created, grant.kind = .extra -> ∃ tokens : ℕ,
        grant.amount = tokens /\ share tokens around.options.coveragePercent <= pledgedFor requestId after.votes) := by
  have after_sound := approves.sound before
  cases approves with
  | community row mem settled isOpen covered _ applied =>
    rcases apply_spec before.requestIds mem applied with ⟨grantId, granted, granting, grants, carried, decides⟩
    rcases grantFor_spec granting with ⟨_, rfl, _⟩ | ⟨grant, _, _, rfl, carries⟩
    · exact ⟨row.id, [], carried, by rw [grants, append_nil], Nat.zero_le _, fun _ _ none => absurd none not_mem_nil⟩
    · refine ⟨row.id, [grant], carried, grants, le_refl _, ?_⟩
      intro _ _ isGrant extra
      rw [mem_singleton] at isGrant
      subst isGrant
      cases isScope : scope row with
      | none => exact absurd extra (carries.others isScope)
      | some period =>
        have tokens : row.kind ≠ .effort := by
          intro effort
          rw [scope_effort effort] at isScope
          cases isScope
        refine ⟨increase around row, (carries.tokens period isScope).2.2.1, ?_⟩
        rw [decides.votes]
        exact (consent_covers isScope covered).trans (pledgedFor_applied tokens _ _ tables.votes)
  | exact row mem waits grantId granted creates =>
    have unapproved : row.source ≠ .community := by
      rw [before.manual row mem waits]
      exact Source.noConfusion
    have found := (exact_decides before.requestIds mem creates).requestRow_eq after_sound mem
    rcases creates with ⟨_, rfl⟩ | ⟨grant, _, _, rfl⟩
    · refine ⟨row.id, [], rfl, (append_nil _).symm, Nat.zero_le _, fun _ _ none => absurd none not_mem_nil⟩
    · refine ⟨row.id, [grant], rfl, rfl, le_refl _, ?_⟩
      intro community
      rw [found] at community
      exact absurd (Option.some.inj community) unapproved
  | automatic row fresh isAutomatic =>
    exact ⟨row.id, [], rfl, (append_nil _).symm, Nat.zero_le _, fun _ _ none => absurd none not_mem_nil⟩

theorem applications_spec {state : Board} (sound : Sound state.tables) (action : Action) :
  (applications state action = [] /\ (perform state.tables action).carriedOut = state.tables.carriedOut /\
    ((perform state.tables action).grants.map Grant.id = state.tables.grants.map Grant.id \/
      ∃ around draft, action = .grant around draft)) \/
  ∃ application, applications state action = [application] /\
    (perform state.tables action).carriedOut = state.tables.carriedOut ++ [application.requestId] /\
    application.grants.length <= 1 /\ (application.source = some .community -> application.Covered) := by
  have silent : (perform state.tables action).carriedOut = state.tables.carriedOut -> applications state action = [] := by
    intro same
    unfold applications
    dsimp only
    rw [same, drop_length]
    rfl
  rcases perform_cases state.tables action with ⟨middle, quiet, same | approves⟩ | ⟨around, draft, _, isGrant, _, same⟩
  · rw [same] at silent ⊢
    exact .inl ⟨silent quiet.carriedOut.1, quiet.carriedOut.1, .inl quiet.carriedOut.2⟩
  · rcases quiet.carriedOut with ⟨noneCarried, sameGrants⟩
    rcases approves.carriedOut (quiet.sound sound) with ⟨requestId, created, carried, grants, single, covered⟩
    have sameLength : middle.grants.length = state.tables.grants.length := by
      rw [<- length_map Grant.id, sameGrants, length_map]
    rw [noneCarried] at carried
    have newGrants : (perform state.tables action).grants.drop state.tables.grants.length = created := by
      rw [grants, <- sameLength, drop_left]
    let application : Application :=
      { requestId, source := (requestRow requestId (perform state.tables action)).map QuotaRequest.source, grants := created,
        pledged := pledgedFor requestId (perform state.tables action).votes,
        coverage := action.around.options.coveragePercent }
    refine .inr ⟨application, ?_, carried, single, covered⟩
    unfold applications
    dsimp only
    rw [newGrants, carried, drop_left]
    rfl
  · rw [same] at silent ⊢
    exact .inl ⟨silent rfl, rfl, .inr ⟨around, draft, isGrant⟩⟩

def Accounted (past : List Application) (state : Board) : Prop :=
  Sound state.tables /\ past.map Application.requestId = state.tables.carriedOut /\ ∀ application ∈ past,
      application.grants.length <= 1 /\ (application.source = some .community -> application.Covered)

theorem accounted_of_trace {permits : Board -> Action -> Prop} {past : List Application} {state : Board}
  (trace : (board permits).Trace applications past state) : Accounted past state := by
  refine Machine.Trace.induct ?_ ?_ trace
  · intro start isInitial
    exact ⟨(sound_invariant permits).initial start isInitial, isInitial.2.2.2.symm, forall_mem_nil _⟩
  · rintro before old action ⟨sound, carriedOut, known⟩ _
    refine ⟨perform_sound sound action, ?_, ?_⟩
    · change (before ++ applications old action).map Application.requestId = (perform old.tables action).carriedOut
      rcases applications_spec sound action with ⟨none, carried, _⟩ | ⟨application, single, carried, _⟩
      · rw [none, carried, append_nil]
        exact carriedOut
      · rw [single, carried, map_append, carriedOut]
        rfl
    · intro application mem
      rcases mem_append.mp mem with earlier | isNew
      · exact known application earlier
      · rcases applications_spec sound action with ⟨none, _, _⟩ | ⟨_, single, _, created, covered⟩
        · rw [none] at isNew
          exact absurd isNew not_mem_nil
        · rw [single, mem_singleton] at isNew
          subst isNew
          exact ⟨created, covered⟩

/--
In any order of operations each request is carried out once at most and with one grant at most, every approval
by the community is covered by unreleased pledges, and a request that was denied, cancelled or closed without
an approval keeps no unreleased pledge.
-/
theorem approvals_covered {past : List Application} {state : Board}
  (trace : (board fun _ _ => True).Trace applications past state) : (past.map Application.requestId).Nodup /\
    (∀ application ∈ past,
      application.grants.length <= 1 /\ (application.source = some .community -> application.Covered)) /\
    (∀ row ∈ state.tables.requests, row.Lost ->
      ∀ vote ∈ votesOf row.id state.tables.votes, vote.releasedAt ≠ none) /\
    ∀ action, applications state action = [] -> (∀ around draft, action ≠ .grant around draft) ->
      (perform state.tables action).grants.map Grant.id = state.tables.grants.map Grant.id := by
  rcases accounted_of_trace trace with ⟨sound, carriedOut, known⟩
  refine ⟨?_, known, ?_, ?_⟩
  · rw [carriedOut]
    exact sound.carriedOnce
  · intro row mem lost vote voteMember
    rcases mem_filter.mp voteMember with ⟨stored, mine⟩
    exact (sound.fits row mem vote stored (of_decide_eq_true mine)).lost lost
  · intro action none notOwn
    rcases applications_spec sound action with ⟨_, _, same | ⟨around, draft, isOwn⟩⟩ | ⟨application, single, _⟩
    · exact same
    · exact absurd isOwn (notOwn around draft)
    · rw [none] at single
      cases single

open SmallBoard in
/-- The 300 tokens cover half of the 600. -/
theorem approvals_covered_supported : ∃ past state, (board fun _ _ => True).Trace applications past state /\
    (past.map Application.requestId).Nodup /\
    ∃ application ∈ past, application.source = some .community /\
      application.grants.map Grant.amount = [600] /\ application.pledged = 300 /\ application.Covered := by
  have admitted : (board fun _ _ => True).Admits start supported := by
    refine ⟨⟨?_, ?_, trivial⟩, ⟨?_, ?_, trivial⟩, ⟨?_, ?_, trivial⟩, trivial⟩ <;> decide +kernel
  have initial : (board fun _ _ => True).initial start := ⟨rfl, rfl, rfl, rfl⟩
  have trace := (@Machine.Trace.start _ _ _ _ applications _ initial).run _ admitted
  have covered := approvals_covered trace
  let application : Application :=
    { requestId := 1, source := some .community, pledged := 300, coverage := 50,
      grants := [{ id := 1, userId := some 1, pool := some .chat, modelId := none, scope := some (.period .window),
                   kind := .extra, amount := 600, startsAt := 30, endsAt := some (30 + 168 * 3600), revokedAt := none }] }
  have reported : application ∈ [] ++ (board fun _ _ => True).reports applications start supported := by decide +kernel
  exact ⟨_, _, trace, covered.1, application, reported, rfl, rfl, rfl, (covered.2.1 application reported).2 rfl⟩

/-- An account has one vote on a request, which exists; while it waits no pledge begins, and when it is lost all are over. -/
theorem votes_fit {permits : Board -> Action -> Prop} {state : Board} (reachable : (board permits).Reachable state) :
  (state.tables.votes.map Vote.key).Nodup /\
    ∀ vote ∈ state.tables.votes, ∃ row ∈ state.tables.requests, row.id = vote.requestId /\ Fits row vote := by
  have sound := (sound_invariant permits).reachable reachable
  refine ⟨sound.voteKeys, fun vote mem => ?_⟩
  rcases mem_map.mp (sound.votesKnown vote mem) with ⟨row, isRow, same⟩
  exact ⟨row, isRow, same, sound.fits row isRow vote mem same.symm⟩

open SmallBoard in
theorem votes_fit_supported : (((board fun _ _ => True).run start supported).tables.votes.map Vote.key).Nodup := by
  have begun : (board fun _ _ => True).Reachable start := .start ⟨rfl, rfl, rfl, rfl⟩
  refine (votes_fit (begun.run supported ⟨⟨?_, ?_, trivial⟩, ⟨?_, ?_, trivial⟩, ⟨?_, ?_, trivial⟩, trivial⟩)).1 <;> decide +kernel

end BananaChat.Community

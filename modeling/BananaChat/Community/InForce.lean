import BananaChat.Community.BoardKept

namespace BananaChat.Community

open Foundation List
open Bool (and_eq_true)

/-!
# Pledges in force and the increase they pay for

While a pledge is in force it is taken off its owner's limit, and the requester should have the
tokens of the grant for as long.
-/

/-- The condition of `active_pledges`. -/
def Vote.inForce (now : ℕ) (vote : Vote) : Bool :=
  decide (vote.stance = .support) && decide (0 < vote.tokens) && vote.releasedAt.isNone &&
    vote.startsAt.any (· <= now) && vote.endsAt.any (now < ·)

/-- The condition of `active_grants`: those of an account, and those for everyone. -/
def Grant.active (userId now : ℕ) (grant : Grant) : Bool :=
  (decide (grant.userId = some userId) || grant.userId.isNone) && grant.revokedAt.isNone && decide (grant.startsAt <= now) &&
    (match grant.endsAt with
      | none => true
      | some ends => decide (now < ends))

/-- The grants that `effective` reads for a service, and `model_limits` for a model. -/
def Grant.concerns (limit : Target) (grant : Grant) : Bool :=
  match limit.modelId with
  | some modelId => decide (grant.modelId = some modelId) ||
      (grant.modelId.isNone && grant.pool.isNone && decide (grant.kind = .unlimited))
  | none => grant.modelId.isNone && (grant.pool.isNone || decide (grant.pool = limit.pool))

/-- The extra tokens that a limit is raised by, the last of `_grant_parts`. -/
def extras (userId : ℕ) (limit : Target) (period : Period) (now : ℕ) (grants : List Grant) : List Grant :=
  grants.filter (fun grant => grant.active userId now && grant.concerns limit && decide (grant.kind = .extra) &&
    decide (grant.scope = some (.period period)))

def Vote.backed (tables : Tables) (now : ℕ) (vote : Vote) : Bool :=
  tables.requests.any (fun row => decide (row.id = vote.requestId) && vote.scope.any (fun period =>
    (extras row.userId ⟨vote.pool, vote.modelId⟩ period now tables.grants).any (fun grant =>
      decide (row.grantId = some grant.id) && decide (1 <= grant.amount))))

def Backed (tables : Tables) (now : ℕ) : Prop := ∀ vote ∈ tables.votes, vote.inForce now -> vote.backed tables now

instance decidableBacked (tables : Tables) (now : ℕ) : Decidable (Backed tables now) :=
  inferInstanceAs (Decidable (∀ vote ∈ tables.votes, vote.inForce now -> vote.backed tables now))

def Vote.lasts (now : ℕ) (vote : Vote) : Bool :=
  decide (vote.stance = .support) && decide (0 < vote.tokens) && vote.releasedAt.isNone && vote.startsAt.isSome &&
    vote.endsAt.any (now < ·)

def Overtaken (around : Surroundings) (row : QuotaRequest) (votes : List Vote) : Prop :=
  votingOpen around.options around.later row /\ (consent around row votes).reached /\
    (scope row).any (baseFor around row.userId row).enabled /\ increase around row = 0 /\
    0 < pledgedFor row.id votes

/-- A grant is not revoked while its request's pledges last, and no request is settled
that was overtaken. -/
def KeepsIncrease (state : Board) (action : Action) : Prop :=
  (∀ row votes, action.Settles state.tables row votes -> ¬ Overtaken action.around row votes) /\
    ∀ around grantId, action = .revoke around grantId -> ∀ row ∈ state.tables.requests, row.grantId = some grantId ->
        ∀ vote ∈ state.tables.votes, vote.requestId = row.id -> vote.lasts around.now = false

variable {now : ℕ} {vote : Vote} {tables : Tables}

theorem inForce_started (inForce : vote.inForce now) : vote.startsAt ≠ none := by
  intro unstarted
  unfold Vote.inForce at inForce
  rw [unstarted] at inForce
  simp at inForce

theorem inForce_lasts {later : ℕ} (order : now <= later) (inForce : vote.inForce later) : vote.lasts now := by
  unfold Vote.inForce at inForce
  unfold Vote.lasts
  rcases started : vote.startsAt with _ | _
  · rw [started] at inForce
    simp at inForce
  · rcases ended : vote.endsAt with _ | _
    · rw [ended] at inForce
      simp at inForce
    · rw [started, ended] at inForce
      simp only [and_eq_true, Option.any_some, decide_eq_true_eq] at inForce
      simp only [and_eq_true, Option.any_some, decide_eq_true_eq, Option.isSome_some]
      exact ⟨⟨inForce.1.1, trivial⟩, lt_of_le_of_lt order inForce.2⟩

theorem backed_iff : vote.backed tables now ↔ ∃ row ∈ tables.requests, row.id = vote.requestId /\
    ∃ period, vote.scope = some period /\ ∃ grant,
      grant ∈ extras row.userId ⟨vote.pool, vote.modelId⟩ period now tables.grants /\ row.grantId = some grant.id /\
        1 <= grant.amount := by
  unfold Vote.backed
  rw [any_eq_true]
  constructor
  · rintro ⟨row, mem, found⟩
    rw [and_eq_true, decide_eq_true_eq, Option.any_eq_true] at found
    rcases found with ⟨same, period, isPeriod, granted⟩
    rcases any_eq_true.mp granted with ⟨grant, isExtra, isGrant⟩
    rw [and_eq_true, decide_eq_true_eq, decide_eq_true_eq] at isGrant
    exact ⟨row, mem, same, period, isPeriod, grant, isExtra, isGrant.1, isGrant.2⟩
  · rintro ⟨row, mem, same, period, isPeriod, grant, isExtra, isGrant, amount⟩
    refine ⟨row, mem, ?_⟩
    rw [and_eq_true, decide_eq_true_eq, Option.any_eq_true]
    refine ⟨same, period, isPeriod, any_eq_true.mpr ⟨grant, isExtra, ?_⟩⟩
    rw [and_eq_true, decide_eq_true_eq, decide_eq_true_eq]
    exact ⟨isGrant, amount⟩

variable {after : Tables}

theorem backed_stays (backed : vote.backed tables now)
  (rows : ∀ row ∈ tables.requests, row.id = vote.requestId -> row ∈ after.requests)
  (grants : ∀ row ∈ tables.requests, row.id = vote.requestId ->
    ∀ grant ∈ tables.grants, row.grantId = some grant.id -> grant ∈ after.grants) :
  vote.backed after now := by
  rcases backed_iff.mp backed with ⟨row, mem, same, period, isPeriod, grant, isExtra, isGrant, amount⟩
  rcases mem_filter.mp isExtra with ⟨grantMember, counts⟩
  exact backed_iff.mpr ⟨row, rows row mem same, same, period, isPeriod, grant,
    mem_filter.mpr ⟨grants row mem same grant grantMember isGrant, counts⟩, isGrant, amount⟩

variable {row : QuotaRequest}

theorem Decides.backed {changed : QuotaRequest} {changeVote : Vote -> Vote}
  (decides : Decides row changed changeVote tables after) (sound : Sound tables) (backed : Backed tables now)
  (grants : ∀ grant ∈ tables.grants, grant ∈ after.grants)
  (own : ∀ vote ∈ tables.votes, vote.requestId = row.id -> (changeVote vote).inForce now ->
    (changeVote vote).backed after now) : Backed after now := by
  intro _ mem inForce
  rw [decides.votes] at mem
  rcases mem_map.mp mem with ⟨old, oldIn, rfl⟩
  by_cases mine : old.requestId = row.id
  · exact own old oldIn mine inForce
  · rw [decides.others old mine] at inForce ⊢
    refine backed_stays (backed old oldIn inForce) ?_ (fun _ _ _ grant grantMember _ => grants grant grantMember)
    intro _ otherIn same
    exact decides.stays sound otherIn (fun isRow => mine (same.symm.trans isRow))

theorem releaseOne_inForce {requestId released : ℕ} (unstarted : vote.startsAt = none) :
  ¬ (releaseOne requestId released vote).inForce now := by
  intro inForce
  apply inForce_started inForce
  rcases releaseOne_cases requestId released vote with same | ⟨_, _, same⟩
  · rw [same]
    exact unstarted
  · rw [same]
    exact unstarted

theorem Quiet.backed {action : Action} (quiet : Quiet action tables after)
  (sound : Sound tables) (backed : Backed tables now) (kept : ∀ around grantId, action = .revoke around grantId ->
    ∀ row ∈ tables.requests, row.grantId = some grantId ->
      ∀ vote ∈ tables.votes, vote.requestId = row.id -> ¬ vote.inForce now) : Backed after now := by
  cases quiet with
  | stays => exact backed
  | submitted row fresh waits manual unclosed =>
    intro vote mem inForce
    exact backed_stays (backed vote mem inForce) (fun other otherIn _ => mem_append_left _ otherIn)
      (fun _ _ _ grant grantMember _ => grantMember)
  | voted user row stance tokens mem isOpen room =>
    intro vote voteMember inForce
    rcases castVote_cases voteMember with ⟨stays, _⟩ | isCast
    · exact backed_stays (backed vote stays inForce) (fun other otherIn _ => otherIn)
        (fun _ _ _ grant grantMember _ => grantMember)
    · refine absurd ?_ (inForce_started inForce)
      rcases isCast.times with untimed | ⟨old, oldIn, oldKey, starts, _⟩
      · exact untimed.1
      · rw [starts]
        exact ((sound.fits row mem old oldIn (congrArg Prod.fst oldKey)).waiting (votingOpen_pending isOpen).1).1
  | withdrew selected =>
    intro vote mem inForce
    exact backed_stays (backed vote (Rows.deleteWhere_sublist.subset mem) inForce) (fun other otherIn _ => otherIn)
      (fun _ _ _ grant grantMember _ => grantMember)
  | ended row status released selected mem waits against chosen itself =>
    refine (ended_decides sound.requestIds mem chosen itself).backed sound backed (fun grant grantMember => grantMember) ?_
    intro vote voteMember mine inForce
    exact absurd inForce (releaseOne_inForce ((sound.fits row mem vote voteMember mine).waiting waits).1)
  | closed row released mem waits =>
    refine (closed_decides sound.requestIds mem).backed sound backed (fun grant grantMember => grantMember) ?_
    intro vote voteMember mine inForce
    exact absurd inForce (releaseOne_inForce ((sound.fits row mem vote voteMember mine).waiting waits).1)
  | revoked around grantId isRevoke =>
    intro vote mem inForce
    refine backed_stays (backed vote mem inForce) (fun other otherIn _ => otherIn) ?_
    intro row rowMember same _ grantMember isGrant
    refine Rows.mem_updateWhere.mpr (.inl ⟨grantMember, fun chosen => ?_⟩)
    rw [and_eq_true, decide_eq_true_eq] at chosen
    rw [chosen.1] at isGrant
    exact kept around grantId isRevoke row rowMember isGrant vote mem same.symm inForce

theorem appliedVote_inForce {starts ends : ℕ} (unstarted : vote.startsAt = none)
  (inForce : (appliedVote row starts ends vote).inForce now) :
  row.kind ≠ .effort /\ vote.stance = .support /\ 0 < vote.tokens /\ vote.releasedAt = none /\ starts <= now /\ now < ends := by
  unfold appliedVote at inForce
  split at inForce
  · exact absurd inForce (releaseOne_inForce unstarted)
  · rename_i tokens
    by_cases chosen : (decide (vote.requestId = row.id) && decide (vote.stance = .support) && decide (0 < vote.tokens) &&
        vote.releasedAt.isNone)
    · have started : startOne row.id starts ends vote = { vote with startsAt := some starts, endsAt := some ends } := if_pos chosen
      rw [started] at inForce
      have unchanged : releaseOne row.id starts { vote with startsAt := some starts, endsAt := some ends } =
          { vote with startsAt := some starts, endsAt := some ends } := if_neg (by simp)
      rw [unchanged] at inForce
      unfold Vote.inForce at inForce
      simp only [and_eq_true, decide_eq_true_eq, Option.isNone_iff_eq_none, Option.any_some] at chosen inForce
      exact ⟨tokens, chosen.1.1.2, chosen.1.2, chosen.2, inForce.1.2, inForce.2⟩
    · have unstartedStill : startOne row.id starts ends vote = vote := if_neg chosen
      rw [unstartedStill] at inForce
      exact absurd inForce (releaseOne_inForce unstarted)

variable {around : Surroundings}

theorem grantFor_enabled {ends : ℕ} {result : Option ℕ × Tables}
  (done : grantFor around row ends tables = some result) {period : Period} (isScope : scope row = some period) :
  (baseFor around row.userId row).enabled period := by
  unfold grantFor at done
  unfold scope at isScope
  cases kind : row.kind with
  | effort | rate =>
    rw [kind] at isScope
    cases isScope
  | temporary =>
    rw [kind] at done isScope
    dsimp only at done isScope
    split at done
    · cases done
    · rename_i allowed
      rw [not_or, Bool.not_eq_true, Bool.not_eq_false] at allowed
      rw [allowed.1] at isScope
      cases isScope
      exact allowed.2
  | window | weekly =>
    rw [kind] at done isScope
    cases isScope
    dsimp only at done
    split at done
    · cases done
    · rename_i enabled
      exact Bool.not_eq_false _ ▸ enabled

theorem Carries.extra {ends : ℕ} {grant : Grant} {grants : List Grant}
  (carries : Carries around row ends grant) (mem : grant ∈ grants) {period : Period} (isScope : scope row = some period)
  (started : around.later <= now) (notEnded : now < ends) :
  grant ∈ extras row.userId (target row) period now grants /\ 1 <= grant.amount := by
  rcases carries.tokens period isScope with ⟨grantScope, extra, amount, positive⟩
  have active : grant.active row.userId now := by
    unfold Grant.active
    rw [carries.owner, carries.standing, carries.starts, carries.ends, decide_eq_true rfl, decide_eq_true started]
    exact decide_eq_true notEnded
  have concerns : grant.concerns (target row) := by
    unfold Grant.concerns
    rw [carries.pool, carries.modelId]
    unfold target
    by_cases isModel : row.kind ≠ .effort /\ row.modelId ≠ none
    · rw [if_pos isModel]
      cases model : row.modelId with
      | none => exact absurd model isModel.2
      | some modelId => simp
    · rw [if_neg isModel]
      simp
  refine ⟨mem_filter.mpr ⟨mem, ?_⟩, ?_⟩
  · rw [active, concerns, extra, grantScope, decide_eq_true rfl, decide_eq_true rfl]
    rfl
  · rw [amount]
    exact_mod_cast positive

theorem Approves.backed {settles : QuotaRequest -> List Vote -> Prop}
  (approves : Approves around settles tables after) (sound : Sound tables) (backed : Backed tables now)
  (increases : ∀ row votes, settles row votes -> ¬ Overtaken around row votes) : Backed after now := by
  cases approves with
  | community row mem settled isOpen covered _ applied =>
    rcases apply_spec sound.requestIds mem applied with ⟨grantId, granted, granting, grants, _, decides⟩
    have waits : row.status = .pending := (votingOpen_pending isOpen).1
    have kept : ∀ grant ∈ tables.grants, grant ∈ after.grants := by
      intro grant grantMember
      rw [grants]
      rcases grantFor_spec granting with ⟨_, rfl, _⟩ | ⟨_, _, _, rfl, _⟩
      · exact grantMember
      · exact mem_append_left _ grantMember
    refine decides.backed sound backed kept ?_
    intro vote voteMember mine inForce
    have fits := sound.fits row mem vote voteMember mine
    rcases appliedVote_inForce (fits.waiting waits).1 inForce with ⟨_, support, positive, unreleased, started, notEnded⟩
    rcases fits.aimed positive with ⟨pool, modelId, voteScope, hasScope⟩
    rcases Option.ne_none_iff_exists'.mp hasScope with ⟨period, isScope⟩
    rcases grantFor_spec granting with ⟨_, _, noIncrease⟩ | ⟨grant, isNext, grantNext, isGranted, carries⟩
    · refine absurd ⟨isOpen, covered, ?_, noIncrease, ?_⟩ (increases row tables.votes settled)
      · rw [isScope]
        exact grantFor_enabled granting isScope
      · refine lt_of_lt_of_le positive (Rows.le_sumWhere voteMember ?_)
        rw [decide_eq_true mine, decide_eq_true support, unreleased]
        rfl
    · have grantMember : grant ∈ after.grants := by
        rw [grants, isGranted]
        exact mem_append_right _ (mem_singleton_self _)
      rcases carries.extra grantMember isScope started notEnded with ⟨isExtra, amount⟩
      rcases appliedVote_pledge row around.later (boostEnds around row) vote with ⟨_, samePool, sameModel, sameScope⟩
      refine backed_iff.mpr ⟨_, decides.changed_mem mem, ?_, period, ?_, grant, ?_, ?_, amount⟩
      · exact decides.sameId.trans (mine.symm.trans (decides.sameRequest vote).symm)
      · rw [sameScope, voteScope, isScope]
      · rw [samePool, sameModel, pool, modelId]
        exact isExtra
      · rw [grantNext, isNext]
        rfl
  | exact row mem waits grantId granted creates =>
    refine (exact_decides sound.requestIds mem creates).backed sound backed ?_ ?_
    · intro grant grantMember
      rcases creates with ⟨_, rfl⟩ | ⟨_, _, _, rfl⟩
      · exact grantMember
      · exact mem_append_left _ grantMember
    · intro vote voteMember mine inForce
      exact absurd inForce (releaseOne_inForce ((sound.fits row mem vote voteMember mine).waiting waits).1)
  | automatic row fresh isAutomatic =>
    intro vote mem inForce
    exact backed_stays (backed vote mem inForce) (fun other otherIn _ => mem_append_left _ otherIn)
      (fun _ _ _ grant grantMember _ => grantMember)

theorem backed_of_reachable {state : Board} (reachable : (board KeepsIncrease).Reachable state) :
  Sound state.tables /\ ∀ now, state.clock <= now -> Backed state.tables now := by
  have invariant : (board KeepsIncrease).Invariant
      (fun state => Sound state.tables /\ ∀ now, state.clock <= now -> Backed state.tables now) := by
    constructor
    · intro start isInitial
      refine ⟨(sound_invariant _).initial start isInitial, ?_⟩
      intro now _ vote mem
      rw [isInitial.2.1] at mem
      exact absurd mem not_mem_nil
    · rintro before action ⟨sound, backed⟩ ⟨order, reads, increases, lasting⟩
      refine ⟨perform_sound sound action, ?_⟩
      intro now notBefore
      change Backed (perform before.tables action) now
      have reading : action.around.now <= now := le_trans reads notBefore
      have stillBacked := backed now (le_trans order reading)
      have kept : ∀ around grantId, action = .revoke around grantId ->
          ∀ row ∈ before.tables.requests, row.grantId = some grantId ->
            ∀ vote ∈ before.tables.votes, vote.requestId = row.id -> ¬ vote.inForce now := by
        intro around grantId isRevoke row mem isGrant vote voteMember mine inForce
        have ended := lasting around grantId isRevoke row mem isGrant vote voteMember mine
        have revoking : around.now <= now := by
          rw [isRevoke] at reading
          exact reading
        rw [inForce_lasts revoking inForce] at ended
        cases ended
      rcases perform_cases before.tables action with ⟨_, quiet, same | approves⟩ | ⟨_, _, _, _, _, same⟩
      · rw [same]
        exact quiet.backed sound stillBacked kept
      · exact approves.backed (quiet.sound sound) (quiet.backed sound stillBacked kept) increases
      · rw [same]
        intro vote mem inForce
        exact backed_stays (stillBacked vote mem inForce) (fun row rowMember _ => rowMember)
          (fun _ _ _ other otherIn _ => mem_append_left _ otherIn)
  exact invariant.reachable reachable

/-- A pledge in force is for a request whose grant is active and adds to the requester's limit. -/
theorem pledges_backed {state : Board} (reachable : (board KeepsIncrease).Reachable state) (now : ℕ)
  (notBefore : state.clock <= now) : Backed state.tables now :=
  (backed_of_reachable reachable).2 now notBefore

section Runs

open SmallBoard

/-- Two people support 600 more tokens, and give up 150 each while the grant adds them. -/
theorem pledges_backed_supported : ∃ state, (board KeepsIncrease).Reachable state /\ state.clock <= 40 /\
    (state.tables.votes.filter (Vote.inForce 40)).map Vote.tokens = [150, 150] /\ Backed state.tables 40 := by
  have waiting : ∀ now, ∀ before : Board,
      (requestRow 1 before.tables).map (increase (read 1000 now)) = some 600 ->
        ∀ user stance tokens, KeepsIncrease before (.vote (read 1000 now) user 1 stance tokens) := by
    intro now before more user stance tokens
    refine ⟨?_, nofun⟩
    rintro row votes ⟨found, _⟩ ⟨_, _, _, none, _⟩
    rw [found] at more
    exact absurd (none.symm.trans (Option.some.inj more)) (by decide)
  have admitted : (board KeepsIncrease).Admits start supported := by
    refine ⟨⟨?_, ?_, fun _ _ settles => settles.elim, nofun⟩, ⟨?_, ?_, waiting 20 _ ?_ _ _ _⟩,
      ⟨?_, ?_, waiting 30 _ ?_ _ _ _⟩, trivial⟩ <;> decide +kernel
  have initial : (board KeepsIncrease).initial start := ⟨rfl, rfl, rfl, rfl⟩
  have reachable := (Machine.Reachable.start initial).run _ admitted
  exact ⟨_, reachable, by decide +kernel, by decide +kernel, pledges_backed reachable 40 (by decide +kernel)⟩

/-- After an administrator revokes the grant the two still give up their tokens. -/
theorem pledges_unbacked :
  (∃ state, (board fun _ _ => True).Reachable state /\ state.clock <= 40 /\ state.tables.grants ≠ [] /\
    ¬ Backed state.tables 40) /\
  ∃ state, (board fun _ _ => True).Reachable state /\ state.clock <= 40 /\ state.tables.grants = [] /\
    ¬ Backed state.tables 40 := by
  have initial : (board fun _ _ => True).initial start := ⟨rfl, rfl, rfl, rfl⟩
  have revoked : (board fun _ _ => True).Admits start (supported ++ [.revoke (read 1000 40) 1]) := by
    refine ⟨⟨?_, ?_, trivial⟩, ⟨?_, ?_, trivial⟩, ⟨?_, ?_, trivial⟩, ⟨?_, ?_, trivial⟩, trivial⟩ <;> decide +kernel
  have overtaken : (board fun _ _ => True).Admits start [.submit (read 1000 10) (wish 1 1600),
      .vote (read 2000 20) (person 2) 1 .support 150, .vote (read 2000 30) (person 3) 1 .support 150] := by
    refine ⟨⟨?_, ?_, trivial⟩, ⟨?_, ?_, trivial⟩, ⟨?_, ?_, trivial⟩, trivial⟩ <;> decide +kernel
  exact ⟨⟨_, (Machine.Reachable.start initial).run _ revoked, by decide +kernel, by decide +kernel, by decide +kernel⟩,
    _, (Machine.Reachable.start initial).run _ overtaken, by decide +kernel, by decide +kernel, by decide +kernel⟩

end Runs

end BananaChat.Community

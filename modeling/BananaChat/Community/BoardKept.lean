import BananaChat.Community.Moves

namespace BananaChat.Community

open Foundation List Rows Nat Status

/-!
# What holds of the tables

Requests, votes and the requests that were carried out, as every operation keeps them.
-/

/-- `UNIQUE(request_id, user_id)`. -/
def Vote.key (vote : Vote) : ℕ × ℕ := (vote.requestId, vote.userId)

def QuotaRequest.Lost (row : QuotaRequest) : Prop :=
  row.status = .denied \/ row.status = .cancelled \/ (row.communityClosedAt ≠ none /\ row.status ≠ .approved)

structure Fits (row : QuotaRequest) (vote : Vote) : Prop where
  waiting : row.status = .pending -> vote.startsAt = none /\ vote.endsAt = none
  lost : row.Lost -> vote.releasedAt ≠ none
  aimed : 0 < vote.tokens ->
    vote.pool = (target row).pool /\ vote.modelId = (target row).modelId /\ vote.scope = scope row /\ scope row ≠ none

structure Sound (tables : Tables) : Prop where
  requestIds : (tables.requests.map QuotaRequest.id).Nodup
  requestsBelow : ∀ row ∈ tables.requests, row.id < tables.nextRequest
  voteKeys : (tables.votes.map Vote.key).Nodup
  votesKnown : ∀ vote ∈ tables.votes, vote.requestId ∈ tables.requests.map QuotaRequest.id
  fits : ∀ row ∈ tables.requests, ∀ vote ∈ tables.votes, vote.requestId = row.id -> Fits row vote
  manual : ∀ row ∈ tables.requests, row.status = .pending -> row.source = .manual
  carriedOnce : tables.carriedOut.Nodup
  carriedKnown : ∀ requestId ∈ tables.carriedOut, requestId ∈ tables.requests.map QuotaRequest.id
  carriedApproved : ∀ row ∈ tables.requests, row.id ∈ tables.carriedOut -> row.status = .approved

variable {after tables : Tables} {row : QuotaRequest} {requestId : ℕ} {vote : Vote} {votes : List Vote}
  {around : Surroundings}

namespace Sound

variable {tables : Tables}

section

variable (sound : Sound tables)
include sound

theorem fresh : tables.nextRequest ∉ tables.requests.map QuotaRequest.id := by
  intro mem
  rcases mem_map.mp mem with ⟨row, rowMember, same⟩
  exact absurd (sound.requestsBelow row rowMember) (by rw [same]; exact lt_irrefl _)

theorem requestRow_eq (mem : row ∈ tables.requests) : requestRow row.id tables = some row :=
  find_of_key sound.requestIds mem

theorem uncarried (mem : row ∈ tables.requests) (waits : row.status = .pending) : row.id ∉ tables.carriedOut := by
  intro carried
  rw [sound.carriedApproved row mem carried] at waits
  cases waits

theorem granted (requests : after.requests = tables.requests) (votes : after.votes = tables.votes)
  (carried : after.carriedOut = tables.carriedOut) (next : after.nextRequest = tables.nextRequest) : Sound after := by
  rcases sound with ⟨requestIds, requestsBelow, voteKeys, votesKnown, fits, manual, once, known, approved⟩
  rw [<- requests] at requestIds requestsBelow votesKnown fits manual known approved
  rw [<- votes] at voteKeys votesKnown fits
  rw [<- carried] at once known approved
  rw [<- next] at requestsBelow
  exact ⟨requestIds, requestsBelow, voteKeys, votesKnown, fits, manual, once, known, approved⟩

theorem submitted (fresh : row.id = tables.nextRequest)
  (manual : row.status = .pending -> row.source = .manual) (requests : after.requests = tables.requests ++ [row])
  (votes : after.votes = tables.votes) (carried : after.carriedOut = tables.carriedOut \/
    (after.carriedOut = tables.carriedOut ++ [row.id] /\ row.status = .approved))
  (next : after.nextRequest = tables.nextRequest + 1) : Sound after := by
  have newId : row.id ∉ tables.requests.map QuotaRequest.id := fresh ▸ sound.fresh
  have uncarried : row.id ∉ tables.carriedOut := fun mem => newId (sound.carriedKnown _ mem)
  have members : ∀ other ∈ after.requests, other ∈ tables.requests \/ other = row := by
    intro other mem
    rw [requests, mem_append, mem_singleton] at mem
    exact mem
  have ids : after.requests.map QuotaRequest.id = tables.requests.map QuotaRequest.id ++ [row.id] := by
    rw [requests, map_append]
    rfl
  have stays : ∀ requestId ∈ tables.requests.map QuotaRequest.id,
      requestId ∈ after.requests.map QuotaRequest.id := by
    intro requestId mem
    rw [ids]
    exact mem_append_left _ mem
  constructor
  · rw [ids]
    exact List.Nodup.append sound.requestIds (nodup_singleton _) (disjoint_singleton.mpr newId)
  · intro other mem
    rw [next]
    rcases members other mem with old | rfl
    · exact lt_succ_of_lt (sound.requestsBelow other old)
    · exact fresh ▸ lt_succ_self _
  · rw [votes]
    exact sound.voteKeys
  · intro vote mem
    rw [votes] at mem
    exact stays _ (sound.votesKnown vote mem)
  · intro other mem vote voteMember same
    rw [votes] at voteMember
    rcases members other mem with old | rfl
    · exact sound.fits other old vote voteMember same
    · exact absurd (same ▸ sound.votesKnown vote voteMember) newId
  · intro other mem waits
    rcases members other mem with old | rfl
    · exact sound.manual other old waits
    · exact manual waits
  · rcases carried with same | ⟨same, _⟩
    · rw [same]
      exact sound.carriedOnce
    · rw [same]
      exact List.Nodup.append sound.carriedOnce (nodup_singleton _) (disjoint_singleton.mpr uncarried)
  · intro _ mem
    rcases carried with same | ⟨same, _⟩
    · rw [same] at mem
      exact stays _ (sound.carriedKnown _ mem)
    · rw [same, mem_append, mem_singleton] at mem
      rcases mem with old | isNew
      · exact stays _ (sound.carriedKnown _ old)
      · rw [ids, isNew]
        exact mem_append_right _ (mem_singleton_self _)
  · intro other mem otherCarried
    rcases carried with same | ⟨same, approved⟩
    · rw [same] at otherCarried
      rcases members other mem with old | rfl
      · exact sound.carriedApproved other old otherCarried
      · exact absurd otherCarried uncarried
    · rw [same, mem_append, mem_singleton] at otherCarried
      rcases members other mem with old | rfl
      · rcases otherCarried with before | isNew
        · exact sound.carriedApproved other old before
        · exact absurd (isNew ▸ mem_map_of_mem old) newId
      · exact approved

end

end Sound

/-- A pending request becomes `changed`, and of the votes only its own change. -/
structure Decides (row changed : QuotaRequest) (changeVote : Vote -> Vote) (tables after : Tables) : Prop where
  sameId : changed.id = row.id
  ids : after.requests.map QuotaRequest.id = tables.requests.map QuotaRequest.id
  requests : ∀ other ∈ after.requests, (other ∈ tables.requests /\ other.id ≠ row.id) \/ other = changed
  votes : after.votes = tables.votes.map changeVote
  keys : ∀ vote, (changeVote vote).key = vote.key
  others : ∀ vote, vote.requestId ≠ row.id -> changeVote vote = vote
  carried : after.carriedOut = tables.carriedOut \/
    (after.carriedOut = tables.carriedOut ++ [row.id] /\ changed.status = .approved)
  next : after.nextRequest = tables.nextRequest

namespace Decides

variable {row changed : QuotaRequest} {changeVote : Vote -> Vote} {tables after : Tables}

section

variable (decides : Decides row changed changeVote tables after)
include decides

theorem changed_mem (mem : row ∈ tables.requests) : changed ∈ after.requests := by
  have known : row.id ∈ after.requests.map QuotaRequest.id := by
    rw [decides.ids]
    exact mem_map_of_mem mem
  rcases mem_map.mp known with ⟨other, otherIn, same⟩
  rcases decides.requests other otherIn with ⟨_, isOther⟩ | rfl
  · exact absurd same isOther
  · exact otherIn

theorem requestRow_eq (sound : Sound after) (mem : row ∈ tables.requests) : requestRow row.id after = some changed := by
  rw [<- decides.sameId]
  exact sound.requestRow_eq (decides.changed_mem mem)

theorem stays (sound : Sound tables) {other : QuotaRequest}
  (mem : other ∈ tables.requests) (isOther : other.id ≠ row.id) : other ∈ after.requests := by
  have known : other.id ∈ after.requests.map QuotaRequest.id := by
    rw [decides.ids]
    exact mem_map_of_mem mem
  rcases mem_map.mp known with ⟨found, foundMember, same⟩
  rcases decides.requests found foundMember with ⟨old, _⟩ | rfl
  · rw [<- eq_of_key sound.requestIds old mem same]
    exact foundMember
  · exact absurd (same.symm.trans decides.sameId) isOther

theorem voteKeys : after.votes.map Vote.key = tables.votes.map Vote.key := by
  rw [decides.votes, map_map]
  exact map_congr_left fun vote _ => decides.keys vote

end

theorem of_update (change : QuotaRequest -> QuotaRequest) {selected : QuotaRequest -> Bool}
  (distinct : (tables.requests.map QuotaRequest.id).Nodup) (mem : row ∈ tables.requests)
  (chosen : ∀ other, selected other -> other.id = row.id) (itself : selected row)
  (kept : ∀ other, (change other).id = other.id)
  (requests : after.requests = updateWhere selected change tables.requests)
  (votes : after.votes = tables.votes.map changeVote) (keys : ∀ vote, (changeVote vote).key = vote.key)
  (others : ∀ vote, vote.requestId ≠ row.id -> changeVote vote = vote)
  (carried : after.carriedOut = tables.carriedOut \/
    (after.carriedOut = tables.carriedOut ++ [row.id] /\ (change row).status = .approved))
  (next : after.nextRequest = tables.nextRequest) : Decides row (change row) changeVote tables after := by
  refine ⟨kept row, ?_, ?_, votes, keys, others, carried, next⟩
  · rw [requests]
    exact map_updateWhere QuotaRequest.id kept
  · intro _ otherIn
    rw [requests] at otherIn
    exact (mem_updateWhere_key distinct mem chosen itself).mp otherIn

theorem sameRequest (decides : Decides row changed changeVote tables after) (vote : Vote) :
  (changeVote vote).requestId = vote.requestId :=
  congrArg Prod.fst (decides.keys vote)

theorem sound (decides : Decides row changed changeVote tables after) (before : Sound tables) (mem : row ∈ tables.requests)
  (waits : row.status = .pending) (manual : changed.status = .pending -> changed.source = .manual)
  (fits : ∀ vote, vote.requestId = row.id -> Fits row vote -> Fits changed (changeVote vote)) : Sound after := by
  have uncarried : row.id ∉ tables.carriedOut := before.uncarried mem waits
  constructor
  · rw [decides.ids]
    exact before.requestIds
  · intro other otherIn
    rw [decides.next]
    rcases decides.requests other otherIn with ⟨old, _⟩ | rfl
    · exact before.requestsBelow other old
    · exact decides.sameId ▸ before.requestsBelow row mem
  · rw [decides.voteKeys]
    exact before.voteKeys
  · intro vote voteMember
    rw [decides.votes] at voteMember
    rcases mem_map.mp voteMember with ⟨old, oldIn, rfl⟩
    rw [decides.ids, decides.sameRequest]
    exact before.votesKnown old oldIn
  · intro other otherIn _ voteMember same
    rw [decides.votes] at voteMember
    rcases mem_map.mp voteMember with ⟨old, oldIn, rfl⟩
    have oldSame : old.requestId = other.id := (decides.sameRequest old).symm.trans same
    rcases decides.requests other otherIn with ⟨stays, isOther⟩ | rfl
    · rw [decides.others old fun mine => isOther (oldSame.symm.trans mine)]
      exact before.fits other stays old oldIn oldSame
    · have mine : old.requestId = row.id := oldSame.trans decides.sameId
      exact fits old mine (before.fits row mem old oldIn mine)
  · intro other otherIn otherWaits
    rcases decides.requests other otherIn with ⟨stays, _⟩ | rfl
    · exact before.manual other stays otherWaits
    · exact manual otherWaits
  · rcases decides.carried with same | ⟨same, _⟩
    · rw [same]
      exact before.carriedOnce
    · rw [same]
      exact List.Nodup.append before.carriedOnce (nodup_singleton _) (disjoint_singleton.mpr uncarried)
  · intro _ carried
    rw [decides.ids]
    rcases decides.carried with same | ⟨same, _⟩
    · rw [same] at carried
      exact before.carriedKnown _ carried
    · rw [same, mem_append, mem_singleton] at carried
      rcases carried with old | rfl
      · exact before.carriedKnown _ old
      · exact mem_map_of_mem mem
  · intro other otherIn carried
    rcases decides.carried with same | ⟨same, approved⟩
    · rw [same] at carried
      rcases decides.requests other otherIn with ⟨stays, _⟩ | rfl
      · exact before.carriedApproved other stays carried
      · exact absurd (decides.sameId ▸ carried) uncarried
    · rw [same, mem_append, mem_singleton] at carried
      rcases decides.requests other otherIn with ⟨stays, isOther⟩ | rfl
      · exact before.carriedApproved other stays (carried.resolve_right isOther)
      · exact approved

end Decides

/-- What `release` makes of one vote. -/
def releaseOne (requestId now : ℕ) (vote : Vote) : Vote :=
  if (decide (vote.requestId = requestId) && vote.releasedAt.isNone && vote.startsAt.isNone) then
    { vote with releasedAt := some now }
  else vote

/-- What `startPledges` makes of one vote. -/
def startOne (requestId starts ends : ℕ) (vote : Vote) : Vote :=
  if (decide (vote.requestId = requestId) && decide (vote.stance = .support) && decide (0 < vote.tokens) &&
      vote.releasedAt.isNone) then
    { vote with startsAt := some starts, endsAt := some ends }
  else vote

theorem release_eq (requestId now : ℕ) (votes : List Vote) : release requestId now votes = votes.map (releaseOne requestId now) :=
  rfl

theorem startPledges_eq (requestId starts ends : ℕ) (votes : List Vote) :
  startPledges requestId starts ends votes = votes.map (startOne requestId starts ends) :=
  rfl

theorem releaseOne_cases (requestId now : ℕ) (vote : Vote) : releaseOne requestId now vote = vote \/
    (vote.requestId = requestId /\ vote.startsAt = none /\ releaseOne requestId now vote = { vote with releasedAt := some now }) := by
  unfold releaseOne
  split
  · rename_i chosen
    rw [Bool.and_eq_true, Bool.and_eq_true, decide_eq_true_eq, Option.isNone_iff_eq_none, Option.isNone_iff_eq_none] at chosen
    exact .inr ⟨chosen.1.1, chosen.2, rfl⟩
  · exact .inl rfl

theorem startOne_cases (requestId starts ends : ℕ) (vote : Vote) : startOne requestId starts ends vote = vote \/
    (vote.requestId = requestId /\ startOne requestId starts ends vote = { vote with startsAt := some starts, endsAt := some ends }) := by
  unfold startOne
  split
  · rename_i chosen
    rw [Bool.and_eq_true, Bool.and_eq_true, Bool.and_eq_true, decide_eq_true_eq] at chosen
    exact .inr ⟨chosen.1.1.1, rfl⟩
  · exact .inl rfl

theorem releaseOne_key (requestId now : ℕ) (vote : Vote) : (releaseOne requestId now vote).key = vote.key := by
  rcases releaseOne_cases requestId now vote with same | ⟨_, _, same⟩
  · rw [same]
  · rw [same]
    rfl

theorem startOne_key (requestId starts ends : ℕ) (vote : Vote) : (startOne requestId starts ends vote).key = vote.key := by
  rcases startOne_cases requestId starts ends vote with same | ⟨_, same⟩
  · rw [same]
  · rw [same]
    rfl

theorem releaseOne_of_ne (now : ℕ) (other : vote.requestId ≠ requestId) : releaseOne requestId now vote = vote :=
  (releaseOne_cases requestId now vote).resolve_right fun chosen => other chosen.1

theorem startOne_of_ne (starts ends : ℕ) (other : vote.requestId ≠ requestId) :
  startOne requestId starts ends vote = vote :=
  (startOne_cases requestId starts ends vote).resolve_right fun chosen => other chosen.1

theorem releaseOne_released (now : ℕ) (mine : vote.requestId = requestId) (unstarted : vote.startsAt = none) :
  (releaseOne requestId now vote).releasedAt ≠ none := by
  unfold releaseOne
  split
  · exact Option.some_ne_none _
  · rename_i unchosen
    intro unreleased
    apply unchosen
    rw [decide_eq_true mine, unstarted, unreleased]
    rfl

theorem Fits.release (fits : Fits row vote) (requestId now : ℕ) : Fits row (releaseOne requestId now vote) := by
  rcases releaseOne_cases requestId now vote with same | ⟨_, _, same⟩
  · rw [same]
    exact fits
  · rw [same]
    exact ⟨fits.waiting, fun _ => Option.some_ne_none _, fits.aimed⟩

structure IsCast (user : Person) (row : QuotaRequest) (side : Stance) (given : ℕ) (votes : List Vote) (vote : Vote) :
  Prop where
  key : vote.key = (row.id, user.id)
  stance : vote.stance = side
  tokens : vote.tokens = given
  pool : vote.pool = (target row).pool
  modelId : vote.modelId = (target row).modelId
  scope : vote.scope = if given = 0 then none else scope row
  unreleased : vote.releasedAt = none
  times : (vote.startsAt = none /\ vote.endsAt = none) \/
    ∃ old ∈ votes, old.key = (row.id, user.id) /\ vote.startsAt = old.startsAt /\ vote.endsAt = old.endsAt

theorem IsCast.mine {user : Person} {side : Stance} {given : ℕ} (isCast : IsCast user row side given votes vote) :
  vote.requestId = row.id :=
  congrArg Prod.fst isCast.key

theorem ownVote_iff {userId : ℕ} :
  (decide (vote.requestId = requestId) && decide (vote.userId = userId)) ↔ vote.key = (requestId, userId) := by
  rw [Bool.and_eq_true, decide_eq_true_eq, decide_eq_true_eq]
  unfold Vote.key
  rw [Prod.mk.injEq]

theorem castVote_cases {user : Person} {stance : Stance} {tokens : ℕ}
  (mem : vote ∈ castVote user row stance tokens votes) :
  (vote ∈ votes /\ vote.key ≠ (row.id, user.id)) \/ IsCast user row stance tokens votes vote := by
  unfold castVote at mem
  dsimp only at mem
  split at mem
  · rcases mem_updateWhere.mp mem with ⟨stays, other⟩ | ⟨old, oldIn, mine, rfl⟩
    · exact .inl ⟨stays, fun same => other (ownVote_iff.mpr same)⟩
    · have oldKey := ownVote_iff.mp mine
      exact .inr ⟨oldKey, rfl, rfl, rfl, rfl, rfl, rfl, .inr ⟨old, oldIn, oldKey, rfl, rfl⟩⟩
  · rename_i noneYet
    rcases mem_append.mp mem with stays | isNew
    · refine .inl ⟨stays, fun same => noneYet ?_⟩
      exact any_eq_true.mpr ⟨vote, stays, ownVote_iff.mpr same⟩
    · rw [mem_singleton] at isNew
      subst isNew
      exact .inr ⟨rfl, rfl, rfl, rfl, rfl, rfl, rfl, .inl ⟨rfl, rfl⟩⟩

theorem castVote_keys (user : Person) (row : QuotaRequest) (stance : Stance) (tokens : ℕ)
  (distinct : (votes.map Vote.key).Nodup) : ((castVote user row stance tokens votes).map Vote.key).Nodup := by
  unfold castVote
  dsimp only
  split
  · rw [map_updateWhere Vote.key]
    · exact distinct
    · exact fun _ => rfl
  · rename_i noneYet
    rw [map_append]
    refine List.Nodup.append distinct (nodup_singleton _) (disjoint_singleton.mpr ?_)
    intro mem
    rcases mem_map.mp mem with ⟨old, oldIn, same⟩
    exact noneYet (any_eq_true.mpr ⟨old, oldIn, ownVote_iff.mpr same⟩)

section

variable (distinct : (tables.requests.map QuotaRequest.id).Nodup) (mem : row ∈ tables.requests)
include distinct mem

theorem ended_decides {status : Status} {now : ℕ} {selected : QuotaRequest -> Bool}
  (chosen : ∀ other, selected other -> other.id = row.id) (itself : selected row) :
  Decides row { row with status } (releaseOne row.id now) tables
    { tables with
      requests := updateWhere selected (fun other => { other with status }) tables.requests,
      votes := release row.id now tables.votes } :=
  Decides.of_update (fun other => { other with status }) distinct mem chosen itself (fun _ => rfl) rfl rfl
    (releaseOne_key row.id now) (fun _ => releaseOne_of_ne now) (.inl rfl) rfl

theorem closed_decides {now : ℕ} : Decides row { row with communityClosedAt := some now } (releaseOne row.id now) tables
    { tables with
      requests := updateWhere (·.id = row.id)
        (fun other => { other with communityClosedAt := some now }) tables.requests,
      votes := release row.id now tables.votes } :=
  Decides.of_update (fun other => { other with communityClosedAt := some now }) distinct mem
    (fun _ chosen => of_decide_eq_true chosen) (decide_eq_true rfl) (fun _ => rfl) rfl rfl (releaseOne_key row.id now)
    (fun _ => releaseOne_of_ne now) (.inl rfl) rfl

end

theorem Quiet.sound {action : Action} (quiet : Quiet action tables after) (before : Sound tables) : Sound after := by
  cases quiet with
  | stays => exact before
  | submitted row fresh waits manual unclosed => exact before.submitted fresh (fun _ => manual) rfl rfl (.inl rfl) rfl
  | voted user row stance tokens mem isOpen room =>
    have waits : row.status = .pending := (votingOpen_pending isOpen).1
    have unclosed : row.communityClosedAt = none := (votingOpen_pending isOpen).2.2.2
    constructor
    · exact before.requestIds
    · exact before.requestsBelow
    · exact castVote_keys user row stance tokens before.voteKeys
    · intro vote voteMember
      rcases castVote_cases voteMember with ⟨stays, _⟩ | isCast
      · exact before.votesKnown vote stays
      · rw [isCast.mine]
        exact mem_map_of_mem mem
    · intro other otherIn vote voteMember same
      rcases castVote_cases voteMember with ⟨stays, _⟩ | isCast
      · exact before.fits other otherIn vote stays same
      · obtain rfl : other = row :=
          eq_of_key before.requestIds otherIn mem (same.symm.trans isCast.mine)
        constructor
        · intro _
          rcases isCast.times with untimed | ⟨old, oldIn, oldKey, starts, ends⟩
          · exact untimed
          · rw [starts, ends]
            exact (before.fits other mem old oldIn (congrArg Prod.fst oldKey)).waiting waits
        · rintro (denied | cancelled | ⟨closed, _⟩)
          · exact absurd (waits.symm.trans denied) noConfusion
          · exact absurd (waits.symm.trans cancelled) noConfusion
          · exact absurd unclosed closed
        · intro positive
          rw [isCast.tokens] at positive
          have period : vote.scope = scope other := by
            rw [isCast.scope, if_neg (ne_of_gt positive)]
          refine ⟨isCast.pool, isCast.modelId, period, ?_⟩
          intro unscoped
          have noRoom := (room positive).2
          unfold pledgeRoom at noRoom
          rw [unscoped] at noRoom
          exact absurd positive (not_lt.mpr noRoom)
    · exact before.manual
    · exact before.carriedOnce
    · exact before.carriedKnown
    · exact before.carriedApproved
  | withdrew selected =>
    have fewer : (deleteWhere selected tables.votes).Sublist tables.votes := deleteWhere_sublist
    constructor
    · exact before.requestIds
    · exact before.requestsBelow
    · exact (fewer.map Vote.key).nodup before.voteKeys
    · exact fun vote mem => before.votesKnown vote (fewer.subset mem)
    · exact fun row mem vote voteMember => before.fits row mem vote (fewer.subset voteMember)
    · exact before.manual
    · exact before.carriedOnce
    · exact before.carriedKnown
    · exact before.carriedApproved
  | ended row status now selected mem waits against chosen itself =>
    refine (ended_decides before.requestIds mem chosen itself).sound before mem waits
      (absurd · against.1) ?_
    intro vote mine fits
    have unstarted : vote.startsAt = none := (fits.waiting waits).1
    exact ⟨fun pending => absurd pending against.1, fun _ => releaseOne_released now mine unstarted,
      (fits.release row.id now).aimed⟩
  | closed row now mem waits =>
    refine (closed_decides before.requestIds mem).sound before mem waits (before.manual row mem) ?_
    intro vote mine fits
    have unstarted : vote.startsAt = none := (fits.waiting waits).1
    exact ⟨(fits.release row.id now).waiting, fun _ => releaseOne_released now mine unstarted,
      (fits.release row.id now).aimed⟩
  | revoked around grantId isRevoke => exact before.granted rfl rfl rfl rfl

def appliedVote (row : QuotaRequest) (starts ends : ℕ) (vote : Vote) : Vote :=
  releaseOne row.id starts (if row.kind = .effort then vote else startOne row.id starts ends vote)

theorem appliedVote_key (row : QuotaRequest) (starts ends : ℕ) (vote : Vote) : (appliedVote row starts ends vote).key = vote.key := by
  unfold appliedVote
  rw [releaseOne_key]
  split
  · rfl
  · exact startOne_key row.id starts ends vote

theorem appliedVote_of_ne (starts ends : ℕ) (other : vote.requestId ≠ row.id) :
  appliedVote row starts ends vote = vote := by
  unfold appliedVote
  split
  · exact releaseOne_of_ne starts other
  · rw [startOne_of_ne starts ends other]
    exact releaseOne_of_ne starts other

theorem grantFor_kept {ends : ℕ} {granted : Tables} {grantId : Option ℕ}
  (done : grantFor around row ends tables = some (grantId, granted)) :
  granted.requests = tables.requests /\ granted.votes = tables.votes /\ granted.carriedOut = tables.carriedOut /\
    granted.nextRequest = tables.nextRequest := by
  rcases grantFor_spec done with ⟨_, same, _⟩ | ⟨_, _, _, same, _⟩
  · rw [same]
    exact ⟨rfl, rfl, rfl, rfl⟩
  · rw [same]
    exact ⟨rfl, rfl, rfl, rfl⟩

theorem apply_spec (distinct : (tables.requests.map QuotaRequest.id).Nodup) (mem : row ∈ tables.requests)
  (done : apply around row tables = some after) : ∃ grantId granted,
    grantFor around row (boostEnds around row) tables = some (grantId, granted) /\ after.grants = granted.grants /\
    after.carriedOut = tables.carriedOut ++ [row.id] /\
    Decides row (approvedRow grantId (if row.kind = .effort then none else some (boostEnds around row)) row)
      (appliedVote row around.later (boostEnds around row)) tables after := by
  unfold apply at done
  dsimp only at done
  cases granting : grantFor around row (boostEnds around row) tables with
  | none =>
    rw [granting] at done
    cases done
  | some result =>
    rcases result with ⟨grantId, granted⟩
    rw [granting] at done
    rcases grantFor_kept granting with ⟨requests, votes, carried, next⟩
    have isAfter := Option.some.inj done
    refine ⟨grantId, granted, rfl, ?_, ?_, ?_⟩
    · rw [<- isAfter]
      rfl
    · rw [<- isAfter, <- carried]
      rfl
    · refine Decides.of_update (approvedRow grantId (if row.kind = .effort then none else some (boostEnds around row)))
        distinct mem (fun other chosen => of_decide_eq_true chosen) (decide_eq_true rfl) (fun _ => rfl) ?_ ?_
        (appliedVote_key row _ _) (fun vote => appliedVote_of_ne _ _) (.inr ⟨?_, rfl⟩) ?_
      · rw [<- isAfter]
        rw [requests]
        by_cases effort : row.kind = .effort
        · rw [decide_eq_true effort, if_pos effort]
          rfl
        · rw [decide_eq_false effort, if_neg effort]
          rfl
      · rw [<- isAfter]
        dsimp only
        rw [votes, release_eq]
        by_cases effort : row.kind = .effort
        · rw [decide_eq_true effort, if_pos rfl]
          apply map_congr_left
          intro vote _
          unfold appliedVote
          rw [if_pos effort]
        · rw [decide_eq_false effort, if_neg Bool.false_ne_true, startPledges_eq, map_map]
          apply map_congr_left
          intro _ _
          unfold appliedVote
          rw [if_neg effort]
          rfl
      · rw [<- isAfter, <- carried]
        rfl
      · rw [<- isAfter, <- next]
        rfl

theorem Fits.approved (fits : Fits row vote) (changed : QuotaRequest) (approved : changed.status = .approved)
  (sameTarget : target changed = target row) (sameScope : scope changed = scope row) (changeVote : Vote -> Vote)
  (same : (changeVote vote).tokens = vote.tokens /\ (changeVote vote).pool = vote.pool /\
    (changeVote vote).modelId = vote.modelId /\ (changeVote vote).scope = vote.scope) : Fits changed (changeVote vote) := by
  constructor
  · intro waits
    exact absurd (approved.symm.trans waits) noConfusion
  · rintro (denied | cancelled | ⟨_, unapproved⟩)
    · exact absurd (approved.symm.trans denied) noConfusion
    · exact absurd (approved.symm.trans cancelled) noConfusion
    · exact absurd approved unapproved
  · intro positive
    rw [same.2.1, same.2.2.1, same.2.2.2, sameTarget, sameScope]
    exact fits.aimed (same.1 ▸ positive)

theorem releaseOne_pledge (requestId now : ℕ) (vote : Vote) :
  (releaseOne requestId now vote).tokens = vote.tokens /\ (releaseOne requestId now vote).pool = vote.pool /\
    (releaseOne requestId now vote).modelId = vote.modelId /\ (releaseOne requestId now vote).scope = vote.scope := by
  rcases releaseOne_cases requestId now vote with same | ⟨_, _, same⟩
  · rw [same]
    exact ⟨rfl, rfl, rfl, rfl⟩
  · rw [same]
    exact ⟨rfl, rfl, rfl, rfl⟩

theorem startOne_pledge (requestId starts ends : ℕ) (vote : Vote) :
  (startOne requestId starts ends vote).tokens = vote.tokens /\ (startOne requestId starts ends vote).pool = vote.pool /\
    (startOne requestId starts ends vote).modelId = vote.modelId /\
    (startOne requestId starts ends vote).scope = vote.scope := by
  rcases startOne_cases requestId starts ends vote with same | ⟨_, same⟩
  · rw [same]
    exact ⟨rfl, rfl, rfl, rfl⟩
  · rw [same]
    exact ⟨rfl, rfl, rfl, rfl⟩

theorem appliedVote_pledge (row : QuotaRequest) (starts ends : ℕ) (vote : Vote) :
  (appliedVote row starts ends vote).tokens = vote.tokens /\ (appliedVote row starts ends vote).pool = vote.pool /\
    (appliedVote row starts ends vote).modelId = vote.modelId /\ (appliedVote row starts ends vote).scope = vote.scope := by
  unfold appliedVote
  split
  · exact releaseOne_pledge row.id starts vote
  · rcases releaseOne_pledge row.id starts (startOne row.id starts ends vote) with ⟨tokens, pool, modelId, scope⟩
    rcases startOne_pledge row.id starts ends vote with ⟨startTokens, startPool, startModel, startScope⟩
    exact ⟨tokens.trans startTokens, pool.trans startPool, modelId.trans startModel, scope.trans startScope⟩

theorem exact_decides {granted : Tables} {grantId : Option ℕ} (distinct : (tables.requests.map QuotaRequest.id).Nodup)
  (mem : row ∈ tables.requests) (creates : (grantId = none /\ granted = tables) \/ ∃ grant,
    grantId = some tables.nextGrant /\ grant.id = tables.nextGrant /\ granted = tables.withGrant grant) :
  Decides row { row with status := .approved, grantId := grantId.or row.grantId } (releaseOne row.id around.later) tables
    { granted.carry row.id with
      requests := updateWhere (·.id = row.id)
        (fun other => { other with status := .approved, grantId := grantId.or other.grantId }) tables.requests,
      votes := release row.id around.later tables.votes } := by
  have kept : granted.carriedOut = tables.carriedOut /\ granted.nextRequest = tables.nextRequest := by
    rcases creates with ⟨_, same⟩ | ⟨_, _, _, same⟩
    · rw [same]
      exact ⟨rfl, rfl⟩
    · rw [same]
      exact ⟨rfl, rfl⟩
  refine Decides.of_update (fun other => { other with status := .approved, grantId := grantId.or other.grantId })
    distinct mem (fun other chosen => of_decide_eq_true chosen) (decide_eq_true rfl) (fun _ => rfl) rfl rfl
    (releaseOne_key row.id _) (fun vote => releaseOne_of_ne _) (.inr ⟨?_, rfl⟩) kept.2
  rw [<- kept.1]
  rfl

theorem Approves.sound {settles : QuotaRequest -> List Vote -> Prop} (approves : Approves around settles tables after)
  (before : Sound tables) : Sound after := by
  cases approves with
  | community row mem settled isOpen covered _ applied =>
    have waits : row.status = .pending := (votingOpen_pending isOpen).1
    rcases apply_spec before.requestIds mem applied with ⟨grantId, granted, _, _, _, decides⟩
    refine decides.sound before mem waits (noConfusion ·) ?_
    intro vote _ fits
    exact fits.approved (approvedRow grantId _ row) rfl rfl rfl _ (appliedVote_pledge row _ _ vote)
  | exact row mem waits grantId granted creates =>
    refine (exact_decides before.requestIds mem creates).sound before mem waits
      (noConfusion ·) ?_
    intro vote _ fits
    exact fits.approved { row with status := .approved, grantId := grantId.or row.grantId } rfl rfl rfl _
      (releaseOne_pledge row.id _ vote)
  | automatic row fresh isAutomatic =>
    refine before.submitted fresh ?_ rfl rfl (.inr ⟨rfl, isAutomatic.1⟩) rfl
    intro waits
    exact absurd (isAutomatic.1.symm.trans waits) noConfusion

theorem perform_sound (before : Sound tables) (action : Action) : Sound (perform tables action) := by
  rcases perform_cases tables action with ⟨_, quiet, same | approves⟩ | ⟨_, _, _, _, _, same⟩
  · rw [same]
    exact quiet.sound before
  · exact approves.sound (quiet.sound before)
  · rw [same]
    exact before.granted rfl rfl rfl rfl

theorem sound_invariant (permits : Board -> Action -> Prop) : (board permits).Invariant (Sound ·.tables) where
  initial := by
    rintro state ⟨noRequests, noVotes, _, noneCarried⟩
    constructor
    · rw [noRequests]
      exact nodup_nil
    · rw [noRequests]
      exact forall_mem_nil _
    · rw [noVotes]
      exact nodup_nil
    · rw [noVotes]
      exact forall_mem_nil _
    · rw [noRequests]
      exact forall_mem_nil _
    · rw [noRequests]
      exact forall_mem_nil _
    · rw [noneCarried]
      exact nodup_nil
    · rw [noneCarried]
      exact forall_mem_nil _
    · rw [noRequests]
      exact forall_mem_nil _
  step := by
    intro _ action sound _
    exact perform_sound sound action

namespace SmallBoard

def options : Options :=
  { enabled := true, kinds := [.window, .weekly, .temporary], minSupporters := 2, approvalPercent := 60, coveragePercent := 50,
    hours := 72, boostHours := 168, minAccountDays := 7, maxPledgePercent := 50 }

def limits (windowTokens : ℚ) : Base :=
  { windowTokens, weeklyTokens := 10000, windowEnabled := true, weeklyEnabled := true, rateEnabled := false, rateRules := [] }

def read (windowTokens : ℚ) (now : ℕ) : Surroundings :=
  { options, base := fun _ _ => limits windowTokens, modelExists := fun _ => true, autoEnabled := false, autoTokens := 0,
    autoWeeklyTokens := 0, fails := false, now, later := now }

def wish (userId tokens : ℕ) : Wish :=
  { userId, kind := .window, pool := .chat, modelId := none, tokens, weekly := 0, per := "minute", requests := 0, hours := 0,
    unlimited := false, level := none, community := true, reasonLength := 20 }

def person (id : ℕ) : Person := { id, admin := false, suspended := false, createdAt := none }

def start : Board :=
  { tables := { requests := [], votes := [], grants := [], carriedOut := [], nextRequest := 1, nextGrant := 1 }, clock := 0 }

def supported : List Action :=
  [.submit (read 1000 10) (wish 1 1600), .vote (read 1000 20) (person 2) 1 .support 150,
    .vote (read 1000 30) (person 3) 1 .support 150]

end SmallBoard

end BananaChat.Community

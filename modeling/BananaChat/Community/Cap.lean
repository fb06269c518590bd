import BananaChat.Community.BoardKept

namespace BananaChat.Community

open Foundation Option Bool Rows

/-!
# The cap of pledges

With constant limits and options nobody has more in pledges, promised or in force, than the share of
the own limit that may be renounced.
-/

variable {row : QuotaRequest} {votes : List Vote}

section Held

variable {userId : ℕ} {limit : Target} {period : Period}

variable {now : ℕ} {vote : Vote}

theorem held_later (exclude : Option ℕ) {later : ℕ} (order : now <= later) (votes : List Vote) :
  held userId limit period exclude later votes <= held userId limit period exclude now votes := by
  apply sumWhere_mono
  intro vote _ counted
  rw [and_eq_true] at counted ⊢
  refine ⟨?_, counted.2⟩
  have holds := counted.1
  unfold Vote.holds at holds ⊢
  cases ends : vote.endsAt with
  | none =>
    rw [ends] at holds
    exact holds
  | some ended =>
    rw [ends] at holds
    simp only [and_eq_true, decide_eq_true_eq] at holds ⊢
    rcases holds with ⟨⟨⟨⟨pledged, notYet⟩, pool⟩, model⟩, isScope⟩
    exact ⟨⟨⟨⟨pledged, lt_of_le_of_lt order notYet⟩, pool⟩, model⟩, isScope⟩

theorem held_map_le (changeVote : Vote -> Vote)
  (fewer : ∀ vote ∈ votes, (changeVote vote).holds userId limit period now ->
    vote.holds userId limit period now /\ (changeVote vote).tokens = vote.tokens) :
  held userId limit period none now (votes.map changeVote) <= held userId limit period none now votes := by
  refine @sumWhere_updateWhere_le _ (fun _ => true) changeVote votes _ _ _ ?_ ?_
  · intro vote mem _ counted
    rw [and_eq_true] at counted
    rcases fewer vote mem counted.1 with ⟨holds, tokens⟩
    exact ⟨by rw [holds]; rfl, le_of_eq tokens⟩
  · exact fun _ _ unchosen => absurd rfl unchosen

theorem releaseOne_holds {requestId released : ℕ}
  (holds : (releaseOne requestId released vote).holds userId limit period now) :
  releaseOne requestId released vote = vote := by
  rcases releaseOne_cases requestId released vote with same | ⟨_, _, same⟩
  · exact same
  · rw [same] at holds
    unfold Vote.holds at holds
    simp at holds

theorem held_release_le (requestId released now : ℕ) (votes : List Vote) :
  held userId limit period none now (release requestId released votes) <= held userId limit period none now votes := by
  rw [release_eq]
  refine held_map_le _ ?_
  intro _ _ holds
  have same := releaseOne_holds holds
  rw [same] at holds
  rw [same]
  exact ⟨holds, rfl⟩

theorem appliedVote_holds {starts ends : ℕ} (unended : vote.requestId = row.id -> vote.endsAt = none)
  (holds : (appliedVote row starts ends vote).holds userId limit period now) : vote.holds userId limit period now := by
  unfold appliedVote at holds
  rw [releaseOne_holds holds] at holds
  split at holds
  · exact holds
  · rcases startOne_cases row.id starts ends vote with same | ⟨mine, same⟩
    · rwa [same] at holds
    · rw [same] at holds
      unfold Vote.holds at holds ⊢
      rw [unended mine]
      simp only [and_eq_true, decide_eq_true_eq] at holds ⊢
      exact ⟨⟨⟨⟨holds.1.1.1.1, trivial⟩, holds.1.1.2⟩, holds.1.2⟩, holds.2⟩

def castAmount (userId : ℕ) (limit : Target) (period : Period) (user : Person) (row : QuotaRequest) (stance : Stance)
  (tokens : ℕ) : ℕ :=
  if user.id = userId /\ stance = .support /\ target row = limit /\ scope row = some period then tokens else 0

theorem isCast_amount {user : Person} {stance : Stance} {tokens : ℕ} (isCast : IsCast user row stance tokens votes vote)
  (holds : vote.holds userId limit period now) :
  vote.tokens <= castAmount userId limit period user row stance tokens := by
  unfold Vote.holds at holds
  simp only [and_eq_true, decide_eq_true_eq] at holds
  rcases holds with ⟨⟨⟨⟨⟨⟨⟨owner, support⟩, positive⟩, _⟩, _⟩, pool⟩, model⟩, isScope⟩
  have isTarget : target row = limit := by
    rw [isCast.pool] at pool
    rw [isCast.modelId] at model
    cases aim : target row with
    | mk aimPool aimModel =>
      rw [aim] at pool model
      cases limit with
      | mk limitPool limitModel =>
        dsimp only at pool model
        rw [pool, model]
  have isPeriod : scope row = some period := by
    rw [isCast.tokens] at positive
    rw [isCast.scope, if_neg (Nat.ne_of_gt positive)] at isScope
    exact isScope
  unfold castAmount
  rw [if_pos ⟨(congrArg Prod.snd isCast.key).symm.trans owner, isCast.stance.symm.trans support, isTarget, isPeriod⟩]
  exact le_of_eq isCast.tokens

theorem held_cast (userId : ℕ) (limit : Target) (period : Period) (user : Person) (row : QuotaRequest) (stance : Stance)
  (tokens now : ℕ) (distinct : (votes.map Vote.key).Nodup) :
  held userId limit period none now (castVote user row stance tokens votes) <=
    held userId limit period (if user.id = userId then some row.id else none) now votes +
      castAmount userId limit period user row stance tokens := by
  let mine := fun vote : Vote => decide (vote.requestId = row.id) && decide (vote.userId = user.id)
  let counts := fun vote : Vote => vote.holds userId limit period now && decide (some vote.requestId ≠ none)
  have others : Rows.sumWhere (fun vote => counts vote && !mine vote) Vote.tokens votes <=
      held userId limit period (if user.id = userId then some row.id else none) now votes := by
    apply sumWhere_mono
    intro vote _ counted
    rw [and_eq_true, and_eq_true, not_eq_true'] at counted
    rw [and_eq_true, decide_eq_true_eq]
    refine ⟨counted.1.1, ?_⟩
    split
    · rename_i own
      intro sameRequest
      have owner : vote.userId = userId := by
        have holds := counted.1.1
        unfold Vote.holds at holds
        simp only [and_eq_true, decide_eq_true_eq] at holds
        exact holds.1.1.1.1.1.1.1
      have isMine : mine vote :=
        ownVote_iff.mpr (Prod.ext (Option.some.inj sameRequest) (owner.trans own.symm))
      rw [counted.2] at isMine
      cases isMine
    · exact some_ne_none _
  have amount : ∀ vote ∈ castVote user row stance tokens votes, vote.key = (row.id, user.id) ->
      counts vote -> vote.tokens <= castAmount userId limit period user row stance tokens := by
    intro vote mem own counted
    rcases castVote_cases mem with ⟨_, other⟩ | isCast
    · exact absurd own other
    · exact isCast_amount isCast (and_eq_true _ _ ▸ counted).1
  refine le_trans ?_ (Nat.add_le_add_right others _)
  unfold castVote at amount ⊢
  dsimp only at amount ⊢
  split
  · rename_i already
    rw [if_pos already] at amount
    have once : Rows.affected mine votes <= 1 := by
      have byKey : mine = fun vote => decide (vote.key = (row.id, user.id)) := by
        funext vote
        exact eq_iff_iff.mpr (ownVote_iff.trans decide_eq_true_iff.symm)
      rw [byKey, affected_key distinct]
      split
      · exact le_refl 1
      · exact Nat.zero_le 1
    refine (@sumWhere_updateWhere_le_add _ _ _ _ _ _ (castAmount userId limit period user row stance tokens) ?_).trans
      (Nat.add_le_add_left ?_ _)
    · intro vote mem chosen counted
      exact amount _ (mem_updateWhere.mpr (.inr ⟨vote, mem, chosen, rfl⟩)) (ownVote_iff.mp chosen) counted
    · exact (Nat.mul_le_mul_left _ once).trans (le_of_eq (Nat.mul_one _))
  · rename_i noneYet
    rw [if_neg noneYet] at amount
    unfold held
    rw [sumWhere_append]
    refine Nat.add_le_add ?_ ?_
    · apply sumWhere_mono
      intro vote mem counted
      rw [and_eq_true]
      refine ⟨counted, ?_⟩
      rw [not_eq_true', eq_false_iff]
      intro isMine
      exact noneYet (List.any_eq_true.mpr ⟨vote, mem, isMine⟩)
    · exact sumWhere_singleton_le (amount _ (List.mem_append_right _ (List.mem_singleton_self _)) rfl)

end Held

def Capped (options : Options) (base : ℕ -> Target -> Base) (clock : ℕ) (votes : List Vote) : Prop :=
  ∀ userId limit period now, clock <= now ->
    held userId limit period none now votes <= pledgeCap options (base userId limit) period

variable {around : Surroundings}

theorem pledgeRoom_spec {user : Person} {tokens : ℕ} (positive : 0 < tokens)
  (room : tokens <= pledgeRoom around user row votes) : ∀ period, scope row = some period ->
    held user.id (target row) period (some row.id) around.now votes + tokens <=
      pledgeCap around.options (around.base user.id (target row)) period := by
  intro period isScope
  unfold pledgeRoom at room
  rw [isScope] at room
  dsimp only at room
  split at room
  · exact absurd positive (Nat.not_lt.mpr room)
  · change tokens <= pledgeCap around.options (around.base user.id (target row)) period - _ at room
    omega

variable {tables after : Tables} {clock : ℕ}

theorem Quiet.capped {action : Action}
  (quiet : Quiet action tables after) (sound : Sound tables) (order : clock <= action.around.now)
  (capped : Capped action.around.options action.around.base clock tables.votes) :
  Capped action.around.options action.around.base action.around.now after.votes := by
  intro userId limit period now notBefore
  have before := capped userId limit period now (le_trans order notBefore)
  cases quiet with
  | stays | submitted row fresh waits manual unclosed | revoked around grantId isRevoke => exact before
  | voted user row stance tokens mem isOpen room =>
    have cast := held_cast userId limit period user row stance tokens now sound.voteKeys
    refine cast.trans ?_
    unfold castAmount
    by_cases own : user.id = userId
    · subst own
      rw [if_pos rfl]
      split
      · rename_i aimed
        rcases Nat.eq_zero_or_pos tokens with nothing | positive
        · rw [nothing, Nat.add_zero]
          refine le_trans ?_ before
          apply sumWhere_mono
          intro vote _ counted
          rw [and_eq_true] at counted ⊢
          exact ⟨counted.1, decide_eq_true (some_ne_none _)⟩
        · have within := pledgeRoom_spec positive (room positive).2 period aimed.2.2.2
          rw [aimed.2.2.1] at within
          exact (Nat.add_le_add_right (held_later (some row.id) notBefore tables.votes) tokens).trans within
      · refine le_trans ?_ before
        apply sumWhere_mono
        intro _ _ counted
        rw [and_eq_true] at counted ⊢
        exact ⟨counted.1, decide_eq_true (some_ne_none _)⟩
    · rw [if_neg own, if_neg (own ·.1), Nat.add_zero]
      exact before
  | withdrew selected => exact sumWhere_deleteWhere_le.trans before
  | ended row status released selected mem waits against chosen itself | closed row released mem waits =>
    exact (held_release_le row.id released now tables.votes).trans before

theorem Approves.held_le {settles : QuotaRequest -> List Vote -> Prop} (approves : Approves around settles tables after)
  (sound : Sound tables) (userId : ℕ) (limit : Target) (period : Period) (now : ℕ) :
  held userId limit period none now after.votes <= held userId limit period none now tables.votes := by
  cases approves with
  | community row mem settled isOpen covered _ applied =>
    rcases apply_spec sound.requestIds mem applied with ⟨grantId, granted, _, _, _, decides⟩
    rw [decides.votes]
    refine held_map_le _ (fun vote voteMember holds => ⟨?_, (appliedVote_pledge row _ _ vote).1⟩)
    refine appliedVote_holds (fun mine => ?_) holds
    exact ((sound.fits row mem vote voteMember mine).waiting (votingOpen_pending isOpen).1).2
  | exact row mem waits grantId granted creates =>
    exact held_release_le row.id around.later now tables.votes
  | automatic row fresh isAutomatic => exact le_refl _

theorem perform_capped (sound : Sound tables) (action : Action) (order : clock <= action.around.now)
  (capped : Capped action.around.options action.around.base clock tables.votes) :
  Capped action.around.options action.around.base action.around.now (perform tables action).votes := by
  rcases perform_cases tables action with ⟨_, quiet, same | approves⟩ | ⟨_, _, _, _, _, same⟩
  · rw [same]
    exact quiet.capped sound order capped
  · intro userId limit period now notBefore
    exact (approves.held_le (quiet.sound sound) userId limit period now).trans
      (quiet.capped sound order capped userId limit period now notBefore)
  · rw [same]
    exact fun userId limit period now notBefore => capped userId limit period now (le_trans order notBefore)

def Constant (options : Options) (base : ℕ -> Target -> Base) (_ : Board) (action : Action) : Prop :=
  action.around.options = options /\ action.around.base = base

theorem capped_of_reachable {options : Options} {base : ℕ -> Target -> Base} {state : Board}
  (reachable : (board (Constant options base)).Reachable state) :
  Sound state.tables /\ Capped options base state.clock state.tables.votes := by
  have invariant : (board (Constant options base)).Invariant
      (fun state => Sound state.tables /\ Capped options base state.clock state.tables.votes) := by
    constructor
    · intro start isInitial
      refine ⟨(sound_invariant _).initial start isInitial, ?_⟩
      intro userId limit period now _
      rw [isInitial.2.1]
      exact Nat.zero_le _
    · rintro before action ⟨sound, capped⟩ ⟨order, reads, sameOptions, sameBase⟩
      refine ⟨perform_sound sound action, ?_⟩
      have stillCapped : Capped options base action.around.now (perform before.tables action).votes := by
        rw [<- sameOptions, <- sameBase] at capped ⊢
        exact perform_capped sound action order capped
      intro userId limit period now notBefore
      exact stillCapped userId limit period now (le_trans reads notBefore)
  exact invariant.reachable reachable

/--
With constant options and limits, whatever people vote and withdraw: at every later time the pledges of an
account from one limit, promised or in force, are within its cap.
-/
theorem pledges_capped {options : Options} {base : ℕ -> Target -> Base} {state : Board}
  (reachable : (board (Constant options base)).Reachable state) : (∀ userId limit period now, state.clock <= now ->
    held userId limit period none now state.tables.votes <= pledgeCap options (base userId limit) period) /\
  (state.tables.votes.map Vote.key).Nodup /\
  ∀ around user requestId stance tokens after status,
    vote around user requestId stance tokens state.tables = .ok (after, status) ->
      ∃ row, requestRow requestId state.tables = some row /\
        ∀ limit period now, held user.id limit period none now after.votes <=
          held user.id limit period (some requestId) now state.tables.votes + renouncedTokens row stance tokens := by
  rcases capped_of_reachable reachable with ⟨sound, capped⟩
  refine ⟨capped, sound.voteKeys, ?_⟩
  intro around user requestId stance tokens after status done
  rcases vote_cases done with ⟨row, found, quiet, outcomes⟩
  refine ⟨row, found, fun limit period now => ?_⟩
  have isRow : row.id = requestId := (requestRow_mem found).2
  have cast := held_cast user.id limit period user row stance (renouncedTokens row stance tokens) now sound.voteKeys
  rw [if_pos rfl, isRow] at cast
  have few : castAmount user.id limit period user row stance (renouncedTokens row stance tokens) <=
      renouncedTokens row stance tokens := by
    unfold castAmount
    split
    · exact le_refl _
    · exact Nat.zero_le _
  have replaced := cast.trans (Nat.add_le_add_left few _)
  rcases outcomes with same | approves
  · rw [same]
    exact replaced
  · exact (approves.held_le (quiet.sound sound) user.id limit period now).trans replaced

open SmallBoard in
/-- Somebody pledges 150 of 1000 tokens and then 400 instead, where 500 is the most. -/
theorem pledges_capped_changed : ∃ state, (board (Constant options fun _ _ => limits 1000)).Reachable state /\
    held 2 ⟨some .chat, none⟩ .window none 30 state.tables.votes = 400 /\
    held 2 ⟨some .chat, none⟩ .window none 30 state.tables.votes <= pledgeCap options (limits 1000) .window /\
    pledgeCap options (limits 1000) .window = 500 /\ (state.tables.votes.map Vote.key).Nodup := by
  have admitted : (board (Constant options fun _ _ => limits 1000)).Admits start
      [.submit (read 1000 10) (wish 1 1600), .vote (read 1000 20) (person 2) 1 .support 150,
        .vote (read 1000 30) (person 2) 1 .support 400] := by
    refine ⟨⟨?_, ?_, rfl, rfl⟩, ⟨?_, ?_, rfl, rfl⟩, ⟨?_, ?_, rfl, rfl⟩, trivial⟩ <;> decide +kernel
  have initial : (board (Constant options fun _ _ => limits 1000)).initial start := ⟨rfl, rfl, rfl, rfl⟩
  have reachable := (Machine.Reachable.start initial).run _ admitted
  have capped := pledges_capped reachable
  exact ⟨_, reachable, by decide +kernel, capped.1 2 ⟨some .chat, none⟩ .window 30 (by decide +kernel), by decide +kernel,
    capped.2.1⟩

end BananaChat.Community

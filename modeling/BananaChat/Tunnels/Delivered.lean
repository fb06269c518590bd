import BananaChat.Tunnels.Relayed

namespace BananaChat.Tunnels.Bridge

open Foundation WebSocket List Function Side Role
open Option (toList_none toList_some)

/-!
# The runs of a session

Every run keeps `Carries` for both directions.
-/

theorem other_of_ne {first second : Role} (different : first ≠ second) : first = second.other := by
  cases first with
  | worker => cases second with
      | worker => exact absurd rfl different
      | client => rfl
  | client => cases second with
      | worker => rfl
      | client => exact absurd rfl different

variable {role : Role} {session : Session} {past : List (Role × Message)} {accepted : List Message}
  {receiver sender : Side} {kind : Kind} {pending : Pending}

variable {after : Session} {move : Move}

theorem step_cases {accepted : Option Message} (stepped : step session role move = some (after, accepted)) :
  (∃ size, size <= (session role).sent.length /\ after = splice session role size /\ accepted = none) \/
    (session role).ended = none /\ ∃ side,
      (session role).act move = some (side, accepted) /\ after = update session role side := by
  unfold step at stepped
  split at stepped
  · rename_i size
    split at stepped
    · rename_i allowed
      cases stepped
      exact .inl ⟨size, allowed.2.2, rfl, rfl⟩
    · cases stepped
  · split at stepped
    · rename_i running
      rcases Option.map_eq_some_iff.mp stepped with ⟨outcome, acted, same⟩
      rcases outcome with ⟨side, _⟩
      cases same
      exact .inr ⟨running, side, acted, rfl⟩
    · cases stepped

@[simp] theorem splice_self (session : Session) (role : Role) (size : ℕ) :
    splice session role size role = { session role with sent := (session role).sent.drop size } := by
  unfold splice
  rw [update_of_ne role.other_ne.symm, update_self]

@[simp] theorem splice_other (session : Session) (role : Role) (size : ℕ) :
    splice session role size role.other =
      { session role.other with arriving := (session role.other).arriving ++ (session role).sent.take size } := by
  unfold splice
  rw [update_self]

theorem acceptedBy_step (past : List (Role × Message)) (role acting : Role) (accepted : Option Message) :
  acceptedBy role (past ++ accepted.toList.map fun message => (acting, message)) =
    acceptedBy role past ++ (if acting = role then accepted.toList else []) := by
  unfold acceptedBy
  rw [filter_append, map_append]
  congr 1
  cases accepted with
  | none => rw [toList_none, ite_self]; rfl
  | some message =>
    by_cases same : acting = role
    · rw [if_pos same, toList_some, map_singleton, filter_cons_of_pos (by exact decide_eq_true same)]
      rfl
    · rw [if_neg same, toList_some, map_singleton, filter_cons_of_neg (by rw [decide_eq_true_eq]; exact same)]
      rfl

def Kept (past : List (Role × Message)) (session : Session) : Prop :=
  ∀ role, Carries (acceptedBy role past) (session role) (session role.other)

theorem Kept.step (kept : Kept past session) {acting : Role}
  {accepted : Option Message} (stepped : step session acting move = some (after, accepted)) :
  Kept (past ++ accepted.toList.map fun message => (acting, message)) after := by
  intro role
  rw [acceptedBy_step]
  rcases step_cases stepped with ⟨_, _, spliced, nothing⟩ | ⟨running, _, acted, updated⟩
  · rw [spliced, nothing, toList_none, ite_self, append_nil]
    by_cases same : acting = role
    · subst same
      rw [splice_self, splice_other]
      refine (kept acting).congr rfl rfl rfl ?_
      rw [append_assoc, take_append_drop]
    · have other := other_of_ne same
      have back : role = acting.other := by rw [other, other_other]
      rw [back, other_other, splice_self, splice_other]
      have carries := kept acting.other
      rw [other_other] at carries
      exact carries.congr rfl rfl rfl rfl
  · rcases act_effects acted with ⟨outEffect, inEffect⟩
    rw [updated]
    by_cases same : acting = role
    · subst same
      rw [if_pos rfl, update_self, update_of_ne acting.other_ne]
      exact (kept acting).outStep outEffect
    · have other := other_of_ne same
      rw [if_neg same, append_nil, <- other, update_self, update_of_ne (Ne.symm same)]
      have carries := kept role
      rw [<- other] at carries
      exact carries.inStep running inEffect

theorem enabled_step {action : Role × Move} (allowed : machine.enabled session action) :
  ∃ accepted : Option Message, step session action.1 action.2 = some (machine.next session action, accepted) /\
      report session action = accepted.toList.map (fun message => (action.1, message)) := by
  rcases Option.isSome_iff_exists.mp allowed with ⟨outcome, stepped⟩
  rcases outcome with ⟨_, accepted⟩
  refine ⟨accepted, ?_, ?_⟩
  · change _ = some (((step session action.1 action.2).map Prod.fst).getD session, accepted)
    rw [stepped]
    rfl
  · unfold report
    rw [stepped]
    rfl

theorem Trace.stepped {accepted : Option Message} (trace : machine.Trace report past session)
  (stepped : step session role move = some (after, accepted)) :
  machine.Trace report (past ++ accepted.toList.map fun message => (role, message)) after := by
  have allowed : machine.enabled session (role, move) := by
    change (step session role move).isSome
    rw [stepped]
    rfl
  have next := trace.act (role, move) allowed
  have reported : report session (role, move) = accepted.toList.map (fun message => (role, message)) := by
    unfold report
    rw [stepped]
    rfl
  have reached : machine.next session (role, move) = after := by
    change ((step session role move).map Prod.fst).getD session = after
    rw [stepped]
    rfl
  rw [reported, reached] at next
  exact next

theorem kept_trace (trace : machine.Trace report past session) : Kept past session := by
  refine Machine.Trace.induct ?_ ?_ trace
  · intro opened isInitial _
    rw [show opened = fun _ => Side.opened from isInitial]
    exact carries_opened
  · intro _ _ _ kept allowed
    rcases enabled_step allowed with ⟨_, stepped, reported⟩
    rw [reported]
    exact kept.step stepped

def Rested (sender receiver : Side) : Prop := receiver.ended = none -> receiver.arriving = [] /\ sender.sent = []

theorem Carries.rested (carries : Carries accepted sender receiver)
  (rested : Rested sender receiver) (uninterrupted : receiver.ended ≠ some .interrupted) :
  ((∃ reason, receiver.ended = some (.invalid reason)) /\
      ∃ message ∈ accepted, maxRelayFrame < message.payload.length) \/
    ((∀ reason, receiver.ended ≠ some (.invalid reason)) /\
      (∀ message ∈ accepted, message.payload.length <= maxRelayFrame) /\
      messages receiver.written = accepted.map arrivesAs) := by
  rcases carries with ⟨earlier, transit, split, small, _, sentOn, inTransit⟩
  have whole (nothing : transit = []) : accepted = earlier := by rw [split, nothing, append_nil]
  unfold InTransit at inTransit
  cases ended : receiver.ended with
  | none =>
    rcases rested ended with ⟨noneArriving, noneSent⟩
    rw [ended] at inTransit
    rw [noneArriving, noneSent] at inTransit
    have nothing : transit = [] := by
      cases transit with
      | nil => rfl
      | cons message rest =>
        cases inTransit
    rw [whole nothing]
    exact .inr ⟨(fun reason clash => nomatch clash), small, sentOn⟩
  | some ending =>
    rw [ended] at inTransit
    cases ending with
    | interrupted => exact absurd ended uninterrupted
    | closedByOtherSide =>
      rw [whole inTransit.1]
      refine .inr ⟨?_, small, sentOn⟩
      intro reason clash
      cases clash
    | invalid reason =>
      rcases inTransit with ⟨message, first, large⟩
      refine .inl ⟨⟨reason, rfl⟩, message, ?_, large⟩
      rw [split]
      exact mem_append_right _ (mem_of_head? first)

theorem Carries.canPass (carries : Carries accepted sender receiver) (running : receiver.ended = none)
  (noneSent : sender.sent = []) (some : receiver.arriving ≠ []) :
  ∃ after, receiver.pass = .some after := by
  rcases carries with ⟨_, _, _, _, acceptable, _, inTransit⟩
  have front := inTransit.front running acceptable
  rw [noneSent, append_nil] at front
  unfold Side.pass
  cases front with
  | waiting empty reading isFound =>
    unfold InTransit at inTransit
    rw [running, empty, reading, noneSent, append_nil] at inTransit
    exact absurd inTransit some
  | large message rest first large isFound | close empty stopped isFound =>
    rw [isFound]
    exact ⟨_, rfl⟩
  | message message rest first size isFound =>
    rw [isFound]
    dsimp only
    rw [if_neg (relayOf_not_closing message)]
    exact ⟨_, rfl⟩

def Side.load (receiver sender : Side) : ℕ := 2 * sender.sent.length + receiver.arriving.length

theorem pass_shrinks {side after : Side} (passed : side.pass = some after) (running : after.ended = none) :
  after.arriving.length < side.arriving.length := by
  unfold Side.pass at passed
  split at passed
  · cases passed
  · cases passed
    cases running
  · rename_i relayed rest isRead
    split at passed
    · cases passed
      cases running
    · cases passed
      exact relayFrame_shrinks isRead

theorem pass_uninterrupted {side after : Side} (passed : side.pass = some after) (running : side.ended = none) :
  after.ended ≠ some .interrupted := by
  unfold Side.pass at passed
  split at passed
  · cases passed
  · cases passed
    exact nofun
  · split at passed
    · cases passed
      exact nofun
    · cases passed
      rw [running]
      exact nofun

theorem comes_to_rest (load : ℕ) (trace : machine.Trace report past session) (role : Role)
  (running : (session role.other).ended = none) (bounded : (session role.other).load (session role) <= load) :
  ∃ rest : Session, machine.Trace report past rest /\ Rested (rest role) (rest role.other) /\
    (rest role.other).ended ≠ some .interrupted := by
  induction load generalizing session with
  | zero =>
    refine ⟨session, trace, ?_, by rw [running]; exact nofun⟩
    intro _
    unfold Side.load at bounded
    constructor
    · exact length_eq_zero_iff.mp (by omega)
    · exact length_eq_zero_iff.mp (by omega)
  | succ load ih =>
    by_cases noneSent : (session role).sent = []
    · by_cases noneArriving : (session role.other).arriving = []
      · refine ⟨session, trace, fun _ => ⟨noneArriving, noneSent⟩, ?_⟩
        rw [running]
        exact nofun
      · rcases (kept_trace trace role).canPass running noneSent noneArriving with ⟨after, passed⟩
        have stepped : step session role.other .pass = some (update session role.other after, none) := by
          unfold step
          dsimp only
          rw [if_pos running]
          unfold Side.act
          rw [passed]
          rfl
        have next := Trace.stepped trace stepped
        rw [toList_none, map_nil, append_nil] at next
        have senderKept : update session role.other after role = session role :=
          update_of_ne role.other_ne.symm after session
        have receiverNext : update session role.other after role.other = after :=
          update_self role.other after session
        cases ended : after.ended with
        | none =>
          have fewer := pass_shrinks passed ended
          refine ih next ?_ ?_
          · rw [receiverNext]
            exact ended
          · rw [receiverNext, senderKept]
            unfold Side.load at bounded ⊢
            omega
        | some ending =>
          refine ⟨_, next, ?_, ?_⟩
          · intro clash
            rw [receiverNext, ended] at clash
            cases clash
          · rw [receiverNext]
            exact pass_uninterrupted passed running
    · have some : 0 < (session role).sent.length := length_pos_iff.mpr noneSent
      let size := min (session role).sent.length spliceSize
      have positive : 0 < size := Nat.lt_min.mpr ⟨some, by decide⟩
      have fits : size <= (session role).sent.length := Nat.min_le_left _ _
      have stepped : step session role (.splice size) = .some (splice session role size, none) := by
        unfold step
        dsimp only
        rw [if_pos ⟨positive, Nat.min_le_right _ _, fits⟩]
      have next := Trace.stepped trace stepped
      rw [toList_none, map_nil, append_nil] at next
      refine ih next ?_ ?_
      · rw [splice_other]
        exact running
      · rw [splice_other, splice_self]
        unfold Side.load at bounded ⊢
        rw [length_drop, length_append, length_take_of_le fits]
        omega

def fragments : UInt8 -> List (List UInt8) -> List Frame
  | _, [] => []
  | opcode, [last] => [⟨true, opcode, last⟩]
  | opcode, piece :: next :: rest => ⟨false, opcode, piece⟩ :: fragments continuation (next :: rest)

def maskedAll (mask : List UInt8) (frames : List Frame) : List UInt8 := frames.flatMap (·.masked mask)

theorem maskedAll_cons (mask : List UInt8) (first : Frame) (rest : List Frame) :
    maskedAll mask (first :: rest) = first.masked mask ++ maskedAll mask rest := flatMap_cons

def Continues (kind : Kind) (opcode : UInt8) (pending : Pending) : Prop :=
  (opcode = kind.opcode /\ pending.kind = none) \/ (opcode = continuation /\ pending.kind = some kind)

theorem absorb_data {opcode : UInt8} (continues : Continues kind opcode pending) (fin : Bool) (payload : List UInt8) :
  pending.absorb ⟨fin, opcode, payload⟩ = pending.extend kind fin payload := by
  rcases pending with ⟨_, _⟩
  rcases continues with ⟨starts, nothing⟩ | ⟨goesOn, started⟩
  · subst starts nothing
    cases kind <;> rfl
  · subst goesOn started
    rfl

theorem Continues.allowed {opcode : UInt8} (continues : Continues kind opcode pending) (fin : Bool) {payload : List UInt8}
  (size : payload.length <= maxFrame) : (Frame.mk fin opcode payload).Allowed := by
  have isData : opcode < 8 := by
    rcases continues with ⟨starts, _⟩ | ⟨goesOn, _⟩
    · rw [starts]
      cases kind <;> decide
    · rw [goesOn]
      decide
  refine ⟨UInt8.lt_trans isData (by decide), size, fun isControl => ?_⟩
  exact absurd isControl (UInt8.not_le.mpr isData)

variable {found : Frame} {left : List UInt8}

section

variable (running : (session role).ended = none) (reading : (session role).reading) (isRead : frame (session role).incoming = .ok (found, left))
include running reading isRead

theorem step_more
  (absorbed : (session role).pending.absorb found = .more pending) :
  step session role .receive =
    some (update session role { session role with incoming := left, pending := pending }, none) := by
  unfold step act receive
  dsimp only
  rw [if_pos running, if_pos reading, isRead]
  dsimp only
  rw [absorbed]
  rfl

theorem step_accepted {message : Message}
  (absorbed : (session role).pending.absorb found = .accepted message) :
  step session role .receive =
    some (update session role ({ session role with incoming := left }.turn (.accepted message)), some message) := by
  unfold step act receive
  dsimp only
  rw [if_pos running, if_pos reading, isRead]
  dsimp only
  rw [absorbed]
  rfl

end

/-- A message in pieces is accepted, however it is cut and masked, up to the size that `receive` allows. -/
theorem receives_fragments (pieces : List (List UInt8)) (opcode : UInt8) {past : List (Role × Message)}
  {session : Session} (trace : machine.Trace report past session) (role : Role) {kind : Kind}
  {mask rest : List UInt8} (fourBytes : mask.length = 4) (some : pieces ≠ [])
  (small : ∀ piece ∈ pieces, piece.length <= maxFrame)
  (acceptable : ((session role).pending.message ++ pieces.flatten).length <= maxMessage)
  (running : (session role).ended = none) (reading : (session role).reading)
  (continues : Continues kind opcode (session role).pending)
  (incoming : (session role).incoming = maskedAll mask (fragments opcode pieces) ++ rest) :
  ∃ after : Session,
    machine.Trace report (past ++ [(role, ⟨kind, (session role).pending.message ++ pieces.flatten⟩)]) after /\
      after role.other = session role.other := by
  induction pieces generalizing opcode session with
  | nil => exact absurd rfl some
  | cons piece later ih =>
    have allowed (fin : Bool) := continues.allowed fin (small piece mem_cons_self)
    rw [flatten_cons, <- append_assoc] at acceptable
    have fits : ((session role).pending.message ++ piece).length <= maxMessage := by
      rw [length_append] at acceptable
      exact Nat.le_trans (Nat.le_add_right _ _) acceptable
    cases later with
    | nil =>
      have isRead : frame (session role).incoming = .ok (⟨true, opcode, piece⟩, rest) := by
        rw [incoming, fragments, maskedAll_cons, append_assoc]
        exact frame_masked (allowed true) fourBytes rest
      have absorbed : (session role).pending.absorb ⟨true, opcode, piece⟩ =
          .accepted ⟨kind, (session role).pending.message ++ piece⟩ := by
        rw [absorb_data continues]
        unfold Pending.extend
        rw [if_neg (Nat.not_lt.mpr fits), if_pos rfl]
      have taken := Trace.stepped trace (step_accepted running reading isRead absorbed)
      rw [toList_some, map_singleton] at taken
      rw [flatten_cons, flatten_nil, append_nil]
      exact ⟨_, taken, update_of_ne role.other_ne _ _⟩
    | cons next others =>
      have isRead : frame (session role).incoming =
          .ok (⟨false, opcode, piece⟩, maskedAll mask (fragments continuation (next :: others)) ++ rest) := by
        rw [incoming, fragments, maskedAll_cons, append_assoc]
        exact frame_masked (allowed false) fourBytes _
      have absorbed : (session role).pending.absorb ⟨false, opcode, piece⟩ =
          .more ⟨(session role).pending.message ++ piece, .some kind⟩ := by
        rw [absorb_data continues]
        unfold Pending.extend
        rw [if_neg (Nat.not_lt.mpr fits), if_neg Bool.false_ne_true]
      have goesOn := Trace.stepped trace (step_more running reading isRead absorbed)
      rw [toList_none, map_nil, append_nil] at goesOn
      have more := ih continuation goesOn (cons_ne_nil _ _)
        (fun other mem => small other (.tail _ mem))
      rw [update_self, update_of_ne role.other_ne] at more
      rw [flatten_cons, <- append_assoc]
      exact more acceptable running reading (.inr ⟨rfl, rfl⟩) rfl

structure Forwards (accepted : List Message) (sender receiver : Side) : Prop where
  goesOn : ∀ reason, receiver.ended ≠ some (.invalid reason)
  inOrder : messages receiver.written <+: accepted
  /-- At rest nothing is missing, unless the session ended for another reason. -/
  complete : Rested sender receiver -> receiver.ended ≠ some .interrupted -> messages receiver.written = accepted

theorem map_arrivesAs
  (valid : ∀ message ∈ accepted, message.kind = .text -> ByteArray.IsValidUTF8 message.payload.toByteArray) :
  accepted.map arrivesAs = accepted := by
  conv_rhs => rw [<- map_id accepted]
  apply map_congr_left
  intro message mem
  exact (arrivesAs_eq_iff message).mpr (valid message mem)

theorem Carries.forwards (carries : Carries accepted sender receiver)
  (relayable : ∀ message ∈ accepted, Relayable message) : Forwards accepted sender receiver := by
  have whole := map_arrivesAs (fun message mem => (relayable message mem).text)
  have goesOn (reason : String) : receiver.ended ≠ some (.invalid reason) := by
    intro isInvalid
    have rested : Rested sender receiver := by
      intro clash
      rw [isInvalid] at clash
      cases clash
    have uninterrupted : receiver.ended ≠ some .interrupted := by
      rw [isInvalid]
      exact nofun
    rcases carries.rested rested uninterrupted with ⟨_, message, mem, large⟩ | ⟨valid, _, _⟩
    · exact absurd (relayable message mem).size (Nat.not_le_of_lt large)
    · exact valid reason isInvalid
  refine ⟨goesOn, ?_, ?_⟩
  · rcases carries with ⟨earlier, _, split, _, _, sentOn, _⟩
    have same : earlier.map arrivesAs = earlier := by
      apply map_arrivesAs
      intro message mem
      exact (relayable message (by rw [split]; exact mem_append_left _ mem)).text
    rw [sentOn, same, split]
    exact prefix_append _ _
  · intro rested uninterrupted
    rcases carries.rested rested uninterrupted with ⟨⟨reason, isInvalid⟩, _⟩ | ⟨_, _, sentOn⟩
    · exact absurd isInvalid (goesOn reason)
    · rw [sentOn, whole]

theorem Carries.relayable (carries : Carries accepted sender receiver) (rested : Rested sender receiver)
  (uninterrupted : receiver.ended ≠ some .interrupted) (forwards : Forwards accepted sender receiver) :
  ∀ message ∈ accepted, Relayable message := by
  rcases carries.rested rested uninterrupted with ⟨⟨reason, isInvalid⟩, _⟩ | ⟨_, small, sentOn⟩
  · exact absurd isInvalid (forwards.goesOn reason)
  · rw [forwards.complete rested uninterrupted] at sentOn
    intro message mem
    refine ⟨small message mem, (arrivesAs_eq_iff message).mp ?_⟩
    have fixed : ∀ other ∈ accepted, arrivesAs other = id other := by
      apply map_inj_left.mp
      rw [map_id]
      exact sentOn.symm
    exact fixed message mem

/-- In every run both directions forward what can be carried. -/
theorem relay_complete {past : List (Role × Message)} {session : Session} (trace : machine.Trace report past session)
  (role : Role) :
  ((∀ message ∈ acceptedBy role past, Relayable message) ->
      Forwards (acceptedBy role past) (session role) (session role.other)) /\
    (Rested (session role) (session role.other) -> (session role.other).ended ≠ some .interrupted ->
      (Forwards (acceptedBy role past) (session role) (session role.other) ↔
        ∀ message ∈ acceptedBy role past, Relayable message)) := by
  have carries := kept_trace trace role
  refine ⟨carries.forwards, fun rested uninterrupted => ⟨carries.relayable rested uninterrupted, carries.forwards⟩⟩

def greeting : List (Role × Move) :=
  [(.client, .arrive ((Frame.mk false Kind.text.opcode [104]).masked [1, 2, 3, 4])), (.client, .receive),
    (.client, .arrive ((Frame.mk true ping []).masked [5, 6, 7, 8])),
    (.client, .arrive ((Frame.mk true continuation [105]).masked [9, 10, 11, 12])),
    (.client, .receive), (.worker, .keepAlive), (.client, .receive), (.client, .splice 3), (.client, .splice 4),
    (.worker, .pass)]

instance decidableEnabled (session : Session) (action : Role × Move) : Decidable (machine.enabled session action) :=
  inferInstanceAs (Decidable ((step session action.1 action.2).isSome))

theorem relay_complete_greeting :
  acceptedBy .client (machine.reports report (fun _ => Side.opened) greeting) = [⟨.text, [104, 105]⟩] /\
    Forwards (acceptedBy .client ([] ++ machine.reports report (fun _ => Side.opened) greeting))
      (machine.run (fun _ => Side.opened) greeting .client) (machine.run (fun _ => Side.opened) greeting .worker) := by
  have accepted : acceptedBy .client (machine.reports report (fun _ => Side.opened) greeting) = [⟨.text, [104, 105]⟩] := by
    decide +kernel
  have admitted : machine.Admits (fun _ => Side.opened) greeting := by decide +kernel
  refine ⟨accepted, (relay_complete ((Machine.Trace.start rfl).run greeting admitted) .client).1 ?_⟩
  intro message mem
  rw [mem_singleton.mp mem]
  exact ⟨by decide, fun _ => ⟨['h', 'i'], by decide +kernel⟩⟩

theorem unrelayable_breaks {pieces : List (List UInt8)} (some : pieces ≠ [])
  (small : ∀ piece ∈ pieces, piece.length <= maxFrame) (acceptable : pieces.flatten.length <= maxMessage)
  (unrelayable : ¬ Relayable ⟨kind, pieces.flatten⟩) :
  ∃ session : Session, machine.Trace report [(Role.client, ⟨kind, pieces.flatten⟩)] session /\
      ¬ Forwards [⟨kind, pieces.flatten⟩] (session .client) (session .worker) := by
  let sent : Side := { opened with incoming := maskedAll [0, 0, 0, 0] (fragments kind.opcode pieces) ++ [] }
  have arrives : step (fun _ => opened) .client (.arrive sent.incoming) =
      .some (update (fun _ => opened) .client sent, none) := rfl
  have arrived := Trace.stepped (Machine.Trace.start rfl) arrives
  have client : update (fun _ => opened) Role.client sent .client = sent := update_self _ _ _
  have worker : update (fun _ => opened) Role.client sent Role.client.other = opened :=
    update_of_ne Role.client.other_ne _ _
  have received := @receives_fragments pieces kind.opcode _ _ arrived .client kind [0, 0, 0, 0] [] rfl some small
  rcases received acceptable rfl rfl (.inl ⟨rfl, rfl⟩) rfl with ⟨session, trace, other⟩
  have running : (session Role.client.other).ended = none := by
    rw [other]
    rfl
  rcases comes_to_rest _ trace .client running (Nat.le_refl _) with ⟨rest, restTrace, rested, uninterrupted⟩
  refine ⟨rest, restTrace, fun forwards => unrelayable ?_⟩
  have carries := kept_trace restTrace .client
  exact carries.relayable rested uninterrupted forwards _ (mem_singleton.mpr rfl)

def oversized : List (List UInt8) := [replicate maxFrame 0, [0]]

/-- `receive` accepts them as one message, and the other side's bridge ends the session. -/
theorem oversized_breaks :
  ∃ session : Session,
    machine.Trace report [(Role.client, ⟨.binary, oversized.flatten⟩)] session /\
      ¬ Forwards [⟨.binary, oversized.flatten⟩] (session .client) (session .worker) := by
  have size : oversized.flatten.length = maxFrame + 1 := by
    unfold oversized
    rw [flatten_cons, flatten_cons, flatten_nil, length_append, length_replicate]
    rfl
  refine unrelayable_breaks (cons_ne_nil _ _) ?_ ?_ ?_
  · intro piece mem
    rcases mem_cons.mp mem with first | last
    · exact Nat.le_of_eq (by rw [first, length_replicate])
    · rw [mem_singleton.mp last]
      decide
  · rw [size]
    decide
  · intro relayable
    have fits := relayable.size
    rw [size] at fits
    exact absurd fits (by decide)

end BananaChat.Tunnels.Bridge

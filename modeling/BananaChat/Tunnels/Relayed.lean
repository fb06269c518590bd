import BananaChat.Tunnels.Bridge

namespace BananaChat.Tunnels.Bridge

open Foundation Reader WebSocket List Option

/-!
# What reaches the other side of a session

`receive` accepts a message of up to `maxMessage` bytes, whatever its frames; a relay frame may hold
`maxRelayFrame` bytes, and a text is decoded with replacement on the way.
-/

structure Relayable (message : Message) : Prop where
  size : message.payload.length <= maxRelayFrame
  text : message.kind = .text -> ByteArray.IsValidUTF8 message.payload.toByteArray

def arrivesAs (message : Message) : Message :=
  match message.kind with
  | .text => ⟨.text, Text.encodeChars (Text.decodeReplace message.payload)⟩
  | .binary => message

def wires (accepted : List Message) : List UInt8 := accepted.flatMap (fun message => (relayOf message).wire)

variable (message : Message) {relayed : RelayFrame} {after side receiver sender : Side} {accepted : List Message}

theorem arrivesAs_eq_iff :
  arrivesAs message = message ↔ (message.kind = .text -> ByteArray.IsValidUTF8 message.payload.toByteArray) := by
  rcases message with ⟨kind, payload⟩
  cases kind with
  | binary => exact ⟨fun _ clash => (nomatch clash), fun _ => rfl⟩
  | text =>
    refine Iff.trans ?_ (Iff.trans (Text.encodeChars_decodeReplace_iff payload) ⟨fun valid _ => valid, fun valid => valid rfl⟩)
    unfold arrivesAs
    simp

theorem steady_relayFrame : Steady relayFrame := by
  refine (steady_exact 5).bind (fun head => ?_)
  refine Steady.ite (steady_broken _) ?_
  exact (steady_exact _).bind (fun payload => steady_pure _)

theorem relayFrame_header (fits : relayed.payload.length < 256 ^ 4) (rest : List UInt8) :
  relayFrame (relayed.wire ++ rest) = (if maxRelayFrame < relayed.payload.length \/
        ¬ (relayed.kind = data \/ relayed.kind = control \/ relayed.kind = closing) then
      broken "invalid relay frame"
    else do
      let payload <- exact relayed.payload.length
      return ⟨relayed.kind, payload⟩ : Reader RelayFrame) (relayed.payload ++ rest) := by
  have header : (relayed.kind :: bigEndian 4 relayed.payload.length).length = 5 := by
    rw [length_cons, length_bigEndian]
  unfold relayFrame RelayFrame.wire
  rw [append_assoc, bind_ok (exact_append header _)]
  simp [ofBigEndian_bigEndian fits]

theorem relayFrame_wire (size : relayed.payload.length <= maxRelayFrame)
  (known : relayed.kind = data \/ relayed.kind = control \/ relayed.kind = closing) (rest : List UInt8) :
  relayFrame (relayed.wire ++ rest) = .ok (relayed, rest) := by
  rw [relayFrame_header (Nat.lt_of_le_of_lt size (by decide))]
  rw [if_neg (by rintro (large | unknown); exact absurd size (Nat.not_le_of_lt large); exact unknown known)]
  rw [bind_ok (exact_append rfl rest)]
  rfl

theorem relayFrame_large (large : maxRelayFrame < relayed.payload.length) (fits : relayed.payload.length < 256 ^ 4)
  (rest : List UInt8) : relayFrame (relayed.wire ++ rest) = .error (.broken "invalid relay frame") := by
  rw [relayFrame_header fits, if_pos (.inl large)]
  rfl

theorem relayFrame_shrinks {stream rest : List UInt8} (isRead : relayFrame stream = .ok (relayed, rest)) :
  rest.length < stream.length := by
  rcases bind_eq_ok isRead with ⟨_, _, headRead, later⟩
  rcases exact_split headRead with ⟨split, five⟩
  dsimp only at later
  split at later
  · cases later
  · rcases bind_eq_ok later with ⟨_, left, payloadRead, last⟩
    have nothingMore : left = rest := by
      cases last
      rfl
    rw [split, (exact_split payloadRead).1, nothingMore, length_append, length_append, five]
    omega

@[simp] theorem relayOf_payload : (relayOf message).payload = message.payload := by
  unfold relayOf
  cases message.kind <;> rfl

theorem relayOf_kind : (relayOf message).kind = data \/ (relayOf message).kind = control := by
  unfold relayOf
  cases message.kind with
  | text => exact .inr rfl
  | binary => exact .inl rfl

theorem relayOf_not_closing : (relayOf message).kind ≠ closing := by
  rcases relayOf_kind message with isData | isControl
  · rw [isData]
    decide
  · rw [isControl]
    decide

theorem messages_forwarded {message : Message} (size : message.payload.length <= maxRelayFrame) :
  messages (forwarded (relayOf message)) = [arrivesAs message] := by
  rcases message with ⟨kind, payload⟩
  cases kind with
  | text => rfl
  | binary =>
    change messages (sendBinary payload) = _
    rw [sendBinary_fits size]
    rfl

theorem wires_cons (rest : List Message) :
    wires (message :: rest) = (relayOf message).wire ++ wires rest := flatMap_cons

theorem wires_append (first second : List Message) : wires (first ++ second) = wires first ++ wires second :=
  flatMap_append

theorem messages_append (first second : List Sent) : messages (first ++ second) = messages first ++ messages second :=
  filterMap_append

inductive OutEffect (side after : Side) : Option Message -> Prop
  | none (sent : after.sent = side.sent) (reading : after.reading = side.reading) : OutEffect side after none
  | accepted (message : Message) (size : message.payload.length <= maxMessage) (running : side.reading)
      (sent : after.sent = side.sent ++ (relayOf message).wire) (reading : after.reading) :
      OutEffect side after (some message)
  | stopped (running : side.reading) (sent : after.sent = side.sent ++ closeFrame.wire)
      (reading : after.reading = false) : OutEffect side after none

inductive InEffect (side after : Side) : Prop
  | none (arriving : after.arriving = side.arriving) (written : messages after.written = messages side.written)
      (ended : after.ended = side.ended)
  | passed (relayed : RelayFrame) (isRead : relayFrame side.arriving = .ok (relayed, after.arriving))
      (isMessage : relayed.kind ≠ closing) (written : after.written = side.written ++ forwarded relayed)
      (ended : after.ended = side.ended)
  | closed (relayed : RelayFrame) (rest : List UInt8) (isRead : relayFrame side.arriving = .ok (relayed, rest))
      (isClose : relayed.kind = closing) (written : after.written = side.written)
      (ended : after.ended = some .closedByOtherSide)
  | invalid (reason : String) (isBroken : relayFrame side.arriving = .error (.broken reason))
      (written : after.written = side.written) (ended : after.ended = some (.invalid reason))
  | interrupted (written : after.written = side.written) (ended : after.ended = some .interrupted)

variable {pending : Pending}

/-- An accepted message has at most the size that `receive` allows. -/
theorem extend_accepted {kind : Kind} {fin : Bool} {payload : List UInt8} {message : Message}
  (accepted : pending.extend kind fin payload = .accepted message) : message.payload.length <= maxMessage := by
  unfold Pending.extend at accepted
  split at accepted
  · cases accepted
  · rename_i fits
    split at accepted
    · cases accepted
      exact Nat.not_lt.mp fits
    · cases accepted

theorem absorb_accepted {found : Frame} {message : Message}
  (accepted : pending.absorb found = .accepted message) : message.payload.length <= maxMessage := by
  unfold Pending.absorb at accepted
  split at accepted
  · cases accepted
  split at accepted
  · cases accepted
  split at accepted
  · cases accepted
  split at accepted
  · split at accepted
    · cases accepted
    · exact extend_accepted accepted
  · split at accepted
    · split at accepted
      · exact extend_accepted accepted
      · cases accepted
    · cases accepted

theorem receive_effects {accepted : Option Message} (running : side.reading)
  (received : side.receive = some (after, accepted)) : OutEffect side after accepted /\ InEffect side after := by
  unfold Side.receive at received
  split at received
  · cases received
  · cases received
    exact ⟨.stopped running rfl rfl, .none rfl rfl rfl⟩
  · rename_i found rest isRead
    split at received
    · rename_i message absorbed
      cases received
      exact ⟨.accepted message (absorb_accepted absorbed) running rfl running, .none rfl rfl rfl⟩
    · rename_i outcome notAccepted
      cases received
      cases absorbed : side.pending.absorb found with
      | more pending => exact ⟨.none rfl rfl, .none rfl rfl rfl⟩
      | accepted message => exact absurd absorbed (notAccepted message)
      | failed reason => exact ⟨.stopped running rfl rfl, .none rfl rfl rfl⟩
      | answer pending payload =>
        refine ⟨.none rfl rfl, .none rfl ?_ rfl⟩
        change messages (side.written ++ [⟨pong, payload⟩]) = _
        rw [messages_append]
        exact append_nil _

theorem pass_effect (passed : side.pass = some after) : InEffect side after := by
  unfold Side.pass at passed
  split at passed
  · cases passed
  · rename_i reason isBroken
    cases passed
    exact .invalid reason isBroken rfl rfl
  · rename_i relayed rest isRead
    split at passed
    · rename_i isClose
      cases passed
      exact .closed relayed rest isRead isClose rfl rfl
    · rename_i isMessage
      cases passed
      exact .passed relayed isRead isMessage rfl rfl

theorem pass_out (passed : side.pass = some after) : OutEffect side after none := by
  unfold Side.pass at passed
  split at passed
  · cases passed
  · cases passed
    exact .none rfl rfl
  · split at passed
    · cases passed
      exact .none rfl rfl
    · cases passed
      exact .none rfl rfl

theorem act_effects {move : Move} {accepted : Option Message} (acted : side.act move = some (after, accepted)) :
  OutEffect side after accepted /\ InEffect side after := by
  unfold Side.act at acted
  split at acted
  · cases acted
    exact ⟨.none rfl rfl, .none rfl rfl rfl⟩
  · split at acted
    · rename_i running
      exact receive_effects running acted
    · cases acted
  · split at acted
    · rename_i running
      cases acted
      exact ⟨.stopped running rfl rfl, .none rfl rfl rfl⟩
    · cases acted
  · cases acted
  · rcases map_eq_some_iff.mp acted with ⟨_, passed, same⟩
    cases same
    exact ⟨pass_out passed, pass_effect passed⟩
  · cases acted
    refine ⟨.none rfl rfl, .none rfl ?_ rfl⟩
    change messages (side.written ++ [⟨ping, [98, 99]⟩]) = _
    rw [messages_append]
    exact append_nil _
  · cases acted
    exact ⟨.none rfl rfl, .interrupted rfl rfl⟩

def trailer (reading : Bool) : List UInt8 := if reading then [] else closeFrame.wire

def InTransit (transit : List Message) (sender receiver : Side) : Prop :=
  match receiver.ended with
  | none =>
    receiver.arriving ++ sender.sent = wires transit ++ trailer sender.reading
  | some (.invalid _) => ∃ message, transit.head? = some message /\ maxRelayFrame < message.payload.length
  | some .closedByOtherSide => transit = [] /\ sender.reading = false
  | some .interrupted => True

def Carries (accepted : List Message) (sender receiver : Side) : Prop :=
  ∃ earlier transit, accepted = earlier ++ transit /\
      (∀ message ∈ earlier, message.payload.length <= maxRelayFrame) /\
      (∀ message ∈ transit, message.payload.length <= maxMessage) /\
      messages receiver.written = earlier.map arrivesAs /\
      InTransit transit sender receiver

theorem carries_opened : Carries [] Side.opened Side.opened := ⟨[], [], rfl, nofun, nofun, rfl, rfl⟩

theorem Carries.congr {otherSender otherReceiver : Side} (carries : Carries accepted sender receiver)
  (written : messages otherReceiver.written = messages receiver.written) (ended : otherReceiver.ended = receiver.ended)
  (reading : otherSender.reading = sender.reading)
  (stream : otherReceiver.arriving ++ otherSender.sent = receiver.arriving ++ sender.sent) :
  Carries accepted otherSender otherReceiver := by
  rcases carries with ⟨earlier, transit, split, small, acceptable, sentOn, inTransit⟩
  refine ⟨earlier, transit, split, small, acceptable, written.trans sentOn, ?_⟩
  unfold InTransit at inTransit ⊢
  rw [ended, reading, stream]
  exact inTransit

theorem Carries.outStep {new : Option Message} (carries : Carries accepted sender receiver)
  (effect : OutEffect sender after new) : Carries (accepted ++ new.toList) after receiver := by
  cases effect with
  | none sent reading =>
    rw [toList_none, append_nil]
    exact carries.congr rfl rfl reading (by rw [sent])
  | accepted message size running sent reading =>
    rcases carries with ⟨earlier, transit, split, small, acceptable, sentOn, inTransit⟩
    refine ⟨earlier, transit ++ [message], ?_, small, ?_, sentOn, ?_⟩
    · rw [split, append_assoc]
      rfl
    · exact forall_mem_snoc acceptable size
    · unfold InTransit at inTransit ⊢
      cases ended : receiver.ended with
      | none =>
        rw [ended, running, trailer, if_pos rfl, append_nil] at inTransit
        dsimp only at inTransit ⊢
        rw [sent, reading, trailer, if_pos rfl, append_nil, <- append_assoc, inTransit, wires_append, wires_cons]
        rw [show wires [] = [] from rfl, append_nil]
      | some ending =>
        rw [ended] at inTransit
        cases ending with
        | invalid reason =>
          rcases inTransit with ⟨first, isFirst, large⟩
          refine ⟨first, ?_, large⟩
          rw [head?_append, isFirst, some_or]
        | closedByOtherSide =>
          rw [inTransit.2] at running
          cases running
        | interrupted => exact True.intro
  | stopped running sent reading =>
    rw [toList_none, append_nil]
    rcases carries with ⟨earlier, transit, split, small, acceptable, sentOn, inTransit⟩
    refine ⟨earlier, transit, split, small, acceptable, sentOn, ?_⟩
    unfold InTransit at inTransit ⊢
    cases ended : receiver.ended with
    | none =>
      rw [ended, running, trailer, if_pos rfl, append_nil] at inTransit
      dsimp only at inTransit ⊢
      rw [sent, reading, trailer, if_neg Bool.false_ne_true, <- append_assoc, inTransit]
    | some ending =>
      rw [ended] at inTransit
      cases ending with
      | invalid reason => exact inTransit
      | closedByOtherSide => exact ⟨inTransit.1, reading⟩
      | interrupted => exact True.intro

inductive Front (transit : List Message) (reading : Bool) (found : Except Halt (RelayFrame × List UInt8)) : Prop
  | waiting (empty : transit = []) (running : reading) (isFound : found = .error .starved)
  | large (message : Message) (rest : List Message) (first : transit = message :: rest)
      (large : maxRelayFrame < message.payload.length) (isFound : found = .error (.broken "invalid relay frame"))
  | message (message : Message) (rest : List Message) (first : transit = message :: rest)
      (size : message.payload.length <= maxRelayFrame) (isFound : found = .ok (relayOf message, wires rest ++ trailer reading))
  | close (empty : transit = []) (stopped : reading = false) (isFound : found = .ok (closeFrame, []))

variable {transit : List Message}

theorem front_of_transit (acceptable : ∀ message ∈ transit, message.payload.length <= maxMessage) (reading : Bool) :
  Front transit reading (relayFrame (wires transit ++ trailer reading)) := by
  cases transit with
  | nil =>
    cases reading with
    | true => exact .waiting rfl rfl rfl
    | false =>
      have isRead : relayFrame (closeFrame.wire ++ []) = .ok (closeFrame, []) :=
        relayFrame_wire (Nat.zero_le _) (.inr (.inr rfl)) []
      exact .close rfl rfl isRead
  | cons message rest =>
    rw [wires_cons, append_assoc]
    by_cases large : maxRelayFrame < message.payload.length
    · refine .large message rest rfl large (relayFrame_large ?_ ?_ _)
      · rw [relayOf_payload]
        exact large
      · rw [relayOf_payload]
        exact Nat.lt_of_le_of_lt (acceptable message mem_cons_self) (by decide)
    · have size := Nat.not_lt.mp large
      have known : (relayOf message).kind = data \/ (relayOf message).kind = control \/ (relayOf message).kind = closing :=
        (relayOf_kind message).imp_right .inl
      refine .message message rest rfl size (relayFrame_wire ?_ known _)
      rw [relayOf_payload]
      exact size

theorem InTransit.front (inTransit : InTransit transit sender receiver) (running : receiver.ended = none)
  (acceptable : ∀ message ∈ transit, message.payload.length <= maxMessage) :
  Front transit sender.reading (relayFrame (receiver.arriving ++ sender.sent)) := by
  unfold InTransit at inTransit
  rw [running] at inTransit
  rw [inTransit]
  exact front_of_transit acceptable sender.reading

theorem Carries.inStep (carries : Carries accepted sender receiver) (running : receiver.ended = none)
  (effect : InEffect receiver after) : Carries accepted sender after := by
  rcases carries with ⟨earlier, transit, split, small, acceptable, sentOn, inTransit⟩
  have front := inTransit.front running acceptable
  cases effect with
  | none arriving written ended =>
    have carried : Carries accepted sender receiver := ⟨earlier, transit, split, small, acceptable, sentOn, inTransit⟩
    exact carried.congr written ended rfl (by rw [arriving])
  | interrupted written ended =>
    refine ⟨earlier, transit, split, small, acceptable, by rw [written, sentOn], ?_⟩
    unfold InTransit
    rw [ended]
    exact True.intro
  | invalid reason isBroken written ended =>
    refine ⟨earlier, transit, split, small, acceptable, by rw [written, sentOn], ?_⟩
    rw [steady_relayFrame.broken isBroken] at front
    unfold InTransit
    rw [ended]
    cases front with
    | waiting empty reading isFound | message message rest first size isFound | close empty stopped isFound =>
      cases isFound
    | large message rest first large isFound => exact ⟨message, by rw [first]; rfl, large⟩
  | closed relayed rest isRead isClose written ended =>
    refine ⟨earlier, transit, split, small, acceptable, by rw [written, sentOn], ?_⟩
    rw [steady_relayFrame.ok isRead] at front
    unfold InTransit
    rw [ended]
    cases front with
    | waiting empty reading isFound | large message later first large isFound => cases isFound
    | message message later first size isFound =>
      injection isFound with isFound
      injection isFound with sameFrame sameRest
      rw [sameFrame] at isClose
      exact absurd isClose (relayOf_not_closing message)
    | close empty stopped isFound => exact ⟨empty, stopped⟩
  | passed relayed isRead isMessage written ended =>
    rw [steady_relayFrame.ok isRead] at front
    cases front with
    | waiting empty reading isFound | large message later first large isFound => cases isFound
    | message message later first size isFound =>
      injection isFound with isFound
      injection isFound with sameFrame sameRest
      refine ⟨earlier ++ [message], later, ?_, ?_, ?_, ?_, ?_⟩
      · rw [split, first, append_assoc]
        rfl
      · exact forall_mem_snoc small size
      · intro other mem
        exact acceptable other (by rw [first]; exact .tail _ mem)
      · rw [written, messages_append, sentOn, sameFrame, messages_forwarded size, map_append]
        rfl
      · unfold InTransit
        rw [ended, running]
        exact sameRest
    | close empty stopped isFound =>
      injection isFound with isFound
      injection isFound with sameFrame sameRest
      rw [sameFrame] at isMessage
      exact absurd rfl isMessage

end BananaChat.Tunnels.Bridge

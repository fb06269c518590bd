import BananaChat.Foundation.Numbered
import BananaChat.Foundation.Text

namespace BananaChat.Chats

open Foundation List

/-!
# The channel of a chat answer

A queued event is a dictionary of its own, which `send` may extend; the reader takes it out of
the queue under the lock and writes it out afterwards.
-/

inductive ChatEvent (Payload : Type)
  | delta (thinking : Bool) (text : Text)
  | other (payload : Payload)

inductive ChannelReader
  | waiting
  | holding (place : ℕ)
  | ended

/-- `heap` has every queued dictionary by reference. `sent` is what was sent before the channel was
closed, and `spoiled` tells of an overflow or a client that went away: both are history. -/
structure Channel (Payload : Type) where
  heap : List (ChatEvent Payload)
  items : List ℕ
  closed : Bool
  attached : Bool
  reader : ChannelReader
  sent : List (ChatEvent Payload)
  emitted : List (ChatEvent Payload)
  spoiled : Bool

inductive ChannelAction (Payload : Type)
  | send (event : ChatEvent Payload)
  | close
  | detach
  /-- The reader takes an event, ends, or writes out what it took. -/
  | turn
  | leave

namespace Channel

variable {Payload : Type} (maxEvents : ℕ) (channel : Channel Payload)

def push (event : ChatEvent Payload) : Channel Payload :=
  if maxEvents <= channel.items.length then
    { channel with items := [], closed := true, spoiled := true }
  else
    { channel with heap := channel.heap ++ [event], items := channel.items ++ [channel.heap.length] }

/-- The place and text of a delta of this kind at the end of the queue. -/
def tail (thinking : Bool) : Option (ℕ × Text) :=
  channel.items.getLast?.bind fun place =>
    match channel.heap[place]? with
    | some (.delta kind text) => if kind = thinking then some (place, text) else none
    | _ => none

def send : ChatEvent Payload -> Channel Payload
  | .delta thinking text =>
    match channel.tail thinking with
    | some (place, before) => { channel with heap := channel.heap.set place (.delta thinking (before ++ text)) }
    | none => channel.push maxEvents (.delta thinking text)
  | event => channel.push maxEvents event

def turn : Channel Payload :=
  match channel.reader, channel.items with
  | .waiting, place :: items => { channel with items := items, reader := .holding place }
  | .waiting, [] =>
    if channel.closed || !channel.attached then
      { channel with attached := false, reader := .ended }
    else
      channel
  | .holding place, _ => { channel with emitted := channel.emitted ++ channel.heap[place]?.toList, reader := .waiting }
  | .ended, _ => channel

def next : ChannelAction Payload -> Channel Payload
  | .send event =>
    if channel.closed then
      channel
    else if channel.attached then
      send maxEvents { channel with sent := channel.sent ++ [event] } event
    else
      { channel with sent := channel.sent ++ [event] }
  | .close => { channel with closed := true }
  | .detach => { channel with attached := false, items := [], spoiled := true }
  | .turn => channel.turn
  | .leave => { channel with attached := false, items := [], spoiled := true, reader := .ended }

def start : Channel Payload := ⟨[], [], false, true, .waiting, [], [], false⟩

def run (actions : List (ChannelAction Payload)) : Channel Payload := actions.foldl (next maxEvents) start

end Channel

/-- The left events are the right ones, where some deltas were merged into the delta of the same kind before them. -/
inductive Merges {Payload : Type} : List (ChatEvent Payload) -> List (ChatEvent Payload) -> Prop
  | nil : Merges [] []
  | event {merged sent : List (ChatEvent Payload)} (event : ChatEvent Payload) : Merges merged sent ->
      Merges (merged ++ [event]) (sent ++ [event])
  | delta {merged sent : List (ChatEvent Payload)} {thinking : Bool} {before : Text} (text : Text) :
      Merges (merged ++ [.delta thinking before]) sent ->
      Merges (merged ++ [.delta thinking (before ++ text)]) (sent ++ [.delta thinking text])

variable {Payload : Type} {maxEvents : ℕ} {channel : Channel Payload} {first second sent : List (ChatEvent Payload)}

theorem Merges.part (merges : Merges (first ++ second) sent) : ∃ part, part <+: sent /\ Merges first part := by
  generalize whole : first ++ second = all at merges
  induction merges generalizing second with
  | nil =>
    cases (append_eq_nil_iff.mp whole).1
    exact ⟨[], nil_prefix, .nil⟩
  | @event merged sent event merges ih =>
    rcases eq_nil_or_concat second with rfl | ⟨rest, last, rfl⟩
    · rw [append_nil] at whole
      exact ⟨_, prefix_rfl, whole ▸ merges.event event⟩
    · rw [concat_eq_append, <- append_assoc] at whole
      rcases ih (append_inj_left' whole rfl) with ⟨part, isPart, isMerged⟩
      exact ⟨part, isPart.trans (prefix_append _ _), isMerged⟩
  | @delta merged sent thinking before text merges ih =>
    rcases eq_nil_or_concat second with rfl | ⟨rest, _, rfl⟩
    · rw [append_nil] at whole
      exact ⟨_, prefix_rfl, whole ▸ merges.delta text⟩
    · rw [concat_eq_append, <- append_assoc] at whole
      rcases @ih (rest ++ [.delta thinking before]) (by rw [<- append_assoc, append_inj_left' whole rfl]) with ⟨part, isPart, isMerged⟩
      exact ⟨part, isPart.trans (prefix_append _ _), isMerged⟩

namespace Channel

def held (channel : Channel Payload) : List ℕ :=
  match channel.reader with
  | .holding place => [place]
  | _ => []

def values (heap : List (ChatEvent Payload)) (places : List ℕ) : List (ChatEvent Payload) := places.filterMap (heap[·]?)

structure Kept (channel : Channel Payload) : Prop where
  merged : ∃ part, part <+: channel.sent /\ Merges (channel.emitted ++ values channel.heap (channel.held ++ channel.items)) part /\
    (channel.spoiled = false -> part = channel.sent)
  inside : ∀ place ∈ channel.held ++ channel.items, place < channel.heap.length
  distinct : (channel.held ++ channel.items).Nodup
  spoils : channel.spoiled -> channel.closed \/ channel.attached = false
  detached : channel.attached = false -> channel.items = [] /\ (channel.spoiled \/ channel.closed)
  ends : channel.reader = .ended -> channel.attached = false

variable {heap : List (ChatEvent Payload)} {places : List ℕ} {event : ChatEvent Payload}

theorem values_append (heap : List (ChatEvent Payload)) (first second : List ℕ) :
  values heap (first ++ second) = values heap first ++ values heap second := filterMap_append ..

theorem values_congr {after : List (ChatEvent Payload)} (same : ∀ place ∈ places, after[place]? = heap[place]?) :
  values after places = values heap places := filterMap_congr same

section

variable (kept : Kept channel)
include kept

theorem Kept.cut : ∃ part, part <+: channel.sent /\ Merges (channel.emitted ++ values channel.heap channel.held) part := by
  rcases kept.merged with ⟨_, isPart, merges, _⟩
  rw [values_append, <- append_assoc] at merges
  rcases merges.part with ⟨fewer, isFewer, isMerged⟩
  exact ⟨fewer, isFewer.trans isPart, isMerged⟩

theorem Kept.emptied (after : Channel Payload)
  (same : (after.heap, after.items, after.reader, after.emitted) = (channel.heap, [], channel.reader, channel.emitted))
  (sent : channel.sent <+: after.sent) (spoiled : after.spoiled) (off : after.closed \/ after.attached = false)
  (ends : after.reader = .ended -> after.attached = false) : Kept after := by
  rcases after with ⟨_, _, _, _, _, _, _, _⟩
  cases same
  rcases kept.cut with ⟨part, isPart, _⟩
  have listed : (channel.held ++ []) = channel.held := append_nil _
  refine ⟨⟨part, isPart.trans sent, ?_, fun clean => by cases spoiled.symm.trans clean⟩, ?_, ?_, fun _ => off,
    fun _ => ⟨rfl, .inl spoiled⟩, ends⟩
  · change Merges (channel.emitted ++ values channel.heap (channel.held ++ [])) part
    rwa [listed]
  · change ∀ place ∈ channel.held ++ [], place < channel.heap.length
    rw [listed]
    exact fun place mem => kept.inside place (mem_append_left _ mem)
  · change (channel.held ++ []).Nodup
    rw [listed]
    exact (nodup_append.mp kept.distinct).1

theorem Kept.whole (open_ : channel.closed = false) (attached : channel.attached) :
  Merges (channel.emitted ++ values channel.heap (channel.held ++ channel.items)) channel.sent := by
  rcases kept.merged with ⟨_, _, merges, whole⟩
  cases spoiled : channel.spoiled with
  | false => exact whole spoiled ▸ merges
  | true =>
    rcases kept.spoils spoiled with isClosed | isDetached
    · rw [open_] at isClosed
      cases isClosed
    · rw [attached] at isDetached
      cases isDetached

theorem Kept.push (open_ : channel.closed = false) (attached : channel.attached) (event : ChatEvent Payload) :
  Kept (push maxEvents { channel with sent := channel.sent ++ [event] } event) := by
  have listening (ended : channel.reader = .ended) : False := by cases attached.symm.trans (kept.ends ended)
  unfold Channel.push
  split
  · exact kept.emptied _ rfl (prefix_append _ _) rfl (.inl rfl) fun ended => (listening ended).elim
  · have merges := (kept.whole open_ attached).event event
    have fresh : channel.heap.length ∉ channel.held ++ channel.items := fun mem => Nat.lt_irrefl _ (kept.inside _ mem)
    refine ⟨⟨_, prefix_rfl, ?_, fun _ => rfl⟩, ?_, ?_, kept.spoils, fun detached => ?_, fun ended => ?_⟩
    · change Merges (channel.emitted ++ values (channel.heap ++ [event]) (channel.held ++ (channel.items ++ [channel.heap.length]))) _
      rw [<- append_assoc channel.held, values_append, values_congr fun place mem => getElem?_append_left (kept.inside place mem)]
      simpa [values] using merges
    · intro place mem
      rw [<- append_assoc] at mem
      rw [length_append]
      rcases mem_snoc.mp mem with before | same
      · exact Nat.lt_add_right _ (kept.inside place before)
      · exact same ▸ Nat.lt_succ_self _
    · rw [<- append_assoc]
      exact nodup_append.mpr ⟨kept.distinct, nodup_singleton _, fun place mem other isLast same => by
        cases mem_singleton.mp isLast
        exact fresh (same ▸ mem)⟩
    · cases attached.symm.trans detached
    · exact (listening ended).elim

end

theorem Kept.send (kept : Kept channel) (open_ : channel.closed = false) (attached : channel.attached) (event : ChatEvent Payload) :
  Kept (send maxEvents { channel with sent := channel.sent ++ [event] } event) := by
  cases event with
  | other payload => exact kept.push open_ attached _
  | delta thinking text =>
    simp only [Channel.send]
    split
    · rename_i place before isTail
      rcases Option.bind_eq_some_iff.mp isTail with ⟨last, isLast, _⟩
      rcases getLast?_eq_some_iff.mp isLast with ⟨init, same⟩
      have items : channel.items = init ++ [last] := same
      have found : last = place /\ channel.heap[place]? = some (.delta thinking before) := by
        grind
      cases found.1
      have listed : channel.held ++ channel.items = channel.held ++ init ++ [place] := by rw [items, append_assoc]
      have apart : place ∉ channel.held ++ init := by
        have distinct := kept.distinct
        rw [listed] at distinct
        exact fun mem => (nodup_append.mp distinct).2.2 place mem place (.head _) rfl
      have inside : place < channel.heap.length := (List.getElem?_eq_some_iff.mp found.2).1
      have merges := kept.whole open_ attached
      rw [listed, values_append, <- append_assoc] at merges
      have last : values channel.heap [place] = [.delta thinking before] := by simp [values, found.2]
      rw [last] at merges
      refine ⟨⟨_, prefix_rfl, ?_, fun _ => rfl⟩, ?_, kept.distinct, kept.spoils, kept.detached, kept.ends⟩
      · change Merges (channel.emitted ++ values (channel.heap.set place _) (channel.held ++ channel.items)) _
        rw [listed, values_append, values_congr fun other mem => getElem?_set_ne (ne_of_mem_of_not_mem mem apart).symm, <- append_assoc]
        have new : values (channel.heap.set place (.delta thinking (before ++ text))) [place] = [.delta thinking (before ++ text)] := by
          simp [values, inside]
        rw [new]
        exact merges.delta text
      · intro other mem
        rw [length_set]
        exact kept.inside other mem
    · exact kept.push open_ attached _

theorem Kept.turn (kept : Kept channel) : Kept channel.turn := by
  unfold Channel.turn
  split
  · rename_i place items isWaiting isItems
    have listed : channel.held ++ channel.items = place :: items := by simp [held, isWaiting, isItems]
    have merged := kept.merged
    have inside := kept.inside
    have distinct := kept.distinct
    rw [listed] at merged inside distinct
    refine ⟨merged, inside, distinct, kept.spoils, fun detached => ?_, nofun⟩
    have none := (kept.detached detached).1
    rw [isItems] at none
    cases none
  · rename_i isWaiting isItems
    split
    · rename_i isOver
      have listed : channel.held ++ channel.items = [] := by simp [held, isWaiting, isItems]
      have merged := kept.merged
      rw [listed] at merged
      refine ⟨?_, ?_, ?_, fun _ => .inr rfl, fun _ => ⟨isItems, ?_⟩, fun _ => rfl⟩
      · rw [isItems]
        exact merged
      · simp [held, isItems]
      · simp [held, isItems]
      · rcases (Bool.or_eq_true ..).mp isOver with isClosed | isDetached
        · exact .inr isClosed
        · exact (kept.detached (by simpa using isDetached)).2
    · exact kept
  · rename_i place isHolding
    have isHeld : channel.held = [place] := by simp [held, isHolding]
    have distinct := kept.distinct
    rw [isHeld] at distinct
    refine ⟨?_, fun other mem => kept.inside other (mem_append_right _ mem), (nodup_cons.mp distinct).2, kept.spoils,
      kept.detached, nofun⟩
    rcases kept.merged with ⟨part, isPart, merges, whole⟩
    rw [isHeld, values_append, <- append_assoc] at merges
    refine ⟨part, isPart, ?_, whole⟩
    have value : values channel.heap [place] = channel.heap[place]?.toList := by
      cases found : channel.heap[place]? <;> simp [values, found]
    exact merges
  · exact kept

theorem Kept.next (kept : Kept channel) (action : ChannelAction Payload) : Kept (channel.next maxEvents action) := by
  cases action with
  | send event =>
    simp only [Channel.next]
    split
    · exact kept
    · rename_i open_
      rw [Bool.not_eq_true] at open_
      split
      · rename_i attached
        exact kept.send open_ attached event
      · rename_i detached
        rw [Bool.not_eq_true] at detached
        rcases kept.merged with ⟨part, isPart, merges, _⟩
        refine ⟨⟨part, isPart.trans (prefix_append _ _), merges, fun unspoiled => ?_⟩, kept.inside, kept.distinct, kept.spoils,
          kept.detached, kept.ends⟩
        rcases (kept.detached detached).2 with spoiled | isClosed
        · cases unspoiled.symm.trans spoiled
        · cases open_.symm.trans isClosed
  | close => exact ⟨kept.merged, kept.inside, kept.distinct, fun _ => .inl rfl, fun detached => ⟨(kept.detached detached).1, .inr rfl⟩, kept.ends⟩
  | detach => exact kept.emptied _ rfl prefix_rfl rfl (.inr rfl) fun _ => rfl
  | leave =>
    rcases kept.cut with ⟨_, isPart, merges⟩
    rcases merges.part with ⟨fewer, isFewer, isMerged⟩
    refine ⟨⟨fewer, isFewer.trans isPart, ?_, nofun⟩, nofun, nodup_nil, fun _ => .inr rfl, fun _ => ⟨rfl, .inl rfl⟩, fun _ => rfl⟩
    exact (append_nil channel.emitted).symm ▸ isMerged
  | turn => exact kept.turn

theorem kept_run (maxEvents : ℕ) (actions : List (ChannelAction Payload)) : Kept (run maxEvents actions) := by
  have start : Kept (start : Channel Payload) := ⟨⟨[], prefix_rfl, .nil, fun _ => rfl⟩, nofun, nodup_nil, nofun, nofun, nofun⟩
  unfold run
  generalize (Channel.start : Channel Payload) = channel at start
  induction actions generalizing channel with
  | nil => exact start
  | cons action rest ih => exact ih _ (start.next action)

theorem next_heap {place : ℕ} (inside : place < channel.heap.length) (out : place ∉ channel.items)
  (action : ChannelAction Payload) : (channel.next maxEvents action).heap[place]? = channel.heap[place]? /\
    place < (channel.next maxEvents action).heap.length /\ place ∉ (channel.next maxEvents action).items := by
  have pushed (sent : List (ChatEvent Payload)) (event : ChatEvent Payload) :
      (push maxEvents { channel with sent := sent } event).heap[place]? = channel.heap[place]? /\
        place < (push maxEvents { channel with sent := sent } event).heap.length /\
        place ∉ (push maxEvents { channel with sent := sent } event).items := by
    unfold Channel.push
    split
    · exact ⟨rfl, inside, nofun⟩
    · refine ⟨getElem?_append_left inside, ?_, ?_⟩
      · rw [length_append]
        exact Nat.lt_add_right _ inside
      · rw [mem_snoc]
        exact fun either => either.elim out (Nat.ne_of_lt inside)
  cases action with
  | send event =>
    simp only [Channel.next]
    split
    · exact ⟨rfl, inside, out⟩
    · split
      · cases event with
        | other payload => exact pushed _ _
        | delta thinking text =>
          simp only [Channel.send]
          split
          · rename_i last before isTail
            have mem : last ∈ channel.items := by
              rcases Option.bind_eq_some_iff.mp isTail with ⟨found, isLast, _⟩
              have same : found = last := by grind
              exact same ▸ mem_of_getLast? isLast
            refine ⟨getElem?_set_ne (ne_of_mem_of_not_mem mem out), ?_, out⟩
            rw [length_set]
            exact inside
          · exact pushed _ _
      · exact ⟨rfl, inside, out⟩
  | close => exact ⟨rfl, inside, out⟩
  | detach | leave => exact ⟨rfl, inside, nofun⟩
  | turn =>
    simp only [Channel.next, Channel.turn]
    split
    · rename_i items isItems
      exact ⟨rfl, inside, fun mem => out (isItems ▸ .tail _ mem)⟩
    · split <;> exact ⟨rfl, inside, out⟩
    · exact ⟨rfl, inside, out⟩
    · exact ⟨rfl, inside, out⟩

def ahead (channel : Channel Payload) : ℕ :=
  match channel.reader with
  | .waiting => 2 * channel.items.length + 1
  | .holding _ => 2 * channel.items.length + 2
  | .ended => 0

theorem turn_ahead (closed : channel.closed) : channel.turn.ahead = channel.ahead - 1 /\ channel.turn.closed /\
    channel.turn.spoiled = channel.spoiled /\ channel.turn.sent = channel.sent := by
  rcases channel with ⟨_, items, _, _, reader, _, _, _⟩
  cases closed
  cases reader <;> cases items <;> simp [Channel.turn, ahead]
  omega

theorem turns_end (closed : channel.closed) (turns : ℕ) (enough : channel.ahead <= turns) :
  let later := (replicate turns ChannelAction.turn).foldl (next maxEvents) channel
  later.reader = .ended /\ later.spoiled = channel.spoiled /\ later.sent = channel.sent := by
  induction turns generalizing channel with
  | zero =>
    refine ⟨?_, rfl, rfl⟩
    unfold ahead at enough
    cases isReader : channel.reader <;> simp [isReader] at enough ⊢
  | succ turns ih =>
    rcases turn_ahead closed with ⟨_, still, spoiled, sent⟩
    have later := ih still (by omega)
    rw [spoiled, sent] at later
    exact later

theorem channel_faithful (maxEvents : ℕ) (actions : List (ChannelAction Payload)) :
  let channel : Channel Payload := run maxEvents actions
  (∃ part, part <+: channel.sent /\ Merges channel.emitted part) /\
  (channel.spoiled = false -> channel.reader = .ended -> Merges channel.emitted channel.sent) /\
  (channel.closed -> ∃ turns, ∀ more ≥ turns,
    let later := run maxEvents (actions ++ replicate more .turn)
    later.reader = .ended /\ later.spoiled = channel.spoiled /\ later.sent = channel.sent) /\
  (∀ place, channel.reader = .holding place -> ∀ more, (run maxEvents (actions ++ more)).heap[place]? = channel.heap[place]?) := by
  intro channel
  have kept : Kept channel := kept_run maxEvents actions
  have onward (more : List (ChannelAction Payload)) : run maxEvents (actions ++ more) = more.foldl (next maxEvents) channel :=
    foldl_append
  refine ⟨?_, fun clean ended => ?_, fun closed => ⟨channel.ahead, fun more enough => ?_⟩, fun place holds more => ?_⟩
  · rcases kept.merged with ⟨part, isPart, merges, _⟩
    rcases merges.part with ⟨fewer, isFewer, isMerged⟩
    exact ⟨fewer, isFewer.trans isPart, isMerged⟩
  · rcases kept.merged with ⟨part, _, merges, whole⟩
    have none := (kept.detached (kept.ends ended)).1
    have listed : channel.held ++ channel.items = [] := by simp [held, ended, none]
    rw [listed, whole clean] at merges
    exact append_nil channel.emitted ▸ merges
  · rw [onward]
    exact turns_end closed more enough
  · rw [onward]
    have isHeld : channel.held = [place] := by simp [held, holds]
    have inside := kept.inside place (isHeld ▸ .head _)
    have out : place ∉ channel.items := by
      have distinct := kept.distinct
      rw [isHeld] at distinct
      exact (nodup_cons.mp distinct).1
    clear_value channel
    clear onward isHeld holds kept
    induction more generalizing channel with
    | nil => rfl
    | cons action rest ih =>
      rcases next_heap inside out action with ⟨same, still, outside⟩
      exact (ih _ still outside).trans same

end Channel
end BananaChat.Chats

import BananaChat.Foundation.Numbered

namespace BananaChat.Runner

open Foundation List Function Numbered

/-!
# Connections that the runner takes

One thread accepts connections, and each that is taken ends on a thread of its own.
-/

/-- `taken` has no slot yet, `leaving` has one no more; both are counted. -/
inductive ConnectionPhase
  | refused
  | taken
  | serving
  | leaving
  | gone
deriving DecidableEq

structure Connection (Peer : Type) where
  peer : Peer
  phase : ConnectionPhase

/-- `trusted` is `is_trusted`. -/
structure ServerSettings (Peer : Type) where
  maxConnections : ℕ
  maxPerPeer : ℕ
  trusted : Peer -> Bool

structure RunnerServer (Peer : Type) where
  slots : ℕ
  peers : Peer -> ℕ
  untrusted : ℕ
  connections : List (Connection Peer)

inductive ServerAction (Peer : Type)
  /-- `admit`. -/
  | accept (peer : Peer)
  | acquire (number : ℕ)
  /-- `slots.release`: the thread did not start, or has ended. -/
  | release (number : ℕ)
  | leave (number : ℕ)

namespace ServerSettings

variable {Peer : Type} [DecidableEq Peer] (settings : ServerSettings Peer)

def places : ℕ := max 1 settings.maxConnections

def perPeer : ℕ := max 1 settings.maxPerPeer

def untrustedLimit : ℕ := max 1 (settings.places - max 1 (settings.places / 4))

def start : RunnerServer Peer := ⟨settings.places, fun _ => 0, 0, []⟩

def next (server : RunnerServer Peer) : ServerAction Peer -> RunnerServer Peer
  | .accept peer =>
    if settings.trusted peer then
      { server with connections := server.connections ++ [⟨peer, .taken⟩] }
    else if settings.perPeer <= server.peers peer \/ settings.untrustedLimit <= server.untrusted then
      { server with connections := server.connections ++ [⟨peer, .refused⟩] }
    else
      ⟨server.slots, Function.update server.peers peer (server.peers peer + 1), server.untrusted + 1,
        server.connections ++ [⟨peer, .taken⟩]⟩
  | .acquire number =>
    match server.connections[number]? with
    | some ⟨peer, .taken⟩ =>
      if 0 < server.slots then
        { server with slots := server.slots - 1, connections := server.connections.set number ⟨peer, .serving⟩ }
      else
        { server with connections := server.connections.set number ⟨peer, .leaving⟩ }
    | _ => server
  | .release number =>
    match server.connections[number]? with
    | some ⟨peer, .serving⟩ =>
      { server with slots := server.slots + 1, connections := server.connections.set number ⟨peer, .leaving⟩ }
    | _ => server
  | .leave number =>
    match server.connections[number]? with
    | some ⟨peer, .leaving⟩ =>
      if settings.trusted peer then
        { server with connections := server.connections.set number ⟨peer, .gone⟩ }
      else
        ⟨server.slots, Function.update server.peers peer (server.peers peer - 1), server.untrusted - 1,
          server.connections.set number ⟨peer, .gone⟩⟩
    | _ => server

def run (actions : List (ServerAction Peer)) : RunnerServer Peer := actions.foldl settings.next settings.start

def serves (connection : Connection Peer) : Bool := connection.phase = .serving

def counts (connection : Connection Peer) : Bool :=
  !settings.trusted connection.peer && (connection.phase = .taken || connection.phase = .serving || connection.phase = .leaving)

def countsFor (peer : Peer) (connection : Connection Peer) : Bool := settings.counts connection && connection.peer = peer

def held (_ : ServerSettings Peer) (server : RunnerServer Peer) (kind : Peer -> Bool) : ℕ :=
  server.connections.countP fun connection => kind connection.peer && serves connection

structure Kept (server : RunnerServer Peer) : Prop where
  slots : server.slots + server.connections.countP serves = settings.places
  untrusted : server.untrusted = server.connections.countP settings.counts
  peers : ∀ peer, server.peers peer = server.connections.countP (settings.countsFor peer)
  room : server.untrusted <= settings.untrustedLimit
  share : ∀ peer, server.peers peer <= settings.perPeer

variable {settings} {server : RunnerServer Peer}

theorem Kept.moves (kept : settings.Kept server) {number : ℕ} {connection : Connection Peer} {after : RunnerServer Peer}
  (phase : ConnectionPhase) (found : server.connections[number]? = some connection)
  (counted : settings.counts ⟨connection.peer, phase⟩ = settings.counts connection)
  (slots : after.slots + (serves ⟨connection.peer, phase⟩).toNat = server.slots + (serves connection).toNat)
  (same : after.connections = server.connections.set number ⟨connection.peer, phase⟩)
  (counters : (after.peers, after.untrusted) = (server.peers, server.untrusted)) : settings.Kept after := by
  have served := countP_set found ⟨connection.peer, phase⟩ serves
  have total := countP_set found ⟨connection.peer, phase⟩ settings.counts
  have own (peer : Peer) := countP_set found ⟨connection.peer, phase⟩ (settings.countsFor peer)
  simp only [countsFor, counted] at own
  rcases Prod.mk.inj counters with ⟨samePeers, sameUntrusted⟩
  have before := kept.slots
  refine ⟨?_, ?_, fun peer => ?_, ?_, ?_⟩
  · rw [same]
    omega
  · rw [same, sameUntrusted, kept.untrusted]
    rw [counted] at total
    omega
  · rw [same, samePeers, kept.peers]
    exact (Nat.add_right_cancel (own peer)).symm
  · rw [sameUntrusted]
    exact kept.room
  · rw [samePeers]
    exact kept.share

theorem Kept.next (kept : settings.Kept server) (action : ServerAction Peer) : settings.Kept (settings.next server action) := by
  have slots := kept.slots
  have untrusted := kept.untrusted
  have room := kept.room
  cases action with
  | accept peer =>
    simp only [ServerSettings.next]
    split
    · rename_i isTrusted
      refine ⟨?_, ?_, fun other => ?_, room, kept.share⟩
      · simpa [serves] using slots
      · simpa [counts, isTrusted] using untrusted
      · simpa [countsFor, counts, isTrusted] using kept.peers other
    · split
      · refine ⟨?_, ?_, fun other => ?_, room, kept.share⟩
        · simpa [serves] using slots
        · simpa [counts] using untrusted
        · simpa [countsFor, counts] using kept.peers other
      · rename_i foreign free
        rw [not_or, not_le, not_le] at free
        refine ⟨?_, ?_, fun other => ?_, free.2, fun other => ?_⟩
        · simpa [serves] using slots
        · simpa [counts, foreign] using untrusted
        · have own := kept.peers other
          by_cases same : other = peer
          · cases same
            simpa [countsFor, counts, foreign] using own
          · simpa [countsFor, counts, foreign, same, Ne.symm same] using own
        · by_cases same : other = peer
          · cases same
            simpa using free.1
          · simpa [same] using kept.share other
  | acquire number =>
    simp only [ServerSettings.next]
    split
    · rename_i peer found
      split
      · rename_i free
        exact kept.moves .serving found rfl (Nat.sub_add_cancel free) rfl rfl
      · exact kept.moves .leaving found rfl rfl rfl rfl
    · exact kept
  | release number =>
    simp only [ServerSettings.next]
    split
    · rename_i peer found
      exact kept.moves .leaving found rfl rfl rfl rfl
    · exact kept
  | leave number =>
    simp only [ServerSettings.next]
    split
    · rename_i peer found
      split
      · rename_i isTrusted
        exact kept.moves .gone found (by simp [counts, isTrusted]) rfl rfl rfl
      · rename_i foreign
        have served := countP_set found ⟨peer, .gone⟩ serves
        have counted := countP_set found ⟨peer, .gone⟩ settings.counts
        have own (other : Peer) := countP_set found ⟨peer, .gone⟩ (settings.countsFor other)
        have isCounted : settings.counts ⟨peer, .leaving⟩ := by simp [counts, foreign]
        have uncounted : settings.counts ⟨peer, .gone⟩ = false := by simp [counts]
        simp only [countsFor, isCounted, uncounted, Bool.false_and, Bool.true_and, Bool.toNat_false, Bool.toNat_true, Nat.add_zero]
          at own counted
        refine ⟨(congrArg (server.slots + ·) served).trans slots, ?_, fun other => ?_, (Nat.sub_le _ _).trans room, fun other => ?_⟩
        · exact Nat.sub_eq_of_eq_add (untrusted.trans counted.symm)
        · have change := own other
          by_cases same : other = peer
          · cases same
            simp only [update_self, kept.peers]
            simp only [decide_true, Bool.toNat_true] at change
            exact Nat.sub_eq_of_eq_add change.symm
          · simp only [update_of_ne same, kept.peers]
            rw [decide_eq_false (Ne.symm same)] at change
            exact change.symm
        · change Function.update server.peers peer (server.peers peer - 1) other <= settings.perPeer
          by_cases same : other = peer
          · rw [same, update_self]
            exact (Nat.sub_le _ _).trans (kept.share peer)
          · rw [update_of_ne same]
            exact kept.share other
    · exact kept

theorem kept_run (settings : ServerSettings Peer) (actions : List (ServerAction Peer)) : settings.Kept (settings.run actions) := by
  have start : settings.Kept settings.start := ⟨rfl, rfl, fun _ => rfl, Nat.zero_le _, fun _ => Nat.zero_le _⟩
  unfold run
  generalize settings.start = server at start
  induction actions generalizing server with
  | nil => exact start
  | cons action rest ih => exact ih _ (start.next action)

theorem connections_limited (settings : ServerSettings Peer) (actions : List (ServerAction Peer)) :
  settings.held (settings.run actions) (!settings.trusted ·) <= settings.untrustedLimit /\
  (2 <= settings.maxConnections ->
    settings.held (settings.run actions) (!settings.trusted ·) + max 1 (settings.places / 4) <= settings.places) /\
  (∀ peer, settings.trusted peer = false -> settings.held (settings.run actions) (· = peer) <= settings.perPeer) /\
  settings.held (settings.run actions) (fun _ => true) <= settings.places /\
  ((∀ connection ∈ (settings.run actions).connections, connection.phase = .refused \/ connection.phase = .gone) ->
    (settings.run actions).slots = settings.places /\ (settings.run actions).untrusted = 0 /\
      ∀ peer, (settings.run actions).peers peer = 0) := by
  have kept := kept_run settings actions
  generalize settings.run actions = server at kept
  have within : settings.held server (!settings.trusted ·) <= settings.untrustedLimit := by
    refine le_trans (countP_mono_left ?_) (kept.untrusted ▸ kept.room)
    intro connection _
    simp only [serves, counts, Bool.and_eq_true, Bool.or_eq_true]
    exact fun holds => ⟨holds.1, .inl (.inr holds.2)⟩
  refine ⟨within, fun several => ?_, fun peer foreign => ?_, ?_, fun ended => ?_⟩
  · unfold untrustedLimit places at within
    unfold places
    omega
  · refine le_trans (countP_mono_left ?_) (kept.peers peer ▸ kept.share peer)
    intro connection _
    simp only [serves, countsFor, counts, Bool.and_eq_true, Bool.or_eq_true, decide_eq_true_eq]
    rintro ⟨rfl, holds⟩
    exact ⟨⟨by rw [foreign]; rfl, .inl (.inr holds)⟩, rfl⟩
  · have all : settings.held server (fun _ => true) = server.connections.countP serves := rfl
    rw [all, <- kept.slots]
    exact Nat.le_add_left _ _
  · have unserved : server.connections.countP serves = 0 := by
      rw [countP_eq_zero]
      intro connection mem
      rcases ended connection mem with isEnded | isEnded <;> simp [serves, isEnded]
    have uncounted (connection : Connection Peer) (mem : connection ∈ server.connections) : settings.counts connection = false := by
      rcases ended connection mem with isEnded | isEnded <;> simp [counts, isEnded]
    refine ⟨by rw [<- kept.slots, unserved]; rfl, ?_, fun peer => ?_⟩
    · rw [kept.untrusted, countP_eq_zero]
      exact fun connection mem => by simp [uncounted connection mem]
    · rw [kept.peers, countP_eq_zero]
      exact fun connection mem => by simp [countsFor, uncounted connection mem]

/-- With one place an untrusted connection takes it, and a trusted address has more than `max_per_peer`. -/
theorem connections_reserve_nothing : let settings : ServerSettings ℕ := ⟨1, 4, fun _ => false⟩
  let trusting : ServerSettings ℕ := ⟨2, 1, fun _ => true⟩
  settings.held (settings.run [.accept 7, .acquire 0]) (!settings.trusted ·) = settings.places /\
    trusting.perPeer < trusting.held (trusting.run [.accept 7, .acquire 0, .accept 7, .acquire 1]) (· = 7) := by
  decide

end ServerSettings
end BananaChat.Runner

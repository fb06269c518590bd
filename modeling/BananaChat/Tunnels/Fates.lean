import BananaChat.Tunnels.Pairing

namespace BananaChat.Tunnels

open Foundation List Option Numbered

/-!
# What becomes of every connection

Each step keeps what `Kept` says, so every run does.
-/

variable {Session : Type} [DecidableEq Session]

variable {action : Action Session}

theorem Kept.step {history more : List (Report Session)} {broker after : Broker Session} (kept : Kept history broker)
  (performed : broker.perform action = some (after, more)) : Kept (history ++ more) after := by
  cases action with
  | accept =>
    rcases map_eq_some_iff.mp performed with ⟨_, happened, same⟩
    cases same
    exact kept.accept happened
  | hello name joined =>
    rcases bind_eq_some_iff.mp performed with ⟨current, found, happened⟩
    exact kept.hello found happened
  | join name =>
    rcases bind_eq_some_iff.mp performed with ⟨current, found, happened⟩
    exact kept.join found happened
  | announce name =>
    rcases map_eq_some_iff.mp performed with ⟨_, step, same⟩
    rcases bind_eq_some_iff.mp step with ⟨current, found, happened⟩
    cases same
    exact kept.announce found happened
  | wake name =>
    rcases map_eq_some_iff.mp performed with ⟨_, step, same⟩
    rcases bind_eq_some_iff.mp step with ⟨current, found, happened⟩
    cases same
    exact kept.wake found happened
  | expire name =>
    rcases map_eq_some_iff.mp performed with ⟨_, step, same⟩
    rcases bind_eq_some_iff.mp step with ⟨current, found, happened⟩
    cases same
    exact kept.expire found happened
  | settle name =>
    rcases bind_eq_some_iff.mp performed with ⟨current, found, happened⟩
    exact kept.settle found happened
  | finish name =>
    rcases map_eq_some_iff.mp performed with ⟨_, step, same⟩
    rcases bind_eq_some_iff.mp step with ⟨_, found, happened⟩
    cases same
    exact kept.finish found happened

variable {broker : Broker Session} {history : List (Report Session)}

theorem kept_trace (trace : (machine Session).Trace reports history broker) : Kept history broker := by
  refine Machine.Trace.induct (fun started initial => ?_) (fun past current action kept enabled => ?_) trace
  · cases initial
    exact Kept.start
  · rcases isSome_iff_exists.mp enabled with ⟨⟨after, more⟩, performed⟩
    have next : (machine Session).next current action = after := by
      simp [machine, performed]
    have told : reports current action = more := by
      simp [reports, performed]
    rw [next, told]
    exact kept.step performed

def Thread.rank : Thread Session -> ℕ
  | .greeting => 4
  | .arrived _ _ => 3
  | .waiting _ _ => 2
  | .expired _ _ => 1
  | .serving _ _ _ false => 2
  | .serving _ _ _ true => 1
  | .ended _ => 0

def Broker.remaining (broker : Broker Session) : ℕ := (broker.connections.map (·.thread.rank)).sum

variable {name : ℕ} {current : Connection Session}

omit [DecidableEq Session] in
theorem remaining_set
  (found : broker.connections[name]? = some current) {after : Connection Session} {moved : Broker Session}
  (is : moved.connections = broker.connections.set name after) (lower : after.thread.rank < current.thread.rank) :
  moved.remaining < broker.remaining := by
  have sum := sum_set found after (·.thread.rank)
  unfold Broker.remaining
  rw [is]
  omega

theorem Kept.lowers {more : List (Report Session)} {after : Broker Session} (kept : Kept history broker)
  (performed : broker.perform action = some (after, more)) (old : action ≠ .accept) :
  after.remaining < broker.remaining := by
  cases action with
  | accept => exact absurd rfl old
  | hello name joined =>
    rcases bind_eq_some_iff.mp performed with ⟨current, found, happened⟩
    unfold Broker.hello at happened
    split at happened
    · rename_i greeting
      cases happened
      exact remaining_set found rfl (by rw [greeting]; exact Nat.succ_pos 3)
    · rename_i greeting
      cases happened
      exact remaining_set found rfl (by rw [greeting]; exact Nat.lt_succ_self 3)
    · cases happened
  | join name =>
    rcases bind_eq_some_iff.mp performed with ⟨current, found, happened⟩
    unfold Broker.join at happened
    split at happened
    swap
    · cases happened
    rename_i arrived
    dsimp only at happened
    split at happened
    · cases happened
      exact remaining_set found rfl (by rw [arrived]; exact Nat.succ_pos 2)
    split at happened
    · cases happened
      exact remaining_set found rfl (by rw [arrived]; exact Nat.lt_succ_self 2)
    · cases happened
      exact remaining_set found rfl (by rw [arrived]; exact Nat.lt_succ_self 2)
  | announce name =>
    rcases map_eq_some_iff.mp performed with ⟨_, step, same⟩
    rcases bind_eq_some_iff.mp step with ⟨current, found, happened⟩
    cases same
    unfold Broker.announce at happened
    split at happened
    swap
    · cases happened
    rename_i role session peer serving
    rcases map_eq_some_iff.mp happened with ⟨partner, partnerFound, same⟩
    subst same
    have fits := kept.fits name current found
    unfold Fits at fits
    rw [serving] at fits
    have apart := (kept.law role session name peer fits.2.2).2.2
    have there : (broker.connections.set name ⟨.serving role session peer true, current.ready⟩)[peer]? = some partner := by
      rw [get_set found, if_neg (apart ·.symm)]
      exact partnerFound
    have first := sum_set found ⟨.serving role session peer true, current.ready⟩
      (·.thread.rank)
    have second := sum_set there { partner with ready := true } (·.thread.rank)
    have before : current.thread.rank = 2 := by
      rw [serving]
      rfl
    have now : (Thread.serving role session peer true).rank = 1 := rfl
    unfold Broker.remaining
    dsimp only at first second ⊢
    omega
  | wake name =>
    rcases map_eq_some_iff.mp performed with ⟨_, step, same⟩
    rcases bind_eq_some_iff.mp step with ⟨current, found, happened⟩
    cases same
    unfold Broker.wake at happened
    split at happened
    swap
    · cases happened
    rename_i waiting
    split at happened
    · cases happened
      exact remaining_set found rfl (by rw [waiting]; exact Nat.succ_pos 1)
    · cases happened
  | expire name =>
    rcases map_eq_some_iff.mp performed with ⟨expired, step, same⟩
    rcases bind_eq_some_iff.mp step with ⟨current, found, happened⟩
    cases same
    unfold Broker.expire at happened
    split at happened
    swap
    · cases happened
    rename_i waiting
    split at happened
    · cases happened
    · cases happened
      exact remaining_set found rfl (by rw [waiting]; exact Nat.lt_succ_self 1)
  | settle name =>
    rcases bind_eq_some_iff.mp performed with ⟨current, found, happened⟩
    unfold Broker.settle at happened
    split at happened
    swap
    · cases happened
    rename_i expired
    split at happened
    · split at happened
      · cases happened
        exact remaining_set found rfl (by rw [expired]; exact Nat.one_pos)
      · cases happened
        exact remaining_set found rfl (by rw [expired]; exact Nat.one_pos)
    · cases happened
      exact remaining_set found rfl (by rw [expired]; exact Nat.one_pos)
  | finish name =>
    rcases map_eq_some_iff.mp performed with ⟨_, step, same⟩
    rcases bind_eq_some_iff.mp step with ⟨_, found, happened⟩
    cases same
    unfold Broker.finish at happened
    split at happened
    swap
    · cases happened
    rename_i serving
    cases happened
    exact remaining_set found rfl (by rw [serving]; exact Nat.one_pos)

def Action.thread : Action Session -> Option ℕ
  | .accept => none
  | .hello name _ | .join name | .announce name | .wake name | .expire name | .settle name | .finish name => some name

theorem Kept.goesOn (kept : Kept history broker)
  (found : broker.connections[name]? = some current) (unfinished : ∀ exit, current.thread ≠ .ended exit) :
  ∃ action, Action.thread action = some name /\ (broker.perform action).isSome := by
  cases place : current.thread with
  | greeting =>
    refine ⟨.hello name none, rfl, ?_⟩
    simp [Broker.perform, found, Broker.hello, place]
  | arrived role session =>
    refine ⟨.join name, rfl, ?_⟩
    simp only [Broker.perform, found, bind_some, Broker.join, place]
    split
    · rfl
    · split <;> rfl
  | waiting role session =>
    cases ready : current.ready with
    | true =>
      refine ⟨.wake name, rfl, ?_⟩
      simp [Broker.perform, found, Broker.wake, place, ready]
    | false =>
      refine ⟨.expire name, rfl, ?_⟩
      simp only [Broker.perform, found, bind_some, Broker.expire, place, ready, Bool.false_eq_true, if_false,
        map_some, isSome_some]
  | expired role session =>
    refine ⟨.settle name, rfl, ?_⟩
    simp only [Broker.perform, found, bind_some, Broker.settle, place]
    split
    · split <;> rfl
    · rfl
  | serving role session peer announced =>
    cases announced with
    | true =>
      refine ⟨.finish name, rfl, ?_⟩
      simp [Broker.perform, found, Broker.finish, place]
    | false =>
      have fits := kept.fits name current found
      unfold Fits at fits
      rw [place] at fits
      have proved := (kept.law role session name peer fits.2.2).2.1
      have inside : peer < broker.connections.length := by
        by_contra beyond
        exact (kept.fresh peer (Nat.le_of_not_lt beyond)).2 _ _ proved
      refine ⟨.announce name, rfl, ?_⟩
      simp only [Broker.perform, found, bind_some, Broker.announce, place,
        getElem?_eq_getElem inside, map_some, isSome_some]
  | ended exit => exact absurd place (unfinished exit)

omit [DecidableEq Session] in
theorem Kept.decided (kept : Kept history broker)
  {role : Role} {session : Session} (proved : .authenticated name role session ∈ history) :
  fates name history <= 1 /\ ∃ connection, broker.connections[name]? = some connection /\
    ((∃ exit, connection.thread = .ended exit) -> fates name history = 1) := by
  have inside : name < broker.connections.length := by
    by_contra beyond
    exact (kept.fresh name (Nat.le_of_not_lt beyond)).2 _ _ proved
  have found := getElem?_eq_getElem inside
  have fits := kept.fits name _ found
  generalize broker.connections[name] = connection at found fits
  unfold Fits at fits
  refine ⟨?_, connection, found, fun ends => ?_⟩
  · split at fits
    · exact absurd proved (fits.2.2 role session)
    · rw [fits.2.1]
      exact Nat.zero_le 1
    · rcases fits.2 with waits | once
      · rcases kept.entries _ _ name waits with ⟨_, _, _, undecided, _⟩
        rw [undecided]
        exact Nat.zero_le 1
      · exact Nat.le_of_eq once
    · rcases fits.2 with waits | once
      · rcases kept.entries _ _ name waits with ⟨_, _, _, undecided, _⟩
        rw [undecided]
        exact Nat.zero_le 1
      · exact Nat.le_of_eq once
    · exact Nat.le_of_eq fits.2.1
    · exact absurd proved (fits.2 role session)
    · exact Nat.le_of_eq fits
  · rcases ends with ⟨exit, place⟩
    rw [place] at fits
    cases exit with
    | unauthenticated => exact absurd proved (fits.2 role session)
    | refused | timedOut | left | served => exact fits

/-- The pairing of the broker, in every order of its threads. -/
theorem pairing_kept {history : List (Report Session)} {broker : Broker Session}
  (trace : (machine Session).Trace reports history broker) :
  (∀ name role session, .authenticated name role session ∈ history ->
    fates name history <= 1 /\ ∃ connection, broker.connections[name]? = some connection /\
      ((∃ exit, connection.thread = .ended exit) -> fates name history = 1)) /\
  (∀ role session name peer, .paired role session name peer ∈ history ->
    .authenticated name role session ∈ history /\ .authenticated peer role.other session ∈ history /\ name ≠ peer) /\
  (broker.pairs <= maxPairs /\ broker.pairs = broker.connections.countP Connection.isServing /\
    ((∀ connection ∈ broker.connections, ∃ exit, connection.thread = .ended exit) ->
      broker.pairs = 0)) /\
  (∀ session slot, broker.waiting session = some slot -> ∃ role name, slot role = some name) /\
  (∀ session role name, broker.entry session role = some name -> fates name history = 0 /\
    ∃ connection, broker.connections[name]? = some connection /\
      (connection.thread = .waiting role session \/ connection.thread = .expired role session)) /\
  (∀ name connection, broker.connections[name]? = some connection ->
    (∀ exit, connection.thread ≠ .ended exit) ->
      ∃ action, Action.thread action = some name /\ (broker.perform action).isSome) /\
  (∀ action after more, action ≠ .accept -> broker.perform action = some (after, more) ->
    after.remaining < broker.remaining) := by
  have kept := kept_trace trace
  refine ⟨fun name role session proved => kept.decided proved, kept.law, ⟨kept.limit, kept.live, fun ended => ?_⟩, ?_, ?_, ?_, ?_⟩
  · rw [kept.live]
    refine countP_eq_zero.mpr fun connection mem serves => ?_
    rcases ended connection mem with ⟨exit, place⟩
    rw [Connection.isServing, place] at serves
    cases serves
  · intro session slot stands
    rcases kept.slots session slot stands with ⟨role, name, waits, _⟩
    exact ⟨role, name, waits⟩
  · intro session role name waits
    rcases kept.entries session role name waits with ⟨connection, found, _, undecided, place⟩
    exact ⟨undecided, connection, found, place⟩
  · exact fun name connection found unfinished => kept.goesOn found unfinished
  · exact fun action after more old performed => kept.lowers performed old

/-- A worker waits and its time runs out just as the client arrives: the client is paired with it,
the worker's thread finds itself gone from the table, and the session ends. -/
def lastMoment : List (Action Unit) :=
  [.accept, .accept, .hello 0 (some (.worker, ())), .hello 1 (some (.client, ())), .join 0, .expire 0, .join 1, .settle 0,
    .announce 1, .finish 1]

instance decidableEnabled (broker : Broker Session) (action : Action Session) :
  Decidable ((machine Session).enabled broker action) :=
  inferInstanceAs (Decidable ((broker.perform action).isSome))

theorem pairing_kept_lastMoment : ∃ history broker, (machine Unit).Trace reports history broker /\
    fates 0 history = 1 /\ fates 1 history = 1 /\ broker.pairs = 0 /\
    broker.connections.map Connection.thread = [.ended .left, .ended .served] := by
  have admitted : (machine Unit).Admits Broker.start lastMoment := by decide +kernel
  have start : (machine Unit).Trace reports [] Broker.start := .start rfl
  have trace := start.run lastMoment admitted
  have connections : ((machine Unit).run Broker.start lastMoment).connections =
      [⟨.ended .left, true⟩, ⟨.ended .served, false⟩] := by decide +kernel
  have none := (pairing_kept trace).2.2.1.2.2 fun connection mem => by
    rcases mem_pair.mp mem with worker | client
    · exact ⟨.left, by rw [worker]⟩
    · exact ⟨.served, by rw [client]⟩
  exact ⟨_, _, trace, by decide +kernel, by decide +kernel, none, by rw [connections]; rfl⟩

end BananaChat.Tunnels

import BananaChat.Tunnels.Broker

namespace BananaChat.Tunnels

open Foundation List Option Function Numbered Broker Connection Report Role Slot

/-!
# Every connection is paired once, refused, or timed out

The fate of a connection is reported once.
-/

variable {Session : Type}

def Report.decides (connection : ℕ) : Report Session -> Bool
  | .authenticated _ _ _ => false
  | .refused other => other = connection
  | .timedOut other => other = connection
  | .paired _ _ arrived waited => (arrived = connection) || (waited = connection)

def fates (connection : ℕ) (past : List (Report Session)) : ℕ := past.countP (Report.decides connection)

theorem fates_append (connection : ℕ) (past more : List (Report Session)) :
    fates connection (past ++ more) = fates connection past + fates connection more := countP_append

theorem fates_singleton (connection : ℕ) (report : Report Session) :
  fates connection [report] = (report.decides connection).toNat := by
  rw [fates, countP_singleton]
  cases report.decides connection <;> rfl

def Thread.isServing : Thread Session -> Bool
  | .serving _ _ _ _ => true
  | _ => false

def Connection.isServing (connection : Connection Session) : Bool := connection.thread.isServing

def Unproved (past : List (Report Session)) (connection : ℕ) : Prop :=
  ∀ role session, Report.authenticated connection role session ∉ past

def Fits (past : List (Report Session)) (entry : Session -> Role -> Option ℕ) (name : ℕ)
  (connection : Connection Session) : Prop :=
  match connection.thread with
  | .greeting => connection.ready = false /\ fates name past = 0 /\ Unproved past name
  | .arrived role session =>
    connection.ready = false /\ fates name past = 0 /\ .authenticated name role session ∈ past
  | .waiting role session | .expired role session =>
    .authenticated name role session ∈ past /\ (entry session role = some name \/ fates name past = 1)
  | .serving role session peer _ =>
    .authenticated name role session ∈ past /\ fates name past = 1 /\ .paired role session name peer ∈ past
  | .ended .unauthenticated => fates name past = 0 /\ Unproved past name
  | .ended _ => fates name past = 1

structure Kept (past : List (Report Session)) (broker : Broker Session) : Prop where
  limit : broker.pairs <= maxPairs
  live : broker.pairs = broker.connections.countP Connection.isServing
  slots : ∀ session slot, broker.waiting session = some slot ->
    ∃ role name, slot role = some name /\ slot role.other = none
  entries : ∀ session role name, broker.entry session role = some name ->
    ∃ connection, broker.connections[name]? = some connection /\ connection.ready = false /\
      fates name past = 0 /\ (connection.thread = .waiting role session \/ connection.thread = .expired role session)
  fits : ∀ name connection, broker.connections[name]? = some connection -> Fits past broker.entry name connection
  fresh : ∀ name, broker.connections.length <= name -> fates name past = 0 /\ Unproved past name
  law : ∀ role session name peer, .paired role session name peer ∈ past ->
    .authenticated name role session ∈ past /\ .authenticated peer role.other session ∈ past /\ name ≠ peer

variable {past more : List (Report Session)} {name : ℕ} {broker after : Broker Session} {current : Connection Session}
  {role : Role} {session : Session} {slot : Slot}

theorem Unproved.append (unproved : Unproved past name) (silent : Unproved more name) :
  Unproved (past ++ more) name := by
  intro role session mem
  rcases mem_append.mp mem with before | after
  · exact unproved role session before
  · exact silent role session after

theorem Unproved.nil (name : ℕ) : Unproved ([] : List (Report Session)) name := fun _ _ => not_mem_nil

theorem Fits.frame {entry entry' : Session -> Role -> Option ℕ} {connection : Connection Session}
  (fits : Fits past entry name connection) (undecided : fates name more = 0) (silent : Unproved more name)
  (kept : ∀ session role, entry session role = some name -> entry' session role = some name) :
  Fits (past ++ more) entry' name connection := by
  have same : fates name (past ++ more) = fates name past := by
    rw [fates_append, undecided, Nat.add_zero]
  unfold Fits at fits ⊢
  rw [same]
  split at fits
  · exact ⟨fits.1, fits.2.1, fits.2.2.append silent⟩
  · exact ⟨fits.1, fits.2.1, mem_append_left _ fits.2.2⟩
  · exact ⟨mem_append_left _ fits.1, fits.2.imp (kept _ _) id⟩
  · exact ⟨mem_append_left _ fits.1, fits.2.imp (kept _ _) id⟩
  · exact ⟨mem_append_left _ fits.1, fits.2.1, mem_append_left _ fits.2.2⟩
  · exact ⟨fits.1, fits.2.append silent⟩
  · exact fits

theorem Kept.start : Kept ([] : List (Report Session)) start := by
  refine ⟨Nat.zero_le _, rfl, ?_, ?_, ?_, fun name _ => ⟨rfl, Unproved.nil name⟩, ?_⟩
  · exact fun session slot clash => nomatch clash
  · exact fun session role name clash => nomatch clash
  · exact fun name connection clash => nomatch clash
  · exact fun role session name peer clash => nomatch clash

section

variable (kept : Kept past broker) (found : broker.connections[name]? = some current)
include kept found

theorem Kept.moves
  {after : Connection Session} {waiting : Session -> Option Slot} {pairs greetings : ℕ} {moved : Broker Session}
  (is : moved = ⟨broker.connections.set name after, waiting, pairs, greetings⟩) (limit : pairs <= maxPairs)
  (live : pairs + current.isServing.toNat = broker.pairs + after.isServing.toNat)
  (fits : Fits (past ++ more) moved.entry name after)
  (others : ∀ other connection, other ≠ name -> broker.connections[other]? = some connection ->
    Fits (past ++ more) moved.entry other connection) (slots : ∀ session slot, waiting session = some slot ->
    ∃ role other, slot role = some other /\ slot role.other = none)
  (entries : ∀ session role other, moved.entry session role = some other ->
    (other = name /\ after.ready = false /\ fates name (past ++ more) = 0 /\
        (after.thread = .waiting role session \/ after.thread = .expired role session)) \/
      (other ≠ name /\ broker.entry session role = some other /\ fates other more = 0))
  (fresh : ∀ other, broker.connections.length <= other -> fates other more = 0 /\ Unproved more other)
  (law : ∀ role session first peer, .paired role session first peer ∈ more ->
    .authenticated first role session ∈ past /\ .authenticated peer role.other session ∈ past /\ first ≠ peer) :
  Kept (past ++ more) moved := by
  subst is
  refine ⟨limit, ?_, slots, ?_, ?_, ?_, ?_⟩
  · have counted := countP_set found after isServing
    have before := kept.live
    dsimp only
    omega
  · intro session role other waits
    rw [get_set found]
    rcases entries session role other waits with ⟨same, unready, undecided, place⟩ | ⟨apart, before, silent⟩
    · rw [if_pos same, same]
      exact ⟨after, rfl, unready, undecided, place⟩
    · rcases kept.entries session role other before with ⟨connection, stands, unready, undecided, place⟩
      rw [if_neg apart, fates_append, undecided, silent]
      exact ⟨connection, stands, unready, rfl, place⟩
  · intro other connection stands
    rw [get_set found] at stands
    by_cases same : other = name
    · subst same
      rw [if_pos rfl] at stands
      cases stands
      exact fits
    · rw [if_neg same] at stands
      exact others other connection same stands
  · intro other beyond
    rw [length_set] at beyond
    rcases kept.fresh other beyond with ⟨undecided, unproved⟩
    rw [fates_append, undecided, (fresh other beyond).1]
    exact ⟨rfl, unproved.append (fresh other beyond).2⟩
  · intro role session first peer mem
    rcases mem_append.mp mem with before | after
    · rcases kept.law role session first peer before with ⟨proved, peerProved, apart⟩
      exact ⟨mem_append_left _ proved, mem_append_left _ peerProved, apart⟩
    · rcases law role session first peer after with ⟨proved, peerProved, apart⟩
      exact ⟨mem_append_left _ proved, mem_append_left _ peerProved, apart⟩

theorem Kept.quietly {after : Connection Session} {pairs greetings : ℕ} (fits : Fits past broker.entry name after)
  (limit : pairs <= maxPairs) (live : pairs + current.isServing.toNat = broker.pairs + after.isServing.toNat)
  (stays : ∀ session role, broker.entry session role = some name ->
    after.ready = false /\ (after.thread = .waiting role session \/ after.thread = .expired role session)) :
  Kept (past ++ []) ⟨broker.connections.set name after, broker.waiting, pairs, greetings⟩ := by
  refine kept.moves found rfl limit live ?_ ?_ kept.slots ?_ ?_ ?_
  · rw [append_nil]
    exact fits
  · intro other connection _ stands
    exact (kept.fits other connection stands).frame rfl (Unproved.nil other) (fun _ _ same => same)
  · intro session role other waits
    by_cases same : other = name
    · subst same
      rcases kept.entries session role other waits with ⟨_, _, _, undecided, _⟩
      rw [append_nil]
      exact .inl ⟨rfl, (stays session role waits).1, undecided, (stays session role waits).2⟩
    · exact .inr ⟨same, waits, rfl⟩
  · exact fun other _ => ⟨rfl, Unproved.nil other⟩
  · exact nofun

theorem Kept.entry_thread (waits : broker.entry session role = some name) :
  current.thread = .waiting role session \/ current.thread = .expired role session := by
  rcases kept.entries session role name waits with ⟨_, stands, _, _, place⟩
  rw [found] at stands
  cases stands
  exact place

end

theorem Kept.accept (kept : Kept past broker) (accepted : broker.accept = some after) : Kept (past ++ []) after := by
  unfold Broker.accept at accepted
  split at accepted
  swap
  · cases accepted
  cases accepted
  rw [append_nil]
  refine ⟨kept.limit, ?_, kept.slots, ?_, ?_, ?_, kept.law⟩
  · rw [kept.live, countP_append]
    rfl
  · intro session role other waits
    rcases kept.entries session role other waits with ⟨connection, stands, rest⟩
    have inside := (List.getElem?_eq_some_iff.mp stands).1
    refine ⟨connection, ?_, rest⟩
    rw [get_append, if_neg (Nat.ne_of_lt inside)]
    exact stands
  · intro other connection stands
    rw [get_append] at stands
    split at stands
    · rename_i last
      cases stands
      exact ⟨rfl, kept.fresh other (Nat.le_of_eq last.symm)⟩
    · exact kept.fits other connection stands
  · intro other beyond
    rw [length_append] at beyond
    exact kept.fresh other (Nat.le_of_add_right_le beyond)

theorem Kept.hello (kept : Kept past broker) (found : broker.connections[name]? = some current)
  {joined : Option (Role × Session)} (happened : broker.hello name current joined = some (after, more)) :
  Kept (past ++ more) after := by
  have inside := (List.getElem?_eq_some_iff.mp found).1
  have fits := kept.fits name current found
  have absent : ∀ session role, broker.entry session role = some name -> current.thread ≠ .greeting := by
    intro session role waits greeting
    rcases kept.entry_thread found waits with place | place
    · rw [greeting] at place
      cases place
    · rw [greeting] at place
      cases place
  unfold Broker.hello at happened
  split at happened
  · rename_i greeting
    cases happened
    unfold Fits at fits
    rw [greeting] at fits
    refine kept.quietly found ?_ kept.limit ?_ ?_
    · exact ⟨fits.2.1, fits.2.2⟩
    · rw [isServing, greeting]
      rfl
    · exact fun session role waits => absurd greeting (absent session role waits)
  · rename_i role session greeting
    cases happened
    unfold Fits at fits
    rw [greeting] at fits
    have silent : ∀ other, other ≠ name -> Unproved [authenticated name role session] other := by
      intro other apart role' session' mem
      cases mem_singleton.mp mem
      exact apart rfl
    have undecided : ∀ other, fates other [authenticated name role session] = 0 := fun _ => rfl
    refine kept.moves found rfl kept.limit ?_ ?_ ?_ kept.slots ?_ ?_ ?_
    · rw [isServing, greeting]
      rfl
    · refine ⟨fits.1, ?_, mem_append_right _ (mem_singleton_self _)⟩
      rw [fates_append, fits.2.1, undecided]
    · intro other connection apart stands
      exact (kept.fits other connection stands).frame (undecided other) (silent other apart) (fun _ _ same => same)
    · intro session' role' other waits
      by_cases same : other = name
      · subst same
        exact absurd greeting (absent session' role' waits)
      · exact .inr ⟨same, waits, undecided other⟩
    · intro other beyond
      have apart : other ≠ name := Nat.ne_of_gt (Nat.lt_of_lt_of_le inside beyond)
      exact ⟨undecided other, silent other apart⟩
    · intro _ _ _ _ mem
      cases mem_singleton.mp mem
  · cases happened

theorem Kept.single (kept : Kept past broker) (session : Session)
  (waits : ((broker.waiting session).getD empty) role = some name) :
  ((broker.waiting session).getD empty) role.other = none := by
  cases stands : broker.waiting session with
  | none =>
    rw [stands] at waits
    cases waits
  | some slot =>
    rw [stands, getD_some] at waits
    rcases kept.slots session slot stands with ⟨held, _, _, free⟩
    cases held <;> cases role <;> simp only [other] at free ⊢ <;>
      first | exact free | (rw [free] at waits; cases waits)

theorem entry_eq (broker : Broker Session) (session : Session) (role : Role) :
  broker.entry session role = ((broker.waiting session).getD empty) role := by
  unfold entry
  cases broker.waiting session <;> rfl

section Table

variable [DecidableEq Session]

theorem entry_update (broker : Broker Session) (session : Session) (slot : Option Slot) (other : Session) (role : Role) :
  ({ broker with waiting := update broker.waiting session slot } : Broker Session).entry other role =
    if other = session then slot.bind (· role) else broker.entry other role := by
  unfold entry
  dsimp only
  by_cases same : other = session
  · subst same
    rw [update_self, if_pos rfl]
  · rw [update_of_ne same, if_neg same]

theorem Slot.isEmpty_iff (slot : Slot) : slot.isEmpty ↔ ∀ role, slot role = none := by
  unfold Slot.isEmpty
  rw [Bool.and_eq_true, isNone_iff_eq_none, isNone_iff_eq_none]
  constructor
  · intro both role
    cases role with
    | worker => exact both.1
    | client => exact both.2
  · exact fun none => ⟨none .worker, none .client⟩

theorem entry_dropEmpty (waiting : Session -> Option Slot) (session : Session) (slot : Slot) (other : Session) (role : Role) :
  (dropEmpty waiting session slot other).bind (· role) =
    if other = session then slot role else (waiting other).bind (· role) := by
  unfold dropEmpty
  by_cases same : other = session
  · subst same
    rw [if_pos rfl]
    split
    · rename_i empty
      rw [update_self, (isEmpty_iff slot).mp empty role]
      rfl
    · rw [update_self]
      rfl
  · split
    · rw [update_of_ne same]
    · rw [update_of_ne same]

theorem dropEmpty_slots {waiting : Session -> Option Slot} (others : ∀ other slot, waiting other = some slot ->
    ∃ role name, slot role = some name /\ slot role.other = none)
  (single : ∀ role name, slot role = some name -> slot role.other = none) :
  ∀ other found, dropEmpty waiting session slot other = some found ->
    ∃ role name, found role = some name /\ found role.other = none := by
  intro other found stands
  unfold dropEmpty at stands
  by_cases same : other = session
  · subst same
    split at stands
    · rw [update_self] at stands
      cases stands
    · rename_i occupied
      rw [update_self] at stands
      cases stands
      by_contra nobody
      refine occupied ((isEmpty_iff _).mpr fun role => ?_)
      cases waits : slot role with
      | none => rfl
      | some name => exact absurd ⟨role, name, waits, single role name waits⟩ nobody
  · split at stands
    · rw [update_of_ne same] at stands
      exact others other found stands
    · rw [update_of_ne same] at stands
      exact others other found stands

theorem Kept.refused (kept : Kept past broker) (found : broker.connections[name]? = some current)
  (arrived : current.thread = .arrived role session) :
  Kept (past ++ [.refused name]) { broker.goTo name current (.ended .refused) with
    waiting := dropEmpty broker.waiting session ((broker.waiting session).getD empty) } := by
  have inside := (List.getElem?_eq_some_iff.mp found).1
  have fits := kept.fits name current found
  unfold Fits at fits
  rw [arrived] at fits
  have absent : ∀ session role, broker.entry session role ≠ some name := by
    intro session role waits
    rcases kept.entry_thread found waits with place | place
    · rw [arrived] at place
      cases place
    · rw [arrived] at place
      cases place
  have entries : ∀ other role,
      ({ broker.goTo name current (.ended .refused) with
        waiting := dropEmpty broker.waiting session ((broker.waiting session).getD empty) } :
          Broker Session).entry other role = broker.entry other role := by
    intro other role
    refine (entry_dropEmpty broker.waiting session _ other role).trans ?_
    split
    · rename_i same
      rw [same, entry_eq]
    · rfl
  have undecided : ∀ other, other ≠ name -> fates other [(.refused name : Report Session)] = 0 := by
    intro other apart
    rw [fates_singleton, decides, decide_eq_false (apart ·.symm)]
    rfl
  have silent : ∀ other, Unproved [(.refused name : Report Session)] other := by
    intro other role' session' mem
    cases mem_singleton.mp mem
  refine kept.moves found rfl kept.limit ?_ ?_ ?_ ?_ ?_ ?_ ?_
  · rw [isServing, arrived]
    rfl
  · change fates name (past ++ [.refused name]) = 1
    rw [fates_append, fits.2.1, fates_singleton, decides, decide_eq_true rfl]
    rfl
  · intro other connection apart stands
    exact (kept.fits other connection stands).frame (undecided other apart) (silent other)
      (fun session' role' waits => (entries session' role').trans waits)
  · exact dropEmpty_slots kept.slots fun role' other waits => kept.single session waits
  · intro session' role' other waits
    rw [entries] at waits
    have apart : other ≠ name := fun same => absent session' role' (same ▸ waits)
    exact .inr ⟨apart, waits, undecided other apart⟩
  · intro other beyond
    exact ⟨undecided other (Nat.ne_of_gt (Nat.lt_of_lt_of_le inside beyond)), silent other⟩
  · intro _ _ _ _ mem
    cases mem_singleton.mp mem

theorem eq_or_other (role other : Role) : other = role \/ other = role.other := by
  cases role <;> cases other <;> simp [other]

section

variable (kept : Kept past broker) (found : broker.connections[name]? = some current)
include kept found

theorem Kept.pairedWith (arrived : current.thread = .arrived role session) (room : broker.pairs < maxPairs)
  (free : broker.entry session role = none) {peer : ℕ} (waits : broker.entry session role.other = some peer) :
  Kept (past ++ [.paired role session name peer]) { broker.goTo name current (.serving role session peer false) with
    waiting := update broker.waiting session none
    pairs := broker.pairs + 1 } := by
  have inside := (List.getElem?_eq_some_iff.mp found).1
  have fits := kept.fits name current found
  unfold Fits at fits
  rw [arrived] at fits
  rcases kept.entries session role.other peer waits with ⟨partner, partnerFound, _, partnerOpen, place⟩
  have partnerInside := (List.getElem?_eq_some_iff.mp partnerFound).1
  have apart : name ≠ peer := by
    intro same
    rw [<- same, found] at partnerFound
    cases partnerFound
    rw [arrived] at place
    rcases place with clash | clash <;> cases clash
  have partnerFits := kept.fits peer partner partnerFound
  have partnerProved : .authenticated peer role.other session ∈ past := by
    unfold Fits at partnerFits
    rcases place with thread | thread
    · rw [thread] at partnerFits
      exact partnerFits.1
    · rw [thread] at partnerFits
      exact partnerFits.1
  have absent : ∀ session role, broker.entry session role ≠ some name := by
    intro session' role' entry
    rcases kept.entry_thread found entry with thread | thread
    · rw [arrived] at thread
      cases thread
    · rw [arrived] at thread
      cases thread
  have entries := entry_update (broker.goTo name current (.serving role session peer false)) session none
  have undecided : ∀ other, other ≠ name -> other ≠ peer -> fates other [.paired role session name peer] = 0 := by
    intro other notName notPeer
    rw [fates_singleton, decides, decide_eq_false (notName ·.symm), decide_eq_false (notPeer ·.symm)]
    rfl
  have silent : ∀ other, Unproved [.paired role session name peer] other := by
    intro other role' session' mem
    cases mem_singleton.mp mem
  refine kept.moves found rfl room ?_ ?_ ?_ ?_ ?_ ?_ ?_
  · rw [isServing, arrived]
    rfl
  · refine ⟨mem_append_left _ fits.2.2, ?_, mem_append_right _ (mem_singleton_self _)⟩
    rw [fates_append, fits.2.1, fates_singleton, decides, decide_eq_true rfl, Bool.true_or]
    rfl
  · intro other connection notName stands
    by_cases isPeer : other = peer
    · subst isPeer
      rw [partnerFound] at stands
      cases stands
      have decided : fates other (past ++ [.paired role session name other]) = 1 := by
        rw [fates_append, partnerOpen, fates_singleton, decides, @decide_eq_true (other = other) _ rfl, Bool.or_true]
        rfl
      unfold Fits
      rcases place with thread | thread
      · rw [thread]
        exact ⟨mem_append_left _ partnerProved, .inr decided⟩
      · rw [thread]
        exact ⟨mem_append_left _ partnerProved, .inr decided⟩
    · refine (kept.fits other connection stands).frame (undecided other notName isPeer) (silent other)
        fun session' role' entry => ?_
      refine (entries session' role').trans ?_
      by_cases same : session' = session
      · subst same
        rcases eq_or_other role role' with this | that
        · rw [this, free] at entry
          cases entry
        · rw [that, waits] at entry
          cases entry
          exact absurd rfl isPeer
      · rw [if_neg same]
        exact entry
  · intro session' slot stands
    by_cases same : session' = session
    · subst same
      rw [update_self] at stands
      cases stands
    · rw [update_of_ne same] at stands
      exact kept.slots session' slot stands
  · intro session' role' other entry
    replace entry := (entries session' role').symm.trans entry
    by_cases same : session' = session
    · rw [if_pos same] at entry
      cases entry
    · rw [if_neg same] at entry
      have notName : other ≠ name := fun equal => absent session' role' (equal ▸ entry)
      have notPeer : other ≠ peer := by
        intro equal
        subst equal
        have thread := kept.entry_thread partnerFound entry
        rcases place with here | here <;> rw [here] at thread <;> rcases thread with there | there <;> cases there <;>
          exact same rfl
      exact .inr ⟨notName, entry, undecided other notName notPeer⟩
  · intro other beyond
    exact ⟨undecided other (Nat.ne_of_gt (Nat.lt_of_lt_of_le inside beyond))
      (Nat.ne_of_gt (Nat.lt_of_lt_of_le partnerInside beyond)), silent other⟩
  · intro _ _ _ _ mem
    cases mem_singleton.mp mem
    exact ⟨fits.2.2, partnerProved, apart⟩

theorem Kept.waits
  (arrived : current.thread = .arrived role session) (free : slot role = none) (alone : slot role.other = none)
  (stands : slot = (broker.waiting session).getD empty) :
  Kept (past ++ []) { broker.goTo name current (.waiting role session) with
    waiting := update broker.waiting session (some (update slot role (some name))) } := by
  have fits := kept.fits name current found
  unfold Fits at fits
  rw [arrived] at fits
  have nobody : ∀ role', broker.entry session role' = none := by
    intro role'
    rw [entry_eq, <- stands]
    rcases eq_or_other role role' with this | that
    · rw [this, free]
    · rw [that, alone]
  have absent : ∀ session role, broker.entry session role ≠ some name := by
    intro session' role' entry
    rcases kept.entry_thread found entry with thread | thread
    · rw [arrived] at thread
      cases thread
    · rw [arrived] at thread
      cases thread
  have entries := entry_update (broker.goTo name current (.waiting role session)) session
    (some (update slot role (some name)))
  refine kept.moves found rfl kept.limit ?_ ?_ ?_ ?_ ?_ (fun other _ => ⟨rfl, Unproved.nil other⟩)
    nofun
  · rw [isServing, arrived]
    rfl
  · refine ⟨mem_append_left _ fits.2.2, .inl ((entries session role).trans ?_)⟩
    rw [if_pos rfl, bind_some, update_self]
  · intro other connection _ there
    refine (kept.fits other connection there).frame rfl (Unproved.nil other) fun session' role' entry => ?_
    refine (entries session' role').trans ?_
    by_cases same : session' = session
    · rw [same, nobody] at entry
      cases entry
    · rw [if_neg same]
      exact entry
  · intro session' found there
    by_cases same : session' = session
    · subst same
      rw [update_self] at there
      cases there
      refine ⟨role, name, update_self _ _ _, ?_⟩
      rw [update_of_ne (other_ne role)]
      exact alone
    · rw [update_of_ne same] at there
      exact kept.slots session' found there
  · intro session' role' _ entry
    replace entry := (entries session' role').symm.trans entry
    by_cases same : session' = session
    · rw [if_pos same, bind_some] at entry
      rcases eq_or_other role role' with this | that
      · rw [this, update_self] at entry
        cases entry
        refine .inl ⟨rfl, fits.1, ?_, .inl ?_⟩
        · rw [append_nil]
          exact fits.2.1
        · rw [this, same]
      · rw [that, update_of_ne (other_ne role), alone] at entry
        cases entry
    · rw [if_neg same] at entry
      exact .inr ⟨fun equal => absent session' role' (equal ▸ entry), entry, rfl⟩

theorem Kept.join (happened : broker.join name current = some (after, more)) : Kept (past ++ more) after := by
  unfold Broker.join at happened
  split at happened
  swap
  · cases happened
  rename_i role session arrived
  dsimp only at happened
  split at happened
  · cases happened
    exact kept.refused found arrived
  rename_i accepted
  rw [not_or, Bool.not_eq_true, isSome_eq_false_iff, isNone_iff_eq_none, Nat.not_le] at accepted
  split at happened
  · rename_i peer waits
    cases happened
    exact kept.pairedWith found arrived accepted.2 ((entry_eq broker session role).trans accepted.1)
      ((entry_eq broker session role.other).trans waits)
  · rename_i alone
    cases happened
    exact kept.waits found arrived accepted.1 alone rfl

end

end Table

theorem fates_of_paired {peer : ℕ} (reported : .paired role session name peer ∈ past) : fates peer past ≠ 0 := by
  have positive : 0 < fates peer past :=
    countP_pos_iff.mpr ⟨_, reported, by simp [decides]⟩
  omega

section

variable (kept : Kept past broker) (found : broker.connections[name]? = some current)
include kept found

theorem Kept.announce (happened : broker.announce name current = some after) : Kept (past ++ []) after := by
  unfold Broker.announce at happened
  split at happened
  swap
  · cases happened
  rename_i role session peer serving
  rcases map_eq_some_iff.mp happened with ⟨partner, partnerFound, same⟩
  subst same
  have fits := kept.fits name current found
  unfold Fits at fits
  rw [serving] at fits
  have apart := (kept.law role session name peer fits.2.2).2.2
  have decided := fates_of_paired fits.2.2
  have absent : ∀ session role, broker.entry session role ≠ some name := by
    intro session' role' entry
    rcases kept.entry_thread found entry with thread | thread <;> rw [serving] at thread <;> cases thread
  have first : Kept (past ++ []) ⟨broker.connections.set name ⟨.serving role session peer true, current.ready⟩,
      broker.waiting, broker.pairs, broker.greetings⟩ := by
    refine kept.quietly found fits kept.limit ?_ (fun session' role' entry => absurd entry (absent session' role'))
    rw [isServing, serving]
    rfl
  rw [append_nil] at first
  have there : (broker.connections.set name ⟨.serving role session peer true, current.ready⟩)[peer]? = some partner := by
    rw [get_set found, if_neg (apart ·.symm)]
    exact partnerFound
  refine first.quietly there ?_ first.limit rfl ?_
  · have before := first.fits peer partner there
    unfold Fits at before ⊢
    dsimp only
    split at before
    · exact absurd before.2.1 decided
    · exact absurd before.2.1 decided
    · exact before
    · exact before
    · exact before
    · exact before
    · exact before
  · intro session' role' entry
    rcases first.entries session' role' peer entry with ⟨_, _, _, undecided, _⟩
    exact absurd undecided decided

theorem Kept.wake (happened : broker.wake name current = some after) : Kept (past ++ []) after := by
  unfold Broker.wake at happened
  split at happened
  swap
  · cases happened
  rename_i role session waiting
  split at happened
  swap
  · cases happened
  rename_i ready
  cases happened
  have fits := kept.fits name current found
  unfold Fits at fits
  rw [waiting] at fits
  have absent : ∀ session role, broker.entry session role ≠ some name := by
    intro session' role' entry
    rcases kept.entries session' role' name entry with ⟨_, stands, unready, _⟩
    rw [found] at stands
    cases stands
    rw [ready] at unready
    cases unready
  refine kept.quietly found ?_ kept.limit ?_ (fun session' role' entry => absurd entry (absent session' role'))
  · exact fits.2.resolve_left (absent session role)
  · rw [isServing, waiting]
    rfl

theorem Kept.expire (happened : broker.expire name current = some after) : Kept (past ++ []) after := by
  unfold Broker.expire at happened
  split at happened
  swap
  · cases happened
  rename_i role session waiting
  split at happened
  · cases happened
  rename_i unready
  cases happened
  have fits := kept.fits name current found
  unfold Fits at fits
  rw [waiting] at fits
  refine kept.quietly found fits kept.limit ?_ fun session' role' entry => ⟨Bool.not_eq_true _ ▸ unready, ?_⟩
  · rw [isServing, waiting]
    rfl
  · rcases kept.entry_thread found entry with thread | thread
    · rw [waiting] at thread
      cases thread
      exact .inr rfl
    · rw [waiting] at thread
      cases thread

theorem Kept.leaves (expired : current.thread = .expired role session) (gone : broker.entry session role ≠ some name) :
  Kept (past ++ []) (broker.goTo name current (.ended .left)) := by
  have fits := kept.fits name current found
  unfold Fits at fits
  rw [expired] at fits
  refine kept.quietly found ?_ kept.limit ?_ fun session' role' entry => ?_
  · exact fits.2.resolve_left gone
  · rw [isServing, expired]
    rfl
  · rcases kept.entry_thread found entry with thread | thread
    · rw [expired] at thread
      cases thread
    · rw [expired] at thread
      cases thread
      exact absurd entry gone

theorem Kept.finish (happened : broker.finish name current = some after) : Kept (past ++ []) after := by
  unfold Broker.finish at happened
  split at happened
  swap
  · cases happened
  rename_i role session peer serving
  cases happened
  have fits := kept.fits name current found
  unfold Fits at fits
  rw [serving] at fits
  have counted : current.isServing := by
    rw [isServing, serving]
    rfl
  have one := toNat_le_countP found isServing
  rw [counted, <- kept.live, Bool.toNat_true] at one
  refine kept.quietly found fits.2.1 (Nat.le_trans (Nat.sub_le _ _) kept.limit) ?_ fun session' role' entry => ?_
  · rw [counted, Bool.toNat_true, Nat.sub_add_cancel one]
    rfl
  · rcases kept.entry_thread found entry with thread | thread <;> rw [serving] at thread <;> cases thread

end

section Table

variable [DecidableEq Session]

section

variable (kept : Kept past broker) (found : broker.connections[name]? = some current)
include kept found

theorem Kept.timesOut (expired : current.thread = .expired role session) (stands : broker.waiting session = some slot)
  (mine : slot role = some name) : Kept (past ++ [.timedOut name]) { broker.goTo name current (.ended .timedOut) with
    waiting := dropEmpty broker.waiting session (update slot role none) } := by
  have inside := (List.getElem?_eq_some_iff.mp found).1
  have entry : broker.entry session role = some name := by
    rw [entry, stands]
    exact mine
  rcases kept.entries session role name entry with ⟨_, _, _, open', _⟩
  have alone : slot role.other = none := by
    have single := kept.single session ((entry_eq broker session role).symm.trans entry)
    rwa [stands, getD_some] at single
  have entries : ∀ other role', ({ broker.goTo name current (.ended .timedOut) with
      waiting := dropEmpty broker.waiting session (update slot role none) } : Broker Session).entry other role' =
        if other = session then none else broker.entry other role' := by
    intro other role'
    refine (entry_dropEmpty broker.waiting session _ other role').trans ?_
    split
    · rcases eq_or_other role role' with this | that
      · rw [this, update_self]
      · rw [that, update_of_ne (other_ne role), alone]
    · rfl
  have undecided : ∀ other, other ≠ name -> fates other [(.timedOut name : Report Session)] = 0 := by
    intro other apart
    rw [fates_singleton, decides, decide_eq_false (apart ·.symm)]
    rfl
  have silent : ∀ other, Unproved [(.timedOut name : Report Session)] other := by
    intro other role' session' mem
    cases mem_singleton.mp mem
  have elsewhere : ∀ session' role' other, broker.entry session' role' = some other -> other ≠ name -> session' ≠ session := by
    intro session' role' other waits apart same
    subst same
    rcases eq_or_other role role' with this | that
    · rw [this, entry] at waits
      cases waits
      exact apart rfl
    · rw [that, entry_eq, stands, getD_some, alone] at waits
      cases waits
  refine kept.moves found rfl kept.limit ?_ ?_ ?_ ?_ ?_ ?_ ?_
  · rw [isServing, expired]
    rfl
  · change fates name (past ++ [.timedOut name]) = 1
    rw [fates_append, open', fates_singleton, decides, decide_eq_true rfl]
    rfl
  · intro other connection apart there
    refine (kept.fits other connection there).frame (undecided other apart) (silent other) fun session' role' waits => ?_
    refine (entries session' role').trans ?_
    rw [if_neg (elsewhere session' role' other waits apart)]
    exact waits
  · refine dropEmpty_slots kept.slots fun role' other waits => ?_
    rcases eq_or_other role role' with this | that
    · rw [this, update_self] at waits
      cases waits
    · rw [that, update_of_ne (other_ne role), alone] at waits
      cases waits
  · intro session' role' other waits
    rw [entries] at waits
    split at waits
    · cases waits
    · rename_i apart
      have different : other ≠ name := by
        intro same
        subst same
        rcases kept.entry_thread found waits with thread | thread <;> rw [expired] at thread <;> cases thread
        exact apart rfl
      exact .inr ⟨different, waits, undecided other different⟩
  · intro other beyond
    exact ⟨undecided other (Nat.ne_of_gt (Nat.lt_of_lt_of_le inside beyond)), silent other⟩
  · intro _ _ _ _ mem
    cases mem_singleton.mp mem

theorem Kept.settle (happened : broker.settle name current = some (after, more)) : Kept (past ++ more) after := by
  unfold Broker.settle at happened
  split at happened
  swap
  · cases happened
  rename_i role session expired
  split at happened
  · rename_i slot stands
    split at happened
    · rename_i mine
      cases happened
      exact kept.timesOut found expired stands mine
    · rename_i other
      cases happened
      refine kept.leaves found expired ?_
      rw [Broker.entry, stands]
      exact other
  · rename_i stands
    cases happened
    refine kept.leaves found expired ?_
    rw [Broker.entry, stands]
    exact nofun

end

end Table

end BananaChat.Tunnels

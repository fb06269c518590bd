import BananaChat.Foundation.Dictionary
import BananaChat.Foundation.Numbered
import BananaChat.Foundation.Machine

namespace BananaChat.Chats

open Foundation List Function Dictionary
open Option (mem_def)

/-!
# Places of the chat search

All of `_search_place` happens under one lock, which only a waiting search gives up.
-/

variable {Account : Type}

/-- `SEARCHES`. -/
def maxSearches : ℕ := 2

inductive SearchPhase
  | waiting
  | running
  | ended
  | busy (own : Bool)
  | replaced
deriving DecidableEq

inductive SearchOutcome
  | running
  | busy
  | replaced

def SearchPhase.outcome : SearchPhase -> Option SearchOutcome
  | .waiting => none
  | .running | .ended => some .running
  | .busy _ => some .busy
  | .replaced => some .replaced

/-- A search; `stopped` tells whether its event is set. -/
structure Search (Account : Type) where
  account : Account
  phase : SearchPhase
  stopped : Bool

def Search.goTo (phase : SearchPhase) (search : Search Account) : Search Account := { search with phase := phase }

def Search.stop (search : Search Account) : Search Account := { search with stopped := true }

/-- Searches have the numbers in which they asked; `newest` and `searching` are the two tables. -/
structure SearchState (Account : Type) where
  searches : List (Search Account)
  newest : Account -> Option ℕ
  searching : List (Account × ℕ)

inductive SearchAction (Account : Type)
  | ask (account : Account)
  /-- The condition of a waiting search is found true. -/
  | wake (number : ℕ)
  /-- It is still false after `REPLACE_SECONDS`. -/
  | timeOut (number : ℕ)
  | finish (number : ℕ)

def SearchAction.number : SearchAction Account -> Option ℕ
  | .ask _ => none
  | .wake number | .timeOut number | .finish number => some number

namespace SearchState

variable [DecidableEq Account] (state : SearchState Account)

/-- What a search does that waits for no other one of its account. -/
def enter (account : Account) (number : ℕ) : SearchState Account :=
  let newest := Function.update state.newest account none
  if maxSearches <= state.searching.length then
    ⟨state.searches.modify number (Search.goTo (.busy false)), newest, state.searching⟩
  else
    ⟨state.searches.modify number (Search.goTo .running), newest, Dictionary.put account number state.searching⟩

def Enabled : SearchAction Account -> Prop
  | .ask _ => True
  | .wake number => ∃ search ∈ state.searches[number]?, search.phase = .waiting /\
    (Dictionary.get? search.account state.searching = none \/ state.newest search.account ≠ some number)
  | .timeOut number => ∃ search ∈ state.searches[number]?, search.phase = .waiting /\
    Dictionary.get? search.account state.searching ≠ none /\ state.newest search.account = some number
  | .finish number => ∃ search ∈ state.searches[number]?, search.phase = .running

def next : SearchAction Account -> SearchState Account
  | .ask account =>
    let number := state.searches.length
    let newest := Function.update state.newest account (some number)
    match Dictionary.get? account state.searching with
    | some previous => ⟨state.searches.modify previous Search.stop ++ [⟨account, .waiting, false⟩], newest, state.searching⟩
    | none => enter ⟨state.searches ++ [⟨account, .waiting, false⟩], newest, state.searching⟩ account number
  | .wake number =>
    match state.searches[number]? with
    | some search =>
      if state.newest search.account ≠ some number then
        { state with searches := state.searches.modify number (Search.goTo .replaced) }
      else
        state.enter search.account number
    | none => state
  | .timeOut number =>
    match state.searches[number]? with
    | some search =>
      { state with
        searches := state.searches.modify number (Search.goTo (.busy true))
        newest := Function.update state.newest search.account none }
    | none => state
  | .finish number =>
    match state.searches[number]? with
    | some search =>
      { state with
        searches := state.searches.modify number (Search.goTo .ended)
        searching :=
          if Dictionary.get? search.account state.searching = some number then
            state.searching.filter fun entry => entry.1 ≠ search.account
          else
            state.searching }
    | none => state

end SearchState

def searchMachine [DecidableEq Account] : Machine (SearchState Account) (SearchAction Account) where
  initial state := state = ⟨[], fun _ => none, []⟩
  enabled := SearchState.Enabled
  next := SearchState.next

section

variable (searches : List (Search Account)) (number : ℕ)

/-- The search of this number has this account and phase. -/
def Is (account : Account) (phase : SearchPhase) : Prop :=
  ∃ search ∈ searches[number]?, search.account = account /\ search.phase = phase

def Told : Prop := ∃ search ∈ searches[number]?, search.stopped

end

structure Kept (state : SearchState Account) : Prop where
  places : ∀ account number, (account, number) ∈ state.searching ↔ Is state.searches number account .running
  distinct : (state.searching.map Prod.fst).Nodup
  few : state.searching.length <= maxSearches
  marks : ∀ account number, state.newest account = some number -> Is state.searches number account .waiting /\
    ∀ later > number, ∀ phase, ¬ Is state.searches later account phase
  stops : ∀ account number, Is state.searches number account .running ->
    ∀ later > number, ∀ phase, Is state.searches later account phase -> Told state.searches number

variable {searches : List (Search Account)} {account other : Account} {number place : ℕ} {phase now : SearchPhase}

theorem is_goTo : Is (searches.modify number (Search.goTo now)) place account phase ↔
    if number = place then phase = now /\ ∃ before, Is searches place account before else Is searches place account phase := by
  unfold Is
  rw [getElem?_modify]
  split
  · simp only [Option.map_eq_map, Option.mem_map, Search.goTo]
    grind
  · simp

theorem told_goTo : Told (searches.modify number (Search.goTo now)) place ↔ Told searches place := by
  unfold Told
  rw [getElem?_modify]
  split <;> simp [Search.goTo]

theorem is_stop : Is (searches.modify number Search.stop) place account phase ↔ Is searches place account phase := by
  unfold Is
  rw [getElem?_modify]
  split <;> simp [Search.stop]

theorem told_stop : Told (searches.modify number Search.stop) place ↔
    Told searches place \/ number = place /\ ∃ account phase, Is searches place account phase := by
  unfold Told Is
  rw [getElem?_modify]
  split
  · simp [Search.stop]
    grind
  · simp [*]

theorem is_append {search : Search Account} : Is (searches ++ [search]) place account phase ↔
    if place = searches.length then search.account = account /\ search.phase = phase else Is searches place account phase := by
  unfold Is
  rw [Numbered.get_append]
  split <;> simp

theorem Told.append (told : Told searches place) (search : Search Account) : Told (searches ++ [search]) place := by
  rcases told with ⟨before, isBefore, stopped⟩
  refine ⟨before, ?_, stopped⟩
  rw [Numbered.get_append, if_neg (Nat.ne_of_lt (List.getElem?_eq_some_iff.mp isBefore).1)]
  exact isBefore

theorem Is.unique (first : Is searches number account phase) (second : Is searches number other now) : account = other /\ phase = now := by
  rcases first with ⟨_, isSearch, rfl, rfl⟩
  rcases second with ⟨_, isSame, rfl, rfl⟩
  cases Option.mem_unique isSearch isSame
  exact ⟨rfl, rfl⟩

theorem Is.lt (is : Is searches number account phase) : number < searches.length := by
  rcases is with ⟨_, isSearch, _⟩
  exact (List.getElem?_eq_some_iff.mp isSearch).1

namespace Kept

variable {state : SearchState Account}

section

variable (kept : Kept state)
include kept

theorem stop (number : ℕ) : Kept { state with searches := state.searches.modify number Search.stop } := by
  refine ⟨?_, kept.distinct, kept.few, ?_, ?_⟩ <;> simp only [is_stop, told_stop]
  · exact kept.places
  · exact kept.marks
  · exact fun account place runs later further phase isLater => .inl (kept.stops account place runs later further phase isLater)

theorem asks (told : ∀ number, Is state.searches number account .running -> Told state.searches number)
  [DecidableEq Account] : Kept ⟨state.searches ++ [⟨account, .waiting, false⟩],
    Function.update state.newest account (some state.searches.length), state.searching⟩ := by
  refine ⟨?_, kept.distinct, kept.few, ?_, ?_⟩ <;> simp only [is_append]
  · intro other number
    rw [kept.places]
    have inside (is : Is state.searches number other .running) := is.lt
    grind
  · intro other number marked
    by_cases same : other = account
    · rw [same, update_self] at marked
      cases marked
      refine ⟨by simp [same], fun later further phase isLater => ?_⟩
      rw [if_neg (Nat.ne_of_gt further)] at isLater
      exact Nat.lt_asymm further isLater.lt
    · rw [update_of_ne same] at marked
      rcases kept.marks other number marked with ⟨waits, _⟩
      have inside := waits.lt
      grind
  · intro other number runs later further phase isLater
    by_cases isNew : number = state.searches.length
    · rw [if_pos isNew] at runs
      cases runs.2
    · rw [if_neg isNew] at runs
      refine Told.append ?_ _
      split at isLater
      · exact told number (isLater.1 ▸ runs)
      · exact kept.stops other number runs later further phase isLater

theorem leaves {newest : Account -> Option ℕ} (waits : Is state.searches number account .waiting)
  (idle : now ≠ .running)
  (marks : ∀ other place, newest other = some place -> state.newest other = some place /\ place ≠ number) :
  Kept ⟨state.searches.modify number (Search.goTo now), newest, state.searching⟩ := by
  have unplaced (other : Account) : ¬ Is state.searches number other .running := fun runs => by cases (waits.unique runs).2
  refine ⟨?_, kept.distinct, kept.few, ?_, ?_⟩ <;> simp only [is_goTo, told_goTo]
  · grind [kept.places]
  · intro other place marked
    rcases marks other place marked with ⟨before, _⟩
    rcases kept.marks other place before with ⟨_, _⟩
    grind
  · intro other place _ _ _ _ _
    have stops := kept.stops other place
    grind

theorem unmarked [DecidableEq Account] (waits : Is state.searches number account .waiting)
  (marked : Function.update state.newest account none other = some place) : state.newest other = some place /\ place ≠ number := by
  by_cases same : other = account
  · rw [same, update_self] at marked
    cases marked
  · rw [update_of_ne same] at marked
    refine ⟨marked, ?_⟩
    rintro rfl
    exact same (((kept.marks other place marked).1).unique waits).1

theorem enter [DecidableEq Account] (free : get? account state.searching = none)
  (newest : state.newest account = some number) : Kept (state.enter account number) := by
  rcases kept.marks account number newest with ⟨waits, _⟩
  unfold SearchState.enter
  split
  · exact kept.leaves waits nofun fun other place => unmarked kept waits
  · rename_i room
    have fresh : account ∉ state.searching.map Prod.fst := by
      rw [<- get?_isSome_iff, free]
      exact nofun
    have absent (place : ℕ) : ¬ Is state.searches place account .running := by
      rw [<- kept.places, mem_iff_get? kept.distinct, free]
      exact nofun
    refine ⟨?_, nodup_put kept.distinct account number, ?_, ?_, ?_⟩ <;> simp only [is_goTo, told_goTo]
    · intro other place
      rw [put_absent fresh, mem_append, mem_singleton, kept.places]
      have own (before : SearchPhase) (is : Is state.searches place other before) (here : number = place) : other = account :=
        (is.unique (here ▸ waits)).1
      grind
    · rw [put_absent fresh, length_append]
      exact Nat.lt_of_not_le room
    · intro other place marked
      by_cases same : other = account
      · rw [same, update_self] at marked
        cases marked
      · rw [update_of_ne same] at marked
        rcases kept.marks other place marked with ⟨isWaiting, _⟩
        have apart : number ≠ place := fun here => same ((here ▸ isWaiting).unique waits).1
        grind
    · intro other place runs _ _ _ _
      have stops := kept.stops other place
      by_cases here : number = place
      · rw [if_pos here] at runs
        rcases runs with ⟨_, _, is⟩
        have own : other = account := (is.unique (here ▸ waits)).1
        grind
      · grind

theorem finish [DecidableEq Account] (runs : Is state.searches number account .running) :
  Kept ⟨state.searches.modify number (Search.goTo .ended), state.newest, state.searching.filter fun entry => entry.1 ≠ account⟩ := by
  have own : get? account state.searching = some number :=
    (mem_iff_get? kept.distinct).mp ((kept.places account number).mpr runs)
  refine ⟨?_, (kept.distinct.sublist (filter_sublist.map _)), (length_filter_le _ _).trans kept.few, ?_, ?_⟩ <;>
    simp only [is_goTo, told_goTo]
  · intro other place
    rw [mem_filter, kept.places]
    have apart (before : SearchPhase) (is : Is state.searches place other before) (here : number = place) : other = account :=
      (is.unique (here ▸ runs)).1
    have alone (is : Is state.searches place account .running) : place = number := by
      have also := (mem_iff_get? kept.distinct).mp ((kept.places account place).mpr is)
      exact Option.some.inj (also.symm.trans own)
    grind
  · intro other place marked
    rcases kept.marks other place marked with ⟨isWaiting, _⟩
    have apart : number ≠ place := by
      rintro rfl
      cases (isWaiting.unique runs).2
    grind
  · intro other place _ _ _ _ _
    have stops := kept.stops other place
    grind

end

theorem next [DecidableEq Account] (kept : Kept state) {action : SearchAction Account} (enabled : state.Enabled action) :
  Kept (state.next action) := by
  cases action with
  | ask account =>
    cases isPrevious : get? account state.searching with
    | some previous =>
      simp only [SearchState.next, isPrevious]
      have runs := (kept.places account previous).mp ((mem_iff_get? kept.distinct).mpr isPrevious)
      have stopped := kept.stop previous
      rw [<- length_modify (f := Search.stop) (i := previous) (l := state.searches)]
      refine stopped.asks fun number isRunning => ?_
      have same := (mem_iff_get? kept.distinct).mp ((stopped.places account number).mpr isRunning)
      rw [isPrevious] at same
      cases same
      exact told_stop.mpr (.inr ⟨rfl, account, _, runs⟩)
    | none =>
      simp only [SearchState.next, isPrevious]
      refine (kept.asks fun number runs => ?_).enter isPrevious (update_self ..)
      rw [<- kept.places, mem_iff_get? kept.distinct, isPrevious] at runs
      cases runs
  | wake number =>
    rcases enabled with ⟨search, isSearch, waits, clear⟩
    have is : Is state.searches number search.account .waiting := ⟨search, isSearch, rfl, waits⟩
    simp only [SearchState.next, mem_def.mp isSearch]
    split
    · rename_i older
      refine kept.leaves is (by decide) fun other place marked => ⟨marked, ?_⟩
      rintro rfl
      exact older ((((kept.marks other place marked).1).unique is).1 ▸ marked)
    · rename_i newest
      exact kept.enter (clear.resolve_right newest) (not_not.mp newest)
  | timeOut number =>
    rcases enabled with ⟨search, isSearch, waits, _, _⟩
    have is : Is state.searches number search.account .waiting := ⟨search, isSearch, rfl, waits⟩
    simp only [SearchState.next, mem_def.mp isSearch]
    exact kept.leaves is (by decide) fun other place => unmarked kept is
  | finish number =>
    rcases enabled with ⟨search, isSearch, runs⟩
    have is : Is state.searches number search.account .running := ⟨search, isSearch, rfl, runs⟩
    have own := (mem_iff_get? kept.distinct).mp ((kept.places _ _).mpr is)
    simp only [SearchState.next, mem_def.mp isSearch]
    rw [if_pos own]
    exact kept.finish is

end Kept

section Runs

variable [DecidableEq Account] {state : SearchState Account} {action : SearchAction Account}

theorem kept_of_reachable (reachable : searchMachine.Reachable state) : Kept state := by
  refine Machine.Invariant.reachable ⟨?_, fun _ _ kept enabled => kept.next enabled⟩ reachable
  rintro _ rfl
  exact ⟨by simp [Is], nodup_nil, Nat.zero_le _, nofun, by simp [Is]⟩

theorem enter_searches (state : SearchState Account) (account : Account) (number : ℕ) :
  ∃ now, (state.enter account number).searches = state.searches.modify number (Search.goTo now) /\ now.outcome.isSome := by
  unfold SearchState.enter
  split <;> exact ⟨_, rfl, rfl⟩

theorem ask_is (old : number ≠ state.searches.length) :
  Is (state.next (.ask other)).searches number account phase ↔ Is state.searches number account phase := by
  simp only [SearchState.next]
  split
  · rw [is_append, if_neg (by simpa using old), is_stop]
  · rcases enter_searches ⟨state.searches ++ [⟨other, .waiting, false⟩],
      Function.update state.newest other (some state.searches.length), state.searching⟩ other state.searches.length with ⟨now, same, _⟩
    rw [same, is_goTo, if_neg old.symm, is_append, if_neg old]

theorem settles (enabled : state.Enabled action) (isNumber : action.number = some number) :
  ∃ search ∈ state.searches[number]?, ∃ now, (state.next action).searches = state.searches.modify number (Search.goTo now) /\
    now.outcome.isSome /\ (search.phase.outcome.isSome -> now.outcome = search.phase.outcome) /\
    (now = .running -> state.newest search.account = some number) := by
  cases action with
  | ask other => cases isNumber
  | wake other =>
    cases isNumber
    rcases enabled with ⟨search, isSearch, waits, _⟩
    have pending : search.phase.outcome.isSome -> False := by
      rw [waits]
      exact Bool.false_ne_true
    refine ⟨search, isSearch, ?_⟩
    simp only [SearchState.next, mem_def.mp isSearch]
    split
    · exact ⟨_, rfl, rfl, fun settled => (pending settled).elim, fun is => by cases is⟩
    · rename_i newest
      rcases enter_searches state search.account number with ⟨now, same, settled⟩
      exact ⟨now, same, settled, fun settled => (pending settled).elim, fun _ => not_not.mp newest⟩
  | timeOut other =>
    cases isNumber
    rcases enabled with ⟨search, isSearch, waits, _⟩
    refine ⟨search, isSearch, ?_⟩
    simp only [SearchState.next, mem_def.mp isSearch, waits]
    refine ⟨_, rfl, rfl, fun is => ?_, fun is => ?_⟩ <;> cases is
  | finish other =>
    cases isNumber
    rcases enabled with ⟨search, isSearch, runs⟩
    refine ⟨search, isSearch, ?_⟩
    simp only [SearchState.next, mem_def.mp isSearch, runs]
    exact ⟨_, rfl, rfl, fun _ => rfl, fun is => by cases is⟩

theorem starts (kept : Kept state) (enabled : state.Enabled action) (idle : ¬ Is state.searches number account .running)
  (runs : Is (state.next action).searches number account .running) (later : ℕ) (further : number < later) (phase : SearchPhase) :
  ¬ Is (state.next action).searches later account phase := by
  cases isNumber : action.number with
  | none =>
    cases action with
    | ask other =>
      by_cases isNew : number = state.searches.length
      · rw [ask_is (Nat.ne_of_gt (isNew ▸ further))]
        exact fun is => Nat.lt_asymm (isNew ▸ further) is.lt
      · rw [ask_is isNew] at runs
        exact absurd runs idle
    | wake _ | timeOut _ | finish _ => cases isNumber
  | some moved =>
    rcases settles enabled isNumber with ⟨search, isSearch, _, same, _, _, newest⟩
    rw [same, is_goTo] at runs ⊢
    split at runs
    · rename_i here
      cases here
      rcases runs with ⟨starts, _, is⟩
      have own : account = search.account := (is.unique ⟨search, isSearch, rfl, rfl⟩).1
      rw [if_neg (Nat.ne_of_lt further), own]
      exact (kept.marks _ _ (newest starts.symm)).2 later further phase
    · exact absurd runs idle

theorem outcome_next (is : Is state.searches number account phase) (enabled : state.Enabled action) :
  ∃ after, Is (state.next action).searches number account after /\ (phase.outcome.isSome -> after.outcome = phase.outcome) := by
  cases isNumber : action.number with
  | none =>
    cases action with
    | ask other => exact ⟨phase, (ask_is (Nat.ne_of_lt is.lt)).mpr is, fun _ => rfl⟩
    | wake _ | timeOut _ | finish _ => cases isNumber
  | some moved =>
    rcases settles enabled isNumber with ⟨search, isSearch, now, same, _, stays, _⟩
    rw [same]
    simp only [is_goTo]
    by_cases here : moved = number
    · cases here
      have own : phase = search.phase := (is.unique ⟨search, isSearch, rfl, rfl⟩).2
      exact ⟨now, by rw [if_pos rfl]; exact ⟨rfl, phase, is⟩, own ▸ stays⟩
    · exact ⟨phase, by rwa [if_neg here], fun _ => rfl⟩

theorem waits_end (is : Is state.searches number account .waiting) :
  ∃ action, state.Enabled action /\ ∃ after, Is (state.next action).searches number account after /\ after.outcome.isSome := by
  rcases is with ⟨search, isSearch, rfl, waits⟩
  have ends {action : SearchAction Account} (enabled : state.Enabled action) (isNumber : action.number = some number) :
      ∃ action, state.Enabled action /\ ∃ after, Is (state.next action).searches number search.account after /\
        after.outcome.isSome := by
    rcases settles enabled isNumber with ⟨_, _, now, same, settled, _⟩
    refine ⟨action, enabled, now, ?_, settled⟩
    rw [same, is_goTo, if_pos rfl]
    exact ⟨rfl, _, search, isSearch, rfl, rfl⟩
  by_cases clear : get? search.account state.searching = none \/ state.newest search.account ≠ some number
  · exact @ends (.wake number) ⟨search, isSearch, waits, clear⟩ rfl
  · rw [not_or, not_not] at clear
    exact @ends (.timeOut number) ⟨search, isSearch, waits, clear⟩ rfl

theorem search_places (reachable : searchMachine.Reachable state) :
  (∀ numbers : List ℕ, numbers.Nodup -> (∀ number ∈ numbers, ∃ account, Is state.searches number account .running) ->
    numbers.length <= maxSearches) /\
  (∀ account first second, Is state.searches first account .running -> Is state.searches second account .running -> first = second) /\
  (∀ action, state.Enabled action -> ∀ account number, ¬ Is state.searches number account .running ->
    Is (state.next action).searches number account .running -> ∀ later > number, ∀ phase,
      ¬ Is (state.next action).searches later account phase) /\
  (∀ account number, Is state.searches number account .running -> ∀ later > number, ∀ phase,
    Is state.searches later account phase -> Told state.searches number) /\
  (∀ account number phase, Is state.searches number account phase ->
    (phase = .waiting -> ∃ action, state.Enabled action /\
      ∃ after, Is (state.next action).searches number account after /\ after.outcome.isSome) /\
    ∀ action, state.Enabled action -> ∃ after, Is (state.next action).searches number account after /\
      (phase.outcome.isSome -> after.outcome = phase.outcome)) /\
  ((∀ account number phase, Is state.searches number account phase -> phase ≠ .waiting /\ phase ≠ .running) ->
    state.searching = [] /\ ∀ account, state.newest account = none) := by
  have kept := kept_of_reachable reachable
  have placed (account : Account) (number : ℕ) (runs : Is state.searches number account .running) :
      Dictionary.get? account state.searching = some number :=
    (Dictionary.mem_iff_get? kept.distinct).mp ((kept.places account number).mpr runs)
  refine ⟨?_, ?_, ?_, kept.stops, ?_, ?_⟩
  · intro numbers distinct run
    have held : numbers ⊆ state.searching.map Prod.snd := by
      intro number mem
      rcases run number mem with ⟨account, runs⟩
      exact mem_map.mpr ⟨_, (kept.places account number).mpr runs, rfl⟩
    have few := (distinct.subperm held).length_le
    rw [length_map] at few
    exact few.trans kept.few
  · intro account first second firstRuns secondRuns
    exact Option.some.inj ((placed account first firstRuns).symm.trans (placed account second secondRuns))
  · intro action enabled account number idle runs later further phase
    exact starts kept enabled idle runs later further phase
  · intro account number phase is
    refine ⟨?_, fun action enabled => outcome_next is enabled⟩
    rintro rfl
    exact waits_end is
  · intro ended
    constructor
    · rw [eq_nil_iff_forall_not_mem]
      rintro ⟨account, number⟩ mem
      exact (ended account number _ ((kept.places account number).mp mem)).2 rfl
    · intro account
      cases marked : state.newest account with
      | none => rfl
      | some number => exact absurd rfl (ended account number _ (kept.marks account number marked).1).1

theorem search_places_told :
  Told (searchMachine.next (searchMachine.next ⟨[], fun _ => none, []⟩ (.ask 1)) (.ask 1)).searches 0 := by
  have first : searchMachine.Reachable (searchMachine.next ⟨[], fun _ => none, []⟩ (.ask 1)) := .next (.start rfl) trivial
  have second : searchMachine.Reachable (searchMachine.next (searchMachine.next ⟨[], fun _ => none, []⟩ (.ask 1)) (.ask 1)) :=
    .next first trivial
  exact (search_places second).2.2.2.1 1 0 ⟨_, rfl, rfl, rfl⟩ 1 Nat.zero_lt_one .waiting ⟨_, rfl, rfl, rfl⟩

end Runs

end BananaChat.Chats

import Mathlib.Data.List.Range
import BananaChat.Answers.EventPump

namespace BananaChat.Answers

open Foundation List Option

/-!
# What a pump hands to its reader

All groups of a pump, one after the other, are what the work produced.
-/

variable {Event Error : Type}

inductive Merged (settings : PumpSettings Event) : List Event -> List Event -> Prop
  | nil : Merged settings [] []
  | group {group : Group Event} {rest drained : List Event} :
      group.events.IsChain (fun last event => settings.merges last event = true) -> Merged settings rest drained ->
      Merged settings (group.events ++ rest) (settings.handed group :: drained)

def Chained (settings : PumpSettings Event) (groups : List (Group Event)) : Prop :=
  ∀ group ∈ groups, group.events.IsChain (fun last event => settings.merges last event = true)

variable {settings : PumpSettings Event} {past : List (PumpReport Event Error)} {pump : Pump Event Error}

theorem merged_groups {groups : List (Group Event)} (chained : Chained settings groups) :
  Merged settings (groups.flatMap Group.events) (groups.map settings.handed) := by
  induction groups with
  | nil => exact .nil
  | cons group rest ih =>
    refine .group (chained group mem_cons_self) (ih ?_)
    exact fun other mem => chained other (mem_cons_of_mem _ mem)

variable {group : Group Event}

theorem Group.chain_append {event : Event}
  (chain : group.events.IsChain fun last event => settings.merges last event = true)
  (continued : settings.merges group.last event) :
  (group.append event).events.IsChain (fun last event => settings.merges last event = true) := by
  refine isChain_append.mpr ⟨chain, isChain_singleton event, ?_⟩
  intro _ isLast _ isNext
  rw [group.last_eq] at isLast
  cases isLast
  cases isNext
  exact continued

def Response.held : Response -> ℕ
  | .holding _ => 1
  | _ => 0

def Response.active : Response -> Prop
  | .reading => True
  | .holding _ => True
  | _ => False

structure Grouped (settings : PumpSettings Event) (past : List (PumpReport Event Error)) (pump : Pump Event Error) : Prop where
  produced : producedOf past = pump.groups.flatMap Group.events
  chained : Chained settings pump.groups
  /-- The queue refers to the last groups; to all that were not taken while the reader goes on. -/
  queue : ∃ first,
    first <= pump.groups.length /\ pump.items = range' first (pump.groups.length - first) /\
      (drainedOf past).length + pump.reader.held <= first /\
      (pump.reader.active -> first = (drainedOf past).length + pump.reader.held)
  drained : drainedOf past = (pump.groups.take (drainedOf past).length).map settings.handed
  holding : ∀ place, pump.reader = .holding place -> place = (drainedOf past).length

structure Told (past : List (PumpReport Event Error)) (pump : Pump Event Error) : Prop where
  running : pump.work = .running -> pump.error = none /\ ∀ error, .failed error ∉ past
  failed : ∀ error, pump.error = some error -> .failed error ∈ past
  /-- An error that was not raised is there for the reader. -/
  waiting : ∀ error, .failed error ∈ past -> pump.reader.active -> pump.error = some error
  raised : ∀ error, .raised error ∈ past -> .failed error ∈ past
  returned : .returned ∈ past -> ∀ error, .failed error ∉ past
  closing : (∃ error, .raised error ∈ past) \/ .returned ∈ past ->
    pump.work = .finished /\ ¬ pump.reader.active /\ (drainedOf past).length = pump.groups.length

theorem producedOf_append (first second : List (PumpReport Event Error)) :
    producedOf (first ++ second) = producedOf first ++ producedOf second := filterMap_append

theorem drainedOf_append (first second : List (PumpReport Event Error)) :
    drainedOf (first ++ second) = drainedOf first ++ drainedOf second := filterMap_append

inductive Inserted (settings : PumpSettings Event) (pump : Pump Event Error) (event : Event) :
    List (Group Event) × List ℕ -> Prop
  | fresh : Inserted settings pump event (pump.groups ++ [⟨event, []⟩], pump.items ++ [pump.groups.length])
  | merged (earlier : List (Group Event)) (group : Group Event) (split : pump.groups = earlier ++ [group])
      (queued : pump.items ≠ []) (continued : settings.merges group.last event) :
      Inserted settings pump event (earlier ++ [group.append event], pump.items)

section

variable (grouped : Grouped settings past pump)
include grouped

theorem inserted (event : Event) :
  Inserted settings pump event (pump.insert settings event) := by
  rcases grouped.queue with ⟨_, _, items, _, _⟩
  unfold Pump.insert
  cases found : pump.tail with
  | none => exact .fresh
  | some last =>
    rcases last with ⟨place, group⟩
    dsimp only
    split
    · rename_i continued
      unfold Pump.tail at found
      split at found
      · cases found
      · rename_i reference isLast
        rcases map_eq_some_iff.mp found with ⟨_, isThere, same⟩
        cases same
        have queued : pump.items ≠ [] := by
          intro nothing
          rw [nothing] at isLast
          cases isLast
        have isEnd : place + 1 = pump.groups.length := by
          rw [items, getLast?_range'] at isLast
          split at isLast
          · cases isLast
          · cases isLast
            omega
        have split : pump.groups = pump.groups.dropLast ++ [group] := by
          rw [dropLast_append_getLast?]
          rw [getLast?_eq_getElem?, <- isEnd, Nat.add_sub_cancel]
          exact isThere
        have shorter : pump.groups.dropLast.length = place := by
          rw [length_dropLast]
          omega
        have replaced : pump.groups.set place (group.append event) = pump.groups.dropLast ++ [group.append event] := by
          conv_lhs => rw [split, <- shorter]
          rw [set_append_right _ _ (Nat.le_refl _), Nat.sub_self, set_cons_zero]
        rw [replaced]
        exact .merged _ _ split queued continued
    · exact .fresh

theorem Grouped.push (event : Event) :
  Grouped settings (past ++ [.produced event]) (pump.push settings event) := by
  have noneDrained : drainedOf (past ++ [.produced event]) = drainedOf past := by
    rw [drainedOf_append]
    exact append_nil _
  have oneProduced : producedOf (past ++ [.produced event]) = producedOf past ++ [event] := by
    rw [producedOf_append]
    rfl
  rcases grouped.queue with ⟨first, bounded, items, taken, exactly⟩
  have isInserted := inserted grouped event
  unfold Pump.push
  generalize pump.insert settings event = result at isInserted
  cases isInserted with
  | fresh =>
    refine ⟨?_, ?_, ⟨first, ?_, ?_, ?_, ?_⟩, ?_, ?_⟩
    · rw [oneProduced, grouped.produced, flatMap_append]
      rfl
    · exact forall_mem_snoc grouped.chained (isChain_singleton event)
    · exact Nat.le_trans bounded (by rw [length_append]; exact Nat.le_add_right _ _)
    · have longer : pump.groups.length + 1 - first = pump.groups.length - first + 1 := by omega
      dsimp only
      rw [length_append, length_singleton, longer, range'_concat, <- items]
      congr 2
      omega
    · rw [noneDrained]
      exact taken
    · rw [noneDrained]
      exact exactly
    · rw [noneDrained]
      rw [take_append_of_le_length (by omega)]
      exact grouped.drained
    · rw [noneDrained]
      exact grouped.holding
  | merged earlier group split queued continued =>
    have length : (earlier ++ [group.append event]).length = pump.groups.length := by
      rw [split, length_append, length_append]
      rfl
    have notAll : first <= earlier.length := by
      have longer : pump.groups.length = earlier.length + 1 := by
        rw [split, length_append]
        rfl
      by_contra all
      apply queued
      rw [items, show pump.groups.length - first = 0 by omega]
      rfl
    refine ⟨?_, ?_, ⟨first, ?_, ?_, ?_, ?_⟩, ?_, ?_⟩
    · rw [oneProduced, grouped.produced]
      rw [split, flatMap_append, flatMap_append, append_assoc, flatMap_singleton, flatMap_singleton,
        group.events_append]
    · intro other mem
      rcases mem_snoc.mp mem with old | new
      · exact grouped.chained other (by rw [split]; exact mem_append_left _ old)
      · rw [new]
        refine Group.chain_append (grouped.chained group ?_) continued
        rw [split]
        exact mem_append_right _ (mem_singleton.mpr rfl)
    · rw [length]
      exact bounded
    · rw [length]
      exact items
    · rw [noneDrained]
      exact taken
    · rw [noneDrained]
      exact exactly
    · have drained := grouped.drained
      rw [noneDrained]
      rw [split, take_append_of_le_length (by omega)] at drained
      rw [take_append_of_le_length (by omega)]
      exact drained
    · rw [noneDrained]
      exact grouped.holding

theorem Grouped.takes (reading : pump.reader = .reading) {place : ℕ}
  {rest : List ℕ} (items : pump.items = place :: rest) :
  Grouped settings past { pump with items := rest, reader := .holding place } := by
  rcases grouped.queue with ⟨first, _, range, taken, exactly⟩
  rw [reading] at taken exactly
  rw [items] at range
  have next : first = (drainedOf past).length := exactly True.intro
  cases left : pump.groups.length - first with
  | zero =>
    rw [left] at range
    cases range
  | succ more =>
    rw [left, range'_succ] at range
    injection range with isFirst isRest
    refine ⟨grouped.produced, grouped.chained, ⟨first + 1, ?_, ?_, ?_, ?_⟩, grouped.drained, ?_⟩
    · change first + 1 <= pump.groups.length
      omega
    · rw [isRest, show pump.groups.length - (first + 1) = more by omega]
    · change _ + 1 <= first + 1
      omega
    · intro _
      change first + 1 = _ + 1
      omega
    · intro _ same
      cases same
      rw [isFirst]
      exact next

theorem Grouped.hands {place : ℕ} (holding : pump.reader = .holding place)
  (isThere : pump.groups[place]? = some group) :
  Grouped settings (past ++ [.handed (settings.handed group)]) { pump with reader := .reading } := by
  have oneDrained : drainedOf (past ++ [.handed (settings.handed group)] : List (PumpReport Event Error)) =
      drainedOf past ++ [settings.handed group] := by
    rw [drainedOf_append]
    rfl
  have noneProduced : producedOf (past ++ [.handed (settings.handed group)] : List (PumpReport Event Error)) =
      producedOf past := by
    rw [producedOf_append]
    exact append_nil _
  have isNext := grouped.holding place holding
  rcases grouped.queue with ⟨first, bounded, range, taken, exactly⟩
  rw [holding] at taken exactly
  refine ⟨noneProduced.trans grouped.produced, grouped.chained, ⟨first, bounded, range, ?_, ?_⟩, ?_, ?_⟩
  · rw [oneDrained, length_append]
    exact taken
  · intro _
    rw [oneDrained, length_append]
    exact exactly True.intro
  · rw [oneDrained, length_append, length_singleton]
    rw [take_add_one, <- isNext, isThere, map_append, isNext, <- grouped.drained]
    rfl
  · intro _ clash
    cases clash

end

theorem Grouped.silent {settings : PumpSettings Event} {past more : List (PumpReport Event Error)}
  {pump after : Pump Event Error} (grouped : Grouped settings past pump) (noneProduced : producedOf more = [])
  (noneDrained : drainedOf more = []) (groups : after.groups = pump.groups) (items : after.items = pump.items)
  (held : after.reader.held <= pump.reader.held)
  (active : after.reader.active -> pump.reader.active /\ after.reader.held = pump.reader.held)
  (holding : ∀ place, after.reader = .holding place -> pump.reader = .holding place) :
  Grouped settings (past ++ more) after := by
  rcases grouped.queue with ⟨first, bounded, range, _, exactly⟩
  have produced : producedOf (past ++ more) = producedOf past := by
    rw [producedOf_append, noneProduced, append_nil]
  have drained : drainedOf (past ++ more) = drainedOf past := by
    rw [drainedOf_append, noneDrained, append_nil]
  refine ⟨?_, ?_, ⟨first, ?_, ?_, ?_, ?_⟩, ?_, ?_⟩
  · rw [produced, groups]
    exact grouped.produced
  · rw [groups]
    exact grouped.chained
  · rw [groups]
    exact bounded
  · rw [groups, items]
    exact range
  · rw [drained]
    omega
  · intro isActive
    rcases active isActive with ⟨wasActive, sameHeld⟩
    rw [drained, sameHeld]
    exact exactly wasActive
  · rw [drained, groups]
    exact grouped.drained
  · intro place isHolding
    rw [drained]
    exact grouped.holding place (holding place isHolding)

theorem Grouped.clears (grouped : Grouped settings past pump) :
  Grouped settings past { pump with items := [], reader := .closed } := by
  rcases grouped.queue with ⟨_, _, _, _, _⟩
  refine ⟨grouped.produced, grouped.chained, ⟨pump.groups.length, Nat.le_refl _, ?_, ?_, ?_⟩, grouped.drained, ?_⟩
  · rw [Nat.sub_self]
    rfl
  · change _ + 0 <= pump.groups.length
    omega
  · intro clash
    cases clash
  · intro _ clash
    cases clash

theorem Told.silent {past more : List (PumpReport Event Error)} {pump after : Pump Event Error} (told : Told past pump)
  (noneFailed : ∀ error, .failed error ∉ more) (noneRaised : ∀ error, .raised error ∉ more)
  (notReturned : .returned ∉ more) (error : after.error = pump.error)
  (work : after.work = .running -> pump.work = .running) (active : after.reader.active -> pump.reader.active)
  (closing : pump.work = .finished -> ¬ pump.reader.active -> (drainedOf past).length = pump.groups.length ->
    after.work = .finished /\ (drainedOf (past ++ more)).length = after.groups.length) :
  Told (past ++ more) after := by
  have old {report : PumpReport Event Error} (mem : report ∈ past ++ more) (notNew : report ∉ more) : report ∈ past :=
    (mem_append.mp mem).resolve_right notNew
  refine ⟨?_, ?_, ?_, ?_, ?_, ?_⟩
  · intro isRunning
    rcases told.running (work isRunning) with ⟨noError, unfailed⟩
    refine ⟨error.trans noError, fun found mem => unfailed found (old mem (noneFailed found))⟩
  · intro found isError
    exact mem_append_left _ (told.failed found (error.symm.trans isError))
  · intro found mem isActive
    rw [error]
    exact told.waiting found (old mem (noneFailed found)) (active isActive)
  · intro found mem
    exact mem_append_left _ (told.raised found (old mem (noneRaised found)))
  · intro mem found isFailed
    exact told.returned (old mem notReturned) found (old isFailed (noneFailed found))
  · intro ends
    have wasOver : (∃ found, .raised found ∈ past) \/ .returned ∈ past := by
      rcases ends with ⟨found, isRaised⟩ | isReturned
      · exact .inl ⟨found, old isRaised (noneRaised found)⟩
      · exact .inr (old isReturned notReturned)
    rcases told.closing wasOver with ⟨isFinished, inactive, all⟩
    rcases closing isFinished inactive all with ⟨stillFinished, stillAll⟩
    exact ⟨stillFinished, fun isActive => inactive (active isActive), stillAll⟩

theorem Told.fails (told : Told past pump) (running : pump.work = .running) (error : Error) :
  Told (past ++ [.failed error]) { pump with work := .over, error := some error } := by
  rcases told.running running with ⟨_, unfailed⟩
  have notOver (ends : (∃ found, .raised found ∈ past) \/ .returned ∈ past) : False := by
    have isFinished := (told.closing ends).1
    rw [running] at isFinished
    cases isFinished
  have old {report : PumpReport Event Error} (mem : report ∈ past ++ [.failed error]) (other : report ≠ .failed error) :
      report ∈ past := (mem_append.mp mem).resolve_right (fun new => other (mem_singleton.mp new))
  refine ⟨nofun, ?_, ?_, ?_, ?_, ?_⟩
  · intro found isError
    cases isError
    exact mem_append_right _ (mem_singleton.mpr rfl)
  · intro found mem _
    rcases mem_snoc.mp mem with before | new
    · exact absurd before (unfailed found)
    · cases new
      rfl
  · intro found mem
    exact (notOver (.inl ⟨found, old mem nofun⟩)).elim
  · intro mem
    exact (notOver (.inr (old mem nofun))).elim
  · rintro (⟨found, isRaised⟩ | isReturned)
    · exact (notOver (.inl ⟨found, old isRaised nofun⟩)).elim
    · exact (notOver (.inr (old isReturned nofun))).elim

theorem Told.ends {settings : PumpSettings Event} {past : List (PumpReport Event Error)} {pump : Pump Event Error}
  (told : Told past pump) (grouped : Grouped settings past pump) (reading : pump.reader = .reading)
  (items : pump.items = []) (finished : pump.work = .finished) :
  Told (past ++ match pump.error with
    | some error => [.raised error]
    | none => [.returned]) { pump with drained := true, error := none, reader := .ended } := by
  have isActive : pump.reader.active := by
    rw [reading]
    exact True.intro
  have all : (drainedOf past).length = pump.groups.length := by
    rcases grouped.queue with ⟨first, _, range, _, exactly⟩
    have next := exactly isActive
    rw [reading] at next
    have nothing : pump.groups.length - first = 0 := by
      have lengths := congrArg length range
      rw [items, length_range'] at lengths
      exact lengths.symm
    change first = _ + 0 at next
    omega
  have notOver (ends : (∃ found, .raised found ∈ past) \/ .returned ∈ past) : False :=
    (told.closing ends).2.1 isActive
  cases isError : pump.error with
  | some error =>
    refine ⟨?_, nofun, nofun, ?_, ?_, ?_⟩
    · intro running
      rw [finished] at running
      cases running
    · intro found mem
      rcases mem_snoc.mp mem with before | new
      · exact (notOver (.inl ⟨found, before⟩)).elim
      · cases new
        exact mem_append_left _ (told.failed error isError)
    · intro mem
      rcases mem_snoc.mp mem with before | new
      · exact (notOver (.inr before)).elim
      · cases new
    · intro _
      refine ⟨finished, nofun, ?_⟩
      rw [drainedOf_append]
      exact (congrArg length (append_nil _)).trans all
  | none =>
    have unfailed (found : Error) (mem : .failed found ∈ past) : False := by
      have waits := told.waiting found mem isActive
      rw [isError] at waits
      cases waits
    refine ⟨?_, nofun, nofun, ?_, ?_, ?_⟩
    · intro running
      rw [finished] at running
      cases running
    · intro found mem
      rcases mem_snoc.mp mem with before | new
      · exact (notOver (.inl ⟨found, before⟩)).elim
      · cases new
    · intro _ found mem
      rcases mem_snoc.mp mem with before | new
      · exact unfailed found before
      · cases new
    · intro _
      refine ⟨finished, nofun, ?_⟩
      rw [drainedOf_append]
      exact (congrArg length (append_nil _)).trans all

structure PumpKept (settings : PumpSettings Event) (past : List (PumpReport Event Error)) (pump : Pump Event Error) : Prop where
  grouped : Grouped settings past pump
  told : Told past pump

theorem pumpKept_start (settings : PumpSettings Event) :
  PumpKept settings ([] : List (PumpReport Event Error)) Pump.start := by
  refine ⟨⟨rfl, nofun, ⟨0, Nat.le_refl _, rfl, Nat.le_refl _, fun _ => rfl⟩, rfl, ?_⟩, ?_⟩
  · intro _ clash
    cases clash
  · refine ⟨fun _ => ⟨rfl, nofun⟩, ?_, ?_, ?_, ?_, ?_⟩
    · intro error clash
      cases clash
    · intro error clash
      cases clash
    · intro error clash
      cases clash
    · intro clash
      cases clash
    · rintro (⟨error, clash⟩ | clash)
      · cases clash
      · cases clash

theorem PumpKept.step {more : List (PumpReport Event Error)}
  {after : Pump Event Error} (kept : PumpKept settings past pump) {action : PumpAction Event Error}
  (stepped : pump.step settings action = some (after, more)) : PumpKept settings (past ++ more) after := by
  cases action with
  | push event =>
    simp only [Pump.step] at stepped
    split at stepped
    · rename_i running
      cases stepped
      refine ⟨kept.grouped.push event, kept.told.silent (by simp) (by simp) (by simp) rfl (fun _ => running)
        (fun isActive => isActive) ?_⟩
      intro finished
      rw [running] at finished
      cases finished
    · cases stepped
  | fail error =>
    simp only [Pump.step] at stepped
    split at stepped
    · rename_i running
      cases stepped
      exact ⟨kept.grouped.silent rfl rfl rfl rfl (Nat.le_refl _) (fun isActive => ⟨isActive, rfl⟩) (fun _ same => same),
        kept.told.fails running error⟩
    · cases stepped
  | exhaust =>
    simp only [Pump.step] at stepped
    split at stepped
    · rename_i running
      cases stepped
      refine ⟨kept.grouped.silent rfl rfl rfl rfl (Nat.le_refl _) (fun isActive => ⟨isActive, rfl⟩) (fun _ same => same),
        kept.told.silent (by simp) (by simp) (by simp) rfl (fun _ => running) (fun isActive => isActive) ?_⟩
      intro finished
      rw [running] at finished
      cases finished
    · cases stepped
  | finish =>
    simp only [Pump.step] at stepped
    split at stepped
    · rename_i isOver
      cases stepped
      refine ⟨kept.grouped.silent rfl rfl rfl rfl (Nat.le_refl _) (fun isActive => ⟨isActive, rfl⟩) (fun _ same => same),
        kept.told.silent (by simp) (by simp) (by simp) rfl nofun (fun isActive => isActive) ?_⟩
      intro finished
      rw [isOver] at finished
      cases finished
    · cases stepped
  | take =>
    simp only [Pump.step] at stepped
    split at stepped
    · rename_i reading
      unfold Pump.take at stepped
      split at stepped
      · rename_i place rest items
        cases stepped
        rw [append_nil]
        have grouped := kept.grouped.takes reading items
        have told := @Told.silent _ _ past [] pump { pump with items := rest, reader := .holding place } kept.told
          (by simp) (by simp) (by simp) rfl (fun running => running) (fun _ => by rw [reading]; exact True.intro)
          (fun _ inactive => (inactive (by rw [reading]; exact True.intro)).elim)
        rw [append_nil] at told
        exact ⟨grouped, told⟩
      · rename_i items
        split at stepped
        · rename_i finished
          have grouped := kept.grouped
          have told := kept.told.ends grouped reading items finished
          cases stepped
          refine ⟨grouped.silent ?_ ?_ rfl rfl (Nat.zero_le _) nofun
            nofun, told⟩
          · cases pump.error <;> rfl
          · cases pump.error <;> rfl
        · cases stepped
    · cases stepped
  | hand =>
    simp only [Pump.step] at stepped
    split at stepped
    · rename_i place holding
      rcases map_eq_some_iff.mp stepped with ⟨_, isThere, same⟩
      cases same
      refine ⟨kept.grouped.hands holding isThere, kept.told.silent (by simp) (by simp) (by simp) rfl (fun running => running)
        (fun _ => by rw [holding]; exact True.intro) ?_⟩
      exact fun _ inactive => (inactive (by rw [holding]; exact True.intro)).elim
    · cases stepped
  | disconnect =>
    simp only [Pump.step] at stepped
    split at stepped
    · rename_i idle
      cases stepped
      refine ⟨kept.grouped.silent rfl rfl rfl rfl (Nat.zero_le _) nofun
        nofun, kept.told.silent (by simp) (by simp) (by simp) rfl (fun running => running)
        nofun ?_⟩
      intro finished _ all
      rw [append_nil]
      exact ⟨finished, all⟩
    · cases stepped
  | clear =>
    simp only [Pump.step] at stepped
    split at stepped
    · cases stepped
      rw [append_nil]
      have told := @Told.silent _ _ past [] pump { pump with items := [], reader := .closed } kept.told (by simp) (by simp)
        (by simp) rfl (fun running => running) nofun
        (fun finished _ all => ⟨finished, by rw [append_nil]; exact all⟩)
      rw [append_nil] at told
      exact ⟨kept.grouped.clears, told⟩
    · cases stepped

theorem pumpKept_trace (trace : (pumpMachine settings).Trace (pumpReport settings) past pump) :
  PumpKept settings past pump := by
  refine Machine.Trace.induct ?_ ?_ trace
  · intro fresh isInitial
    rw [show fresh = Pump.start from isInitial]
    exact pumpKept_start settings
  · intro _ before action kept allowed
    rcases isSome_iff_exists.mp allowed with ⟨outcome, stepped⟩
    rcases outcome with ⟨after, more⟩
    have reported : pumpReport settings before action = more := by
      unfold pumpReport
      rw [stepped]
      rfl
    have reached : (pumpMachine settings).next before action = after := by
      change ((before.step settings action).map Prod.fst).getD before = after
      rw [stepped]
      rfl
    rw [reported, reached]
    exact kept.step stepped

variable {Start Outcome : Type}

def answerSettings (maxEvents : ℕ) : PumpSettings (StreamEvent Start Outcome) := ⟨maxEvents, some continues, joined⟩

def StreamEvent.spoken (thinking : Bool) : StreamEvent Start Outcome -> Text
  | .delta text flag => if flag = thinking then text else []
  | _ => []

variable {events : List (StreamEvent Start Outcome)}

theorem deltas_of_chain {text : Text} {flag : Bool}
  (chain : (.delta text flag :: events).IsChain fun last event => continues last event = true) :
  ∀ event ∈ events, ∃ more, event = .delta more flag := by
  induction events generalizing text with
  | nil =>
    intro event clash
    cases clash
  | cons next rest ih =>
    rcases isChain_cons_cons.mp chain with ⟨continued, later⟩
    cases next with
    | queued position | started start | finished outcome => cases continued
    | delta more other =>
      have same : flag = other := of_decide_eq_true continued
      subst same
      intro event mem
      rcases mem_cons.mp mem with isFirst | isLater
      · exact ⟨more, isFirst⟩
      · exact ih later event isLater

theorem positions_of_chain {position : ℕ}
  (chain : (.queued position :: events).IsChain fun last event => continues last event = true) :
  ∀ event ∈ events, ∃ more, event = .queued more := by
  induction events generalizing position with
  | nil =>
    intro event clash
    cases clash
  | cons next rest ih =>
    rcases isChain_cons_cons.mp chain with ⟨continued, later⟩
    cases next with
    | delta text thinking | started start | finished outcome => cases continued
    | queued more =>
      intro event mem
      rcases mem_cons.mp mem with isFirst | isLater
      · exact ⟨more, isFirst⟩
      · exact ih later event isLater

theorem handed_spoken (maxEvents : ℕ) (thinking : Bool) {group : Group (StreamEvent Start Outcome)}
  (chain : group.events.IsChain fun last event => (answerSettings maxEvents).merges last event = true) :
  ((answerSettings maxEvents).handed group).spoken thinking = group.events.flatMap (StreamEvent.spoken thinking) := by
  rcases group with ⟨first, rest⟩
  unfold Group.events at chain ⊢
  rw [flatMap_cons]
  cases rest with
  | nil => exact (append_nil _).symm
  | cons next others =>
    cases first with
    | started start | finished outcome => cases (isChain_cons_cons.mp chain).1
    | queued position =>
      have queued := positions_of_chain chain
      have silent : (next :: others).flatMap (StreamEvent.spoken thinking) = [] := by
        rw [flatMap_eq_nil_iff]
        intro event mem
        rcases queued event mem with ⟨more, isQueued⟩
        rw [isQueued]
        rfl
      rw [silent]
      change ((next :: others).getLast?.getD (.queued position)).spoken thinking = []
      cases isLast : (next :: others).getLast? with
      | none => rfl
      | some last =>
        rcases queued last (mem_of_getLast? isLast) with ⟨more, isQueued⟩
        rw [getD_some, isQueued]
        rfl
    | delta text flag =>
      have deltas := deltas_of_chain chain
      change (if flag = thinking then text ++ (next :: others).flatMap StreamEvent.text else []) =
        (if flag = thinking then text else []) ++ _
      by_cases same : flag = thinking
      · rw [if_pos same, if_pos same]
        congr 1
        apply flatMap_congr
        intro event mem
        rcases deltas event mem with ⟨more, isDelta⟩
        rw [isDelta]
        change more = if flag = thinking then more else []
        rw [if_pos same]
      · rw [if_neg same, if_neg same, nil_append]
        symm
        rw [flatMap_eq_nil_iff]
        intro event mem
        rcases deltas event mem with ⟨_, isDelta⟩
        rw [isDelta]
        exact if_neg same

theorem merged_spoken {maxEvents : ℕ} (thinking : Bool) {read drained : List (StreamEvent Start Outcome)}
  (merged : Merged (answerSettings maxEvents) read drained) :
  drained.flatMap (StreamEvent.spoken thinking) = read.flatMap (StreamEvent.spoken thinking) := by
  induction merged with
  | nil => rfl
  | group chain _ ih =>
    rw [flatMap_cons, flatMap_append, ih, handed_spoken maxEvents thinking chain]

theorem Grouped.split (grouped : Grouped settings past pump) :
  ∃ read left, producedOf past = read ++ left /\ Merged settings read (drainedOf past) /\
      ((drainedOf past).length = pump.groups.length -> left = []) := by
  let taken := (drainedOf past).length
  refine ⟨(pump.groups.take taken).flatMap Group.events, (pump.groups.drop taken).flatMap Group.events, ?_, ?_, ?_⟩
  · rw [<- flatMap_append, take_append_drop]
    exact grouped.produced
  · have chained : Chained settings (pump.groups.take taken) :=
      fun group mem => grouped.chained group (mem_of_mem_take mem)
    have merged := merged_groups chained
    rw [<- grouped.drained] at merged
    exact merged
  · intro all
    rw [drop_of_length_le (Nat.le_of_eq all.symm)]
    rfl

theorem Grouped.canRead (grouped : Grouped settings past pump) :
  (pump.reader = .reading -> pump.items ≠ [] \/ pump.work = .finished -> (pump.step settings .take).isSome) /\
    (∀ place, pump.reader = .holding place -> (pump.step settings .hand).isSome) := by
  constructor
  · intro reading something
    simp only [Pump.step]
    rw [if_pos reading]
    unfold Pump.take
    cases items : pump.items with
    | cons place rest => rfl
    | nil =>
      have finished := something.resolve_left (· items)
      rw [if_pos finished]
      rfl
  · intro place holding
    have isNext := grouped.holding place holding
    rcases grouped.queue with ⟨first, _, _, taken, _⟩
    rw [holding] at taken
    have inside : place < pump.groups.length := by
      change _ + 1 <= first at taken
      omega
    simp only [Pump.step]
    rw [holding]
    dsimp only
    rw [getElem?_eq_getElem inside]
    rfl

/-- The reader of an answer gets what was produced, in order, with runs of pieces as one. -/
theorem answer_drained {maxEvents : ℕ} {past : List (PumpReport (StreamEvent Start Outcome) Error)}
  {pump : Pump (StreamEvent Start Outcome) Error}
  (trace : (pumpMachine (answerSettings maxEvents)).Trace (pumpReport (answerSettings maxEvents)) past pump) :
  (∃ read left,
    producedOf past = read ++ left /\ Merged (answerSettings maxEvents) read (drainedOf past) /\
      (∀ thinking, (drainedOf past).flatMap (StreamEvent.spoken thinking) =
        read.flatMap (StreamEvent.spoken thinking)) /\
      ((∃ error, .raised error ∈ past) \/ .returned ∈ past -> left = [])) /\
    (∀ error, .raised error ∈ past -> .failed error ∈ past) /\
    (.returned ∈ past -> ∀ error, .failed error ∉ past) /\
    (pump.reader = .reading -> pump.items ≠ [] \/ pump.work = .finished ->
      (pumpMachine (answerSettings maxEvents)).enabled pump .take) /\
    (∀ place, pump.reader = .holding place -> (pumpMachine (answerSettings maxEvents)).enabled pump .hand) := by
  have kept := pumpKept_trace trace
  rcases kept.grouped.split with ⟨read, left, produced, merged, whole⟩
  refine ⟨⟨read, left, produced, merged, fun thinking => merged_spoken thinking merged, ?_⟩, kept.told.raised,
    kept.told.returned, kept.grouped.canRead.1, kept.grouped.canRead.2⟩
  intro ends
  exact whole (kept.told.closing ends).2.2

def interleaved : List (PumpAction (StreamEvent Unit Unit) ℕ) :=
  [.push (.queued 2), .push (.queued 1), .take, .push (.delta [.scalar 'a'] false), .hand,
    .push (.delta [.scalar 'b'] false), .take, .push (.delta [.scalar 'c'] false), .fail 7, .hand, .finish,
    .take, .hand, .take]

instance decidablePumpEnabled [DecidableEq Event] (settings : PumpSettings Event) (pump : Pump Event Error)
  (action : PumpAction Event Error) : Decidable ((pumpMachine settings).enabled pump action) :=
  inferInstanceAs (Decidable ((pump.step settings action).isSome))

theorem answer_drained_interleaved :
  drainedOf ((pumpMachine (answerSettings 1)).reports (pumpReport (answerSettings 1)) Pump.start interleaved) =
      [.queued 1, .delta [.scalar 'a', .scalar 'b'] false, .delta [.scalar 'c'] false] /\
    ∃ read left,
      producedOf ([] ++ (pumpMachine (answerSettings 1)).reports (pumpReport (answerSettings 1)) Pump.start interleaved) =
          read ++ left /\ left = [] := by
  have admitted : (pumpMachine (answerSettings 1)).Admits Pump.start interleaved := by decide +kernel
  rcases (answer_drained ((Machine.Trace.start rfl).run interleaved admitted)).1 with ⟨read, left, produced, _, _, whole⟩
  refine ⟨by decide +kernel, read, left, produced, whole (.inl ⟨7, ?_⟩)⟩
  decide +kernel

end BananaChat.Answers

import BananaChat.Subscriptions.Catalog

namespace BananaChat.Subscriptions.Catalog

open Foundation List Function Dictionary

/-!
# What refreshes of the catalogue keep

A model that was offered and left unchecked stays excluded, through any number of
refreshes and selections, until a selection has it; a selected model comes back whenever it
is reported; and a model that was never reported is enrolled by a refresh exactly if
enrolment is automatic and the ignore list does not have it.
-/

variable {name : String} {names available selected wanted : List String} {automatic : Bool} {provider : Provider}
  {after state : State} {request : Request} {chosen : Option (List String) × Option (List String)} {rejected : Prop}
  {action : Action}

theorem mem_sortedSet : name ∈ sortedSet names ↔ name ∈ names := by
  unfold sortedSet
  rw [mem_insertionSort, mem_dedup]

theorem mem_wantedOf (name : String) (available : List String) (selection : Option (List String)) :
  name ∈ wantedOf available selection ↔ name ∈ available /\ ∀ chosen, selection = some chosen -> name ∈ chosen := by
  unfold wantedOf
  rw [mem_filter]
  refine and_congr_right (fun _ => ?_)
  cases selection with
  | none => exact iff_of_true rfl (fun chosen isNone => by cases isNone)
  | some chosen =>
    rw [decide_eq_true_eq]
    exact ⟨fun mem other same => Option.some.inj same ▸ mem, fun all => all chosen rfl⟩

theorem discovered_ok {report : Option (List String)} (isOk : discovered report = .ok available) :
  report = some available /\ available.Nodup := by
  unfold discovered at isOk
  split at isOk
  · rename_i names
    split at isOk
    · rename_i valid
      cases isOk
      exact ⟨rfl, valid.2⟩
    · cases isOk
  · cases isOk

theorem listAll_ok {ignored : String -> Bool} {rows after : List (String × Row)} (distinct : names.Nodup)
  (isOk : listAll provider automatic ignored names rows = .ok after) (name : String) :
  (name ∈ names -> ∃ row, listed provider automatic (ignored name) (get? name rows) = .ok row /\
    get? name after = some row) /\
  (name ∉ names -> get? name after = get? name rows) := by
  induction names generalizing rows with
  | nil =>
    cases isOk
    exact ⟨fun mem => absurd mem not_mem_nil, fun _ => rfl⟩
  | cons first rest ih =>
    rcases nodup_cons.mp distinct with ⟨fresh, others⟩
    rcases except_bind_ok isOk with ⟨row, isListed, later⟩
    have behind := ih others later
    by_cases same : first = name
    · subst same
      refine ⟨fun _ => ⟨row, isListed, ?_⟩, fun absent => absurd (.head _) absent⟩
      rw [behind.2 fresh, get?_put, if_pos rfl]
    · rw [get?_put, if_neg same] at behind
      refine ⟨fun mem => behind.1 ?_, fun absent => behind.2 fun mem => absent (.tail _ mem)⟩
      exact (mem_cons.mp mem).resolve_left (Ne.symm same)

theorem listAll_nodup {ignored : String -> Bool} {rows after : List (String × Row)} (distinct : (rows.map Prod.fst).Nodup)
  (isOk : listAll provider automatic ignored names rows = .ok after) : (after.map Prod.fst).Nodup := by
  induction names generalizing rows with
  | nil =>
    cases isOk
    exact distinct
  | cons first rest ih =>
    rcases except_bind_ok isOk with ⟨row, _, later⟩
    exact ih (nodup_put distinct first row) later

theorem get?_changed (change : String -> Row -> Row) (name : String) (rows : List (String × Row)) :
  get? name (rows.map fun entry => (entry.1, change entry.1 entry.2)) = (get? name rows).map (change name) := by
  induction rows with
  | nil => rfl
  | cons entry rest ih =>
    rw [map_cons]
    unfold get?
    by_cases same : entry.1 = name
    · rw [if_pos same, if_pos same, <- same]
      rfl
    · rw [if_neg same, if_neg same]
      exact ih

/-- What a call does that does not raise. -/
structure Synced (request : Request) (state after : State) (available wanted : List String) : Prop where
  report : request.report = some available
  wanted_available : ∀ name ∈ wanted, name ∈ available
  others : ∀ provider, provider ≠ request.provider -> after.choices provider = state.choices provider
  listed : ∀ name ∈ wanted, ∃ row,
    listed request.provider (request.automatic (state.choices request.provider)) (request.ignored name)
      (get? name state.rows) = .ok row /\ get? name after.rows = some row
  unlisted : ∀ name, name ∉ wanted ->
    get? name after.rows = (get? name state.rows).map (marked request.provider wanted name)
  names : (state.rows.map Prod.fst).Nodup -> (after.rows.map Prod.fst).Nodup

structure Settled (request : Request) (state after : State) (available wanted : List String)
  (chosen : Option (List String) × Option (List String)) : Prop where
  isChosen : request.chosen available (state.choices request.provider) = .ok chosen
  wanted : wanted = wantedOf available (request.settled available (state.existingNames request.provider)
    (request.automatic (state.choices request.provider)) chosen.1 chosen.2).1
  selected : (after.choices request.provider).selected =
    (request.selected.map sortedSet).or (state.choices request.provider).selected
  excluded : (after.choices request.provider).excluded =
    (request.settled available (state.existingNames request.provider)
      (request.automatic (state.choices request.provider)) chosen.1 chosen.2).2.or (state.choices request.provider).excluded

variable {outcome : Outcome}

theorem sync_ok (isOk : sync request state = .ok (after, outcome)) : ∃ available wanted chosen,
    Synced request state after available wanted /\ Settled request state after available wanted chosen := by
  rcases except_bind_ok isOk with ⟨available, isDiscovered, isOk⟩
  rcases except_bind_ok isOk with ⟨chosen, isChosen, isOk⟩
  rcases except_bind_ok isOk with ⟨_, isListed, isOk⟩
  cases isOk
  rcases discovered_ok isDiscovered with ⟨isReport, distinct⟩
  have listedAll := listAll_ok (distinct.filter _) isListed
  refine ⟨available, _, chosen, ⟨isReport, ?_, ?_, ?_, ?_, ?_⟩, isChosen, rfl, ?_, ?_⟩
  · exact fun name mem => ((mem_wantedOf name _ _).mp mem).1
  · exact fun provider other => update_of_ne other _ _
  · intro name mem
    rcases (listedAll name).1 mem with ⟨row, isRow, found⟩
    refine ⟨row, isRow, ?_⟩
    unfold markAll
    rw [get?_changed, found, Option.map_some]
    unfold marked isAbsent
    rw [if_neg]
    intro absent
    exact (of_decide_eq_true absent).2.1 mem
  · intro name absent
    unfold markAll
    rw [get?_changed, (listedAll name).2 absent]
  · intro names
    unfold markAll
    rw [map_map]
    exact listAll_nodup names isListed
  · dsimp only
    rw [update_self]
  · dsimp only
    rw [update_self]

structure Decided (name : String) (rejected : Prop) (selected excluded : Option (List String)) : Prop where
  selected : ∃ names, selected = some names /\ (name ∈ names ↔ ¬ rejected)
  excluded : ∃ names, excluded = some names /\ (name ∈ names ↔ rejected)

variable {choices : Choices}

section

variable (isExplicit : request.selected = some selected) (isChosen : request.chosen available choices = .ok chosen)
include isExplicit isChosen

theorem chosen_decided
  (known : name ∈ available \/ name ∈ choices.excluded.getD []) : Decided name (name ∉ selected) chosen.1 chosen.2 := by
  unfold Request.chosen at isChosen
  rw [isExplicit] at isChosen
  dsimp only at isChosen
  split at isChosen
  · rename_i valid
    cases isChosen
    refine ⟨⟨_, rfl, ?_⟩, ⟨_, rfl, ?_⟩⟩
    · rw [mem_sortedSet, not_not]
    · rw [mem_sortedSet, mem_append, mem_filter, mem_filter, decide_eq_true_eq, decide_eq_true_eq]
      constructor
      · rintro (⟨_, unavailable⟩ | ⟨_, unselected⟩)
        · exact fun isSelected => unavailable (valid.2 name isSelected)
        · exact unselected
      · intro unselected
        by_cases isAvailable : name ∈ available
        · exact .inr ⟨isAvailable, unselected⟩
        · exact .inl ⟨known.resolve_left isAvailable, isAvailable⟩
  · cases isChosen

theorem selected_available (isSelected : name ∈ selected) : name ∈ available := by
  unfold Request.chosen at isChosen
  rw [isExplicit] at isChosen
  dsimp only at isChosen
  split at isChosen
  · rename_i valid
    exact valid.2 name isSelected
  · cases isChosen

end

theorem settled_decided (request : Request) (available existing : List String) (automatic : Bool)
  {selection excluded : Option (List String)} (decided : Decided name rejected selection excluded) :
  (name ∈ wantedOf available (request.settled available existing automatic selection excluded).1 ↔
    name ∈ available /\ ¬ rejected) /\
    (request.settled available existing automatic selection excluded).2 = excluded := by
  rcases decided with ⟨⟨chosen, isChosen, inChosen⟩, ⟨_, isLeft, inLeft⟩⟩
  rw [mem_wantedOf]
  unfold Request.settled
  cases automatic with
  | true =>
    rw [if_pos rfl, isLeft]
    refine ⟨and_congr_right (fun isAvailable => ?_), rfl⟩
    rw [<- inLeft]
    constructor
    · intro all
      have mem := mem_sortedSet.mp (all _ rfl)
      rw [mem_filter, decide_eq_true_eq] at mem
      exact mem.2
    · intro unexcluded names isNames
      cases isNames
      rw [mem_sortedSet, mem_filter, decide_eq_true_eq]
      exact ⟨isAvailable, unexcluded⟩
  | false =>
    rw [if_neg Bool.false_ne_true, if_neg fun both => by rw [isChosen] at both; cases both.1]
    refine ⟨and_congr_right (fun _ => ?_), rfl⟩
    rw [<- inChosen, isChosen]
    exact ⟨fun all => all chosen rfl, fun mem names same => Option.some.inj same ▸ mem⟩

def State.Decided (state : State) (provider : Provider) (name : String) (rejected : Prop) : Prop :=
  Catalog.Decided name rejected (state.choices provider).selected (state.choices provider).excluded

theorem decided_select (settled : Settled request state after available wanted chosen)
  (isExplicit : request.selected = some selected)
  (known : name ∈ available \/ name ∈ (state.choices request.provider).excluded.getD []) :
  after.Decided request.provider name (name ∉ selected) /\ (name ∈ wanted ↔ name ∈ available /\ name ∈ selected) := by
  have decided := chosen_decided isExplicit settled.isChosen known
  have goes := settled_decided request available (state.existingNames request.provider)
    (request.automatic (state.choices request.provider)) decided
  refine ⟨⟨?_, ?_⟩, ?_⟩
  · rw [settled.selected, isExplicit]
    exact ⟨_, rfl, by rw [mem_sortedSet, not_not]⟩
  · rcases decided.excluded with ⟨names, isExcluded, inNames⟩
    rw [settled.excluded, goes.2, isExcluded]
    exact ⟨names, rfl, inNames⟩
  · rw [settled.wanted, goes.1, not_not]

theorem decided_refresh (settled : Settled request state after available wanted chosen)
  (isRefresh : request.selected = none) (decided : state.Decided request.provider name rejected) :
  after.Decided request.provider name rejected /\ (name ∈ wanted ↔ name ∈ available /\ ¬ rejected) := by
  have isChosen := settled.isChosen
  unfold Request.chosen at isChosen
  rw [isRefresh] at isChosen
  cases isChosen
  have goes := settled_decided request available (state.existingNames request.provider)
    (request.automatic (state.choices request.provider)) decided
  refine ⟨⟨?_, ?_⟩, ?_⟩
  · rw [settled.selected, isRefresh]
    exact decided.selected
  · rcases decided.excluded with ⟨names, isExcluded, inNames⟩
    rw [settled.excluded, goes.2, isExcluded]
    exact ⟨names, rfl, inNames⟩
  · rw [settled.wanted, goes.1]

def State.model (state : State) (provider : Provider) (name : String) : Option Row :=
  (get? name state.rows).filter (·.backend = .subscription provider)

variable {row : Row}

theorem model_eq_some : state.model provider name = some row ↔
    get? name state.rows = some row /\ row.backend = .subscription provider := by
  unfold State.model
  rw [Option.filter_eq_some_iff, decide_eq_true_eq]

theorem marked_backend (provider : Provider) (names : List String) (name : String) (row : Row) :
  (marked provider names name row).backend = row.backend := by
  unfold marked
  split
  · rfl
  · rfl

theorem marked_other (names : List String) (name : String) (other : row.backend ≠ .subscription provider) :
  marked provider names name row = row := by
  unfold marked isAbsent
  rw [if_neg]
  intro absent
  exact other (of_decide_eq_true absent).1

theorem listed_ok {ignored : Bool} {before : Option Row}
  (isListed : listed provider automatic ignored before = .ok row) :
  row.backend = .subscription provider /\ row.available /\ row.missing = false /\
    ∀ own, before = some own -> own.backend = .subscription provider := by
  rcases except_bind_ok isListed with ⟨first, isFound, isListed⟩
  have facts : first.backend = .subscription provider /\ first.available /\ first.missing = false /\
      ∀ own, before = some own -> own.backend = .subscription provider := by
    unfold found at isFound
    split at isFound
    · cases isFound
      exact ⟨rfl, rfl, rfl, fun own isOwn => by cases isOwn⟩
    · rename_i own
      split at isFound
      · rename_i same
        cases isFound
        exact ⟨same, rfl, rfl, fun other isOther => Option.some.inj isOther ▸ same⟩
      · cases isFound
  split at isListed
  · cases isListed
    exact facts
  · split at isListed
    · cases isListed
      exact facts
    · cases isListed
      exact facts

section

variable (synced : Synced request state after available wanted)
include synced

theorem model_other (other : provider ≠ request.provider)
  (name : String) : after.model provider name = state.model provider name := by
  have apart : Backend.subscription request.provider ≠ .subscription provider :=
    fun same => other (Backend.subscription.inj same).symm
  by_cases isWanted : name ∈ wanted
  · rcases synced.listed name isWanted with ⟨_, isListed, isRow⟩
    have facts := listed_ok isListed
    unfold State.model
    rw [isRow, Option.filter_some, if_neg (by rw [decide_eq_true_eq, facts.1]; exact apart)]
    cases before : get? name state.rows with
    | none => rfl
    | some own =>
      rw [Option.filter_some, if_neg (by rw [decide_eq_true_eq, facts.2.2.2 own before]; exact apart)]
  · unfold State.model
    rw [synced.unlisted name isWanted]
    cases get? name state.rows with
    | none => rfl
    | some own =>
      rw [Option.map_some, Option.filter_some, Option.filter_some, marked_backend]
      by_cases isOwn : own.backend = .subscription provider
      · rw [marked_other wanted name fun same => apart (same.symm.trans isOwn)]
      · rw [if_neg (by rw [decide_eq_true_eq]; exact isOwn), if_neg (by rw [decide_eq_true_eq]; exact isOwn)]

theorem model_unwanted (unwanted : name ∉ wanted) :
  after.model request.provider name = (state.model request.provider name).map (marked request.provider wanted name) := by
  unfold State.model
  rw [synced.unlisted name unwanted]
  cases get? name state.rows with
  | none => rfl
  | some own =>
    rw [Option.map_some, Option.filter_some, Option.filter_some, marked_backend]
    split
    · rfl
    · rfl

theorem model_wanted (isWanted : name ∈ wanted) :
  ∃ row, listed request.provider (request.automatic (state.choices request.provider)) (request.ignored name)
    (state.model request.provider name) = .ok row /\ after.model request.provider name = some row := by
  rcases synced.listed name isWanted with ⟨row, isListed, isRow⟩
  have facts := listed_ok isListed
  have same : state.model request.provider name = get? name state.rows := by
    unfold State.model
    cases before : get? name state.rows with
    | none => rfl
    | some own => rw [Option.filter_some, if_pos (decide_eq_true (facts.2.2.2 own before))]
  rw [same]
  exact ⟨row, isListed, model_eq_some.mpr ⟨isRow, facts.1⟩⟩

end

structure State.Sound (state : State) : Prop where
  names : (state.rows.map Prod.fst).Nodup
  missing : ∀ provider name row, state.model provider name = some row -> row.missing -> row.available = false

theorem model_withdraw (provider other : Provider) (state : State) (name : String) :
  (withdraw provider state).1.model other name = (state.model other name).map (fun row =>
    if decide (row.backend = .subscription provider) && row.available then
      { row with available := false, reason := withdrawnReason } else row) := by
  unfold State.model withdraw
  rw [get?_changed (fun _ row => if decide (row.backend = .subscription provider) && row.available then
    { row with available := false, reason := withdrawnReason } else row)]
  cases get? name state.rows with
  | none => rfl
  | some row =>
    rw [Option.map_some]
    split
    · rw [Option.filter_some, Option.filter_some]
      split
      · rename_i withdrawn _
        rw [Option.map_some, if_pos withdrawn]
      · rfl
    · rw [Option.filter_some]
      split
      · rename_i offered _
        rw [Option.map_some, if_neg offered]
      · rfl

theorem perform_cases (state : State) (action : Action) : (∃ request after outcome,
    action = .sync request /\ sync request state = .ok (after, outcome) /\ perform state action = after) \/
  perform state action = state \/
  (∃ provider, perform state action = (withdraw provider state).1) := by
  cases action with
  | sync request =>
    cases result : sync request state with
    | ok pair =>
      refine .inl ⟨request, pair.1, pair.2, rfl, result, ?_⟩
      unfold perform
      dsimp only
      rw [result]
    | error message =>
      refine .inr (.inl ?_)
      unfold perform
      dsimp only
      rw [result]
  | withdraw provider => exact .inr (.inr ⟨provider, rfl⟩)

theorem sound_fresh (fresh : state.Fresh) : state.Sound := by
  refine ⟨fresh.names, fun provider name row isRow => ?_⟩
  rcases model_eq_some.mp isRow with ⟨found, own⟩
  exact absurd own (fresh.others _ ((mem_iff_get? fresh.names).mpr found) provider)

theorem sound_step (sound : state.Sound) (action : Action) : (perform state action).Sound := by
  rcases perform_cases state action with ⟨request, _, _, _, isOk, same⟩ | same | ⟨provider, same⟩
  · rw [same]
    rcases sync_ok isOk with ⟨_, wanted, _, synced, _⟩
    refine ⟨synced.names sound.names, fun provider name row isRow isMissing => ?_⟩
    by_cases own : provider = request.provider
    · subst own
      by_cases isWanted : name ∈ wanted
      · rcases model_wanted synced isWanted with ⟨_, isListed, found⟩
        cases isRow.symm.trans found
        exact absurd ((listed_ok isListed).2.2.1.symm.trans isMissing) Bool.false_ne_true
      · rw [model_unwanted synced isWanted] at isRow
        rcases Option.map_eq_some_iff.mp isRow with ⟨before, isBefore, isMarked⟩
        subst isMarked
        unfold marked at isMissing ⊢
        split
        · rfl
        · rename_i unmarked
          rw [if_neg unmarked] at isMissing
          exact sound.missing _ name before isBefore isMissing
    · rw [model_other synced own] at isRow
      exact sound.missing provider name row isRow isMissing
  · rw [same]
    exact sound
  · rw [same]
    refine ⟨?_, fun other name row isRow isMissing => ?_⟩
    · unfold withdraw
      rw [map_map]
      exact sound.names
    · rw [model_withdraw] at isRow
      rcases Option.map_eq_some_iff.mp isRow with ⟨before, isBefore, isRow⟩
      subst isRow
      split
      · rfl
      · rename_i kept
        rw [if_neg kept] at isMissing
        exact sound.missing other name before isBefore isMissing

structure Withheld (provider : Provider) (name : String) (before after : State) : Prop where
  enrolled : (after.model provider name).map (fun row => (row.enrollment, row.rolledOut)) =
    (before.model provider name).map (fun row => (row.enrollment, row.rolledOut))
  unavailable : ∀ row, after.model provider name = some row -> row.available = false

theorem withheld_unwanted (synced : Synced request state after available wanted) (sound : state.Sound)
  (unwanted : name ∉ wanted) : Withheld request.provider name state after := by
  have isMarked := model_unwanted synced unwanted
  refine ⟨?_, fun row isRow => ?_⟩
  · rw [isMarked, Option.map_map]
    refine Option.map_congr (fun row _ => ?_)
    unfold marked
    dsimp only [comp_apply]
    split
    · rfl
    · rfl
  · rw [isMarked] at isRow
    rcases Option.map_eq_some_iff.mp isRow with ⟨before, isBefore, same⟩
    subst same
    unfold marked
    split
    · rfl
    · rename_i unmarked
      have own := (model_eq_some.mp isBefore).2
      refine sound.missing _ name before isBefore ?_
      by_contra present
      exact unmarked (decide_eq_true ⟨own, unwanted, eq_false_of_ne_true present⟩)

def Selects (provider : Provider) (name : String) (state : State) (action : Action) : Prop :=
  ∃ request : Request, ∃ selected result,
    action = .sync request /\ request.provider = provider /\ request.selected = some selected /\ name ∈ selected /\
      sync request state = .ok result

theorem rejected_step (sound : state.Sound) (decided : state.Decided provider name True)
  (unavailable : ∀ row, state.model provider name = some row -> row.available = false)
  (unselected : ¬ Selects provider name state action) :
  (perform state action).Decided provider name True /\ Withheld provider name state (perform state action) := by
  rcases perform_cases state action with ⟨request, _, _, isAction, isOk, same⟩ | same | ⟨_, same⟩
  · rw [same]
    rcases sync_ok isOk with ⟨_, _, _, synced, settled⟩
    by_cases own : provider = request.provider
    · subst own
      cases isExplicit : request.selected with
      | none =>
        rcases decided_refresh settled isExplicit decided with ⟨stays, goes⟩
        exact ⟨stays, withheld_unwanted synced sound fun isWanted => (goes.mp isWanted).2 trivial⟩
      | some selected =>
        have left : name ∉ selected := fun mem =>
          unselected ⟨request, selected, _, isAction, rfl, isExplicit, mem, isOk⟩
        rcases decided.excluded with ⟨_, isExcluded, inNames⟩
        have known : name ∈ (state.choices request.provider).excluded.getD [] := by
          rw [isExcluded]
          exact inNames.mpr trivial
        rcases decided_select settled isExplicit (.inr known) with ⟨stays, goes⟩
        rw [eq_true left] at stays
        exact ⟨stays, withheld_unwanted synced sound fun isWanted => left (goes.mp isWanted).2⟩
    · refine ⟨?_, ?_, fun row isRow => unavailable row ?_⟩
      · unfold State.Decided
        rw [synced.others provider own]
        exact decided
      · rw [model_other synced own]
      · rw [<- model_other synced own]
        exact isRow
  · rw [same]
    exact ⟨decided, rfl, unavailable⟩
  · rw [same]
    refine ⟨decided, ?_, fun row isRow => ?_⟩
    · rw [model_withdraw, Option.map_map]
      refine Option.map_congr (fun row _ => ?_)
      dsimp only [comp_apply]
      split
      · rfl
      · rfl
    · rw [model_withdraw] at isRow
      rcases Option.map_eq_some_iff.mp isRow with ⟨before, isBefore, isRow⟩
      subst isRow
      split
      · rfl
      · exact unavailable before isBefore

theorem rejected_run (later : List Action) (sound : state.Sound) (decided : state.Decided provider name True)
  (unavailable : ∀ row, state.model provider name = some row -> row.available = false)
  (unselected : (machine.guarded fun state action => ¬ Selects provider name state action).Admits state later) :
  Withheld provider name state (machine.run state later) := by
  induction later generalizing state with
  | nil => exact ⟨rfl, unavailable⟩
  | cons action rest ih =>
    rcases rejected_step sound decided unavailable unselected.1 with ⟨stays, withheld⟩
    have onward := ih (sound_step sound action) stays withheld.unavailable unselected.2
    exact ⟨onward.enrolled.trans withheld.enrolled, onward.unavailable⟩

def Chooses (provider : Provider) (state : State) (action : Action) : Prop :=
  ∃ request : Request, ∃ result,
    action = .sync request /\ request.provider = provider /\ request.selected ≠ none /\ sync request state = .ok result

theorem decided_step (decided : state.Decided provider name rejected) (unchosen : ¬ Chooses provider state action) :
  (perform state action).Decided provider name rejected := by
  rcases perform_cases state action with ⟨request, _, _, isAction, isOk, same⟩ | same | ⟨_, same⟩
  · rw [same]
    rcases sync_ok isOk with ⟨_, _, _, synced, settled⟩
    by_cases own : provider = request.provider
    · subst own
      have isRefresh : request.selected = none := by
        by_contra isExplicit
        exact unchosen ⟨request, _, isAction, rfl, isExplicit, isOk⟩
      exact (decided_refresh settled isRefresh decided).1
    · unfold State.Decided
      rw [synced.others provider own]
      exact decided
  · rw [same]
    exact decided
  · rw [same]
    exact decided

theorem decided_run (later : List Action) (decided : state.Decided provider name rejected)
  (unchosen : (machine.guarded fun state action => ¬ Chooses provider state action).Admits state later) :
  (machine.run state later).Decided provider name rejected := by
  induction later generalizing state with
  | nil => exact decided
  | cons action rest ih => exact ih (decided_step decided unchosen.1) unchosen.2

def Reports (provider : Provider) (name : String) (action : Action) : Prop :=
  ∃ request : Request, ∃ names,
    action = .sync request /\ request.provider = provider /\ request.report = some names /\ name ∈ names

structure Unknown (provider : Provider) (name : String) (state : State) : Prop where
  unlisted : state.model provider name = none
  unselected : ∀ names, (state.choices provider).selected = some names -> name ∉ names
  unexcluded : ∀ names, (state.choices provider).excluded = some names -> name ∉ names
  complete : (state.choices provider).selected ≠ none -> (state.choices provider).excluded ≠ none

theorem unknown_fresh (fresh : state.Fresh) (provider : Provider) (name : String) : Unknown provider name state := by
  refine ⟨?_, ?_, ?_, ?_⟩
  · cases found : state.model provider name with
    | none => rfl
    | some row =>
      rcases model_eq_some.mp found with ⟨isRow, own⟩
      exact absurd own (fresh.others _ ((mem_iff_get? fresh.names).mpr isRow) provider)
  · intro names isSelected
    rw [fresh.choices] at isSelected
    cases isSelected
  · intro _ isExcluded
    rw [fresh.choices] at isExcluded
    cases isExcluded
  · intro isSelected
    rw [fresh.choices] at isSelected
    exact absurd rfl isSelected

theorem excluded_from (settled : Settled request state after available wanted chosen)
  (isExcluded : (after.choices request.provider).excluded = some names) (mem : name ∈ names) :
  (∃ old, (state.choices request.provider).excluded = some old /\ name ∈ old) \/ name ∈ available := by
  have fromChosen (old : List String) (isOld : chosen.2 = some old) (inOld : name ∈ old) :
      (∃ old, (state.choices request.provider).excluded = some old /\ name ∈ old) \/ name ∈ available := by
    have isChosen := settled.isChosen
    unfold Request.chosen at isChosen
    split at isChosen
    · split at isChosen
      · cases isChosen
        cases isOld
        rw [mem_sortedSet, mem_append, mem_filter, mem_filter] at inOld
        rcases inOld with ⟨wasExcluded, _⟩ | ⟨isAvailable, _⟩
        · refine .inl ?_
          cases before : (state.choices request.provider).excluded with
          | none =>
            rw [before] at wasExcluded
            exact absurd wasExcluded not_mem_nil
          | some old =>
            rw [before] at wasExcluded
            exact ⟨old, rfl, wasExcluded⟩
        · exact .inr isAvailable
      · cases isChosen
    · cases isChosen
      exact .inl ⟨old, isOld, inOld⟩
  rw [settled.excluded] at isExcluded
  rcases Option.or_eq_some_iff.mp isExcluded with isNow | ⟨_, before⟩
  · unfold Request.settled at isNow
    split at isNow
    · rcases Option.or_eq_some_iff.mp isNow with isOld | ⟨_, legacy⟩
      · exact fromChosen names isOld mem
      · rcases Option.map_eq_some_iff.mp legacy with ⟨_, _, same⟩
        subst same
        exact .inr (mem_filter.mp (mem_sortedSet.mp mem)).1
    · split at isNow
      · exact fromChosen names isNow mem
      · exact fromChosen names isNow mem
  · exact .inl ⟨names, before, mem⟩

theorem unknown_step (unknown : Unknown provider name state) (unreported : ¬ Reports provider name action) :
  Unknown provider name (perform state action) := by
  rcases perform_cases state action with ⟨request, _, _, isAction, isOk, same⟩ | same | ⟨_, same⟩
  · rw [same]
    rcases sync_ok isOk with ⟨available, _, _, synced, settled⟩
    by_cases own : provider = request.provider
    · subst own
      have unavailable : name ∉ available := fun mem =>
        unreported ⟨request, available, isAction, rfl, synced.report, mem⟩
      refine ⟨?_, ?_, ?_, ?_⟩
      · rw [model_unwanted synced (fun isWanted => unavailable (synced.wanted_available name isWanted)), unknown.unlisted]
        rfl
      · intro names isSelected mem
        rw [settled.selected] at isSelected
        rcases Option.or_eq_some_iff.mp isSelected with isNow | ⟨_, before⟩
        · rcases Option.map_eq_some_iff.mp isNow with ⟨selected, isExplicit, sorted⟩
          subst sorted
          exact unavailable (selected_available isExplicit settled.isChosen (mem_sortedSet.mp mem))
        · exact unknown.unselected names before mem
      · intro _ isExcluded mem
        rcases excluded_from settled isExcluded mem with ⟨old, before, inOld⟩ | isAvailable
        · exact unknown.unexcluded old before inOld
        · exact unavailable isAvailable
      · intro isSelected isExcluded
        rw [settled.excluded] at isExcluded
        rcases Option.or_eq_none_iff.mp isExcluded with ⟨nothing, before⟩
        rw [settled.selected] at isSelected
        cases isExplicit : request.selected with
        | none =>
          rw [isExplicit] at isSelected
          exact unknown.complete isSelected before
        | some selected =>
          -- A selection leaves exclusions, be they empty.
          have isChosen := settled.isChosen
          unfold Request.chosen at isChosen
          rw [isExplicit] at isChosen
          dsimp only at isChosen
          split at isChosen
          · cases isChosen
            unfold Request.settled at nothing
            split at nothing
            · cases nothing
            · split at nothing
              · cases nothing
              · cases nothing
          · cases isChosen
    · refine ⟨?_, ?_, ?_, ?_⟩
      · rw [model_other synced own]
        exact unknown.unlisted
      · rw [synced.others provider own]
        exact unknown.unselected
      · rw [synced.others provider own]
        exact unknown.unexcluded
      · rw [synced.others provider own]
        exact unknown.complete
  · rw [same]
    exact unknown
  · rw [same]
    refine ⟨?_, unknown.unselected, unknown.unexcluded, unknown.complete⟩
    rw [model_withdraw, unknown.unlisted]
    rfl

theorem unknown_run (earlier : List Action) (unknown : Unknown provider name state)
  (unreported : ∀ action ∈ earlier, ¬ Reports provider name action) :
  Unknown provider name (machine.run state earlier) := by
  induction earlier generalizing state with
  | nil => exact unknown
  | cons action rest ih =>
    rcases forall_mem_cons.mp unreported with ⟨first, others⟩
    exact ih (unknown_step unknown first) others

theorem sound_run (earlier : List Action) (sound : state.Sound) : (machine.run state earlier).Sound := by
  induction earlier generalizing state with
  | nil => exact sound
  | cons action rest ih => exact ih (sound_step sound action)

def enrolledRow (provider : Provider) : Row :=
  ⟨.subscription provider, true, false, .auto, true, "Enabled automatically with strict model limits; review it."⟩

def ignoredRow (provider : Provider) : Row := ⟨.subscription provider, true, false, .ignored, false, ignoredReason⟩

theorem unknown_refresh (sound : state.Sound) (unknown : Unknown request.provider name state)
  (isRefresh : request.selected = none) (isBackground : request.background)
  (isReport : request.report = some names) (reported : name ∈ names) (isOk : sync request state = .ok (after, outcome)) :
  after.model request.provider name = if request.automatic (state.choices request.provider) then
      some (if request.ignored name then ignoredRow request.provider else enrolledRow request.provider)
    else none := by
  rcases sync_ok isOk with ⟨_, wanted, _, synced, settled⟩
  cases Option.some.inj (isReport.symm.trans synced.report)
  have isChosen := settled.isChosen
  unfold Request.chosen at isChosen
  rw [isRefresh] at isChosen
  cases isChosen
  have goes := mem_wantedOf name names (request.settled names
    (state.existingNames request.provider) (request.automatic (state.choices request.provider))
    (state.choices request.provider).selected (state.choices request.provider).excluded).1
  rw [<- settled.wanted] at goes
  cases automatic : request.automatic (state.choices request.provider) with
  | true =>
    have isWanted : name ∈ wanted := by
      refine goes.mpr ⟨reported, fun selection isSelection => ?_⟩
      unfold Request.settled at isSelection
      rw [automatic, if_pos rfl] at isSelection
      cases isSelection
      rw [mem_sortedSet, mem_filter, decide_eq_true_eq]
      refine ⟨reported, ?_⟩
      cases isExcluded : (state.choices request.provider).excluded with
      | some excluded => exact unknown.unexcluded excluded isExcluded
      | none =>
        have unselected : (state.choices request.provider).selected = none := by
          by_contra isSelected
          exact unknown.complete isSelected isExcluded
        rw [unselected]
        exact not_mem_nil
    rcases model_wanted synced isWanted with ⟨_, isListed, found⟩
    rw [found, if_pos rfl]
    rw [unknown.unlisted, automatic] at isListed
    cases isIgnored : request.ignored name with
    | true | false =>
      rw [isIgnored] at isListed
      cases isListed
      rfl
  | false =>
    have unwanted : name ∉ wanted := by
      intro isWanted
      have all := (goes.mp isWanted).2
      unfold Request.settled at all
      rw [automatic, if_neg Bool.false_ne_true] at all
      split at all
      · rcases mem_map.mp (all _ rfl) with ⟨entry, isEntry, same⟩
        rcases mem_filter.mp isEntry with ⟨mem, own⟩
        have isRow : state.model request.provider name = some entry.2 := by
          refine model_eq_some.mpr ⟨?_, of_decide_eq_true own⟩
          rw [<- same]
          exact (mem_iff_get? sound.names).mp mem
        exact Option.some_ne_none _ (isRow.symm.trans unknown.unlisted)
      · rename_i notExisting
        cases isSelected : (state.choices request.provider).selected with
        | none => exact notExisting ⟨isSelected, isBackground⟩
        | some selected => exact unknown.unselected selected isSelected (all selected isSelected)
    rw [model_unwanted synced unwanted, unknown.unlisted, if_neg Bool.false_ne_true]
    rfl

/-- Behind any history, for the calls that do not raise. -/
theorem refreshes_respect_selection (start : State) (fresh : start.Fresh) (earlier : List Action) :
  (∀ (choice : Request) (selected names : List String) (after : State) (outcome : Outcome),
    choice.selected = some selected -> choice.report = some names ->
      sync choice (machine.run start earlier) = .ok (after, outcome) -> ∀ name, name ∉ selected ->
    (name ∈ names \/ name ∈ ((machine.run start earlier).choices choice.provider).excluded.getD []) -> ∀ later,
      (machine.guarded fun state action => ¬ Selects choice.provider name state action).Admits after later ->
    Withheld choice.provider name (machine.run start earlier) (machine.run after later)) /\
  (∀ (choice : Request) (selected : List String) (after : State) (outcome : Outcome),
    choice.selected = some selected -> sync choice (machine.run start earlier) = .ok (after, outcome) ->
    ∀ name ∈ selected, ∀ later,
      (machine.guarded fun state action => ¬ Chooses choice.provider state action).Admits after later ->
    ∀ (refresh : Request) (names : List String) (final : State) (last : Outcome),
      refresh.provider = choice.provider -> refresh.selected = none -> refresh.report = some names -> name ∈ names ->
      sync refresh (machine.run after later) = .ok (final, last) ->
    ∃ row, final.model choice.provider name = some row /\ row.available /\ row.missing = false) /\
  (∀ (refresh : Request) (names : List String) (after : State) (outcome : Outcome) (name : String),
    (∀ action ∈ earlier, ¬ Reports refresh.provider name action) ->
      refresh.selected = none -> refresh.background -> refresh.report = some names -> name ∈ names ->
      sync refresh (machine.run start earlier) = .ok (after, outcome) ->
    after.model refresh.provider name =
      if refresh.automatic ((machine.run start earlier).choices refresh.provider) then
        some (if refresh.ignored name then ignoredRow refresh.provider else enrolledRow refresh.provider)
      else none) := by
  have sound := sound_run earlier (sound_fresh fresh)
  refine ⟨?_, ?_, ?_⟩
  · intro choice selected names after outcome isExplicit isReport isOk name unselected known later unselectedLater
    rcases sync_ok isOk with ⟨available, wanted, chosen, synced, settled⟩
    cases Option.some.inj (isReport.symm.trans synced.report)
    rcases decided_select settled isExplicit known with ⟨decided, goes⟩
    rw [eq_true unselected] at decided
    have first := withheld_unwanted synced sound (fun isWanted => unselected (goes.mp isWanted).2)
    have soundAfter : after.Sound := by
      have step := sound_step sound (.sync choice)
      unfold perform at step
      dsimp only at step
      rw [isOk] at step
      exact step
    have onward := rejected_run later soundAfter decided first.unavailable unselectedLater
    exact ⟨onward.enrolled.trans first.enrolled, onward.unavailable⟩
  · intro choice selected after outcome isExplicit isOk name isSelected later unchosen refresh names final last sameProvider
      isRefresh isReport reported isLast
    rcases sync_ok isOk with ⟨available, wanted, chosen, synced, settled⟩
    have offered := selected_available isExplicit settled.isChosen isSelected
    have decided := (decided_select settled isExplicit (.inl offered)).1
    have stays := decided_run later decided unchosen
    rw [<- sameProvider] at stays ⊢
    rcases sync_ok isLast with ⟨reports, listedNames, again, syncedLast, settledLast⟩
    cases Option.some.inj (isReport.symm.trans syncedLast.report)
    have isWanted := (decided_refresh settledLast isRefresh stays).2.mpr ⟨reported, not_not.mpr isSelected⟩
    rcases model_wanted syncedLast isWanted with ⟨row, isListed, found⟩
    have facts := listed_ok isListed
    exact ⟨row, found, facts.2.1, facts.2.2.1⟩
  · intro refresh names after outcome name unreported isRefresh isBackground isReport reported isOk
    exact unknown_refresh sound (unknown_run earlier (unknown_fresh fresh refresh.provider name) unreported) isRefresh
      isBackground isReport reported isOk

def automaticCall (report : List String) (selected : Option (List String)) (ignored : List String) : Request where
  provider := .codex
  report := some report
  selected := selected
  background := true
  autoEnroll := none
  policyAutomatic := true
  ignored name := name ∈ ignored

def emptyCatalog : State := ⟨[], fun _ => ⟨none, none, none⟩⟩

theorem emptyCatalog_fresh : emptyCatalog.Fresh := ⟨nodup_nil, forall_mem_nil _, fun _ => rfl⟩

def swiftLeftOut : Request := automaticCall ["slow", "swift"] (some ["slow"]) []

theorem refreshes_respect_selection_three : Withheld .codex "swift" emptyCatalog
    (machine.run (perform emptyCatalog (.sync swiftLeftOut)) [.sync (automaticCall ["slow", "swift"] none [])]) /\
  (∃ row, (machine.run (perform emptyCatalog (.sync swiftLeftOut))
      [.sync (automaticCall [] none []), .sync (automaticCall ["slow"] none [])]).model .codex "slow" = some row /\
    row.available /\ row.missing = false) /\
  (machine.run emptyCatalog [.sync swiftLeftOut, .sync (automaticCall ["slow", "third"] none [])]).model .codex "third" =
    some (enrolledRow .codex) := by
  refine ⟨?_, ?_, ?_⟩
  · refine (refreshes_respect_selection emptyCatalog emptyCatalog_fresh []).1 swiftLeftOut ["slow"] ["slow", "swift"] _ _
      rfl rfl rfl "swift" (by decide) (.inl (by decide)) [.sync (automaticCall ["slow", "swift"] none [])] ⟨?_, trivial⟩
    rintro ⟨request, selected, result, isAction, _, isExplicit, _⟩
    cases isAction
    cases isExplicit
  · refine (refreshes_respect_selection emptyCatalog emptyCatalog_fresh []).2.1 swiftLeftOut ["slow"] _ _ rfl rfl "slow"
      (by decide) [.sync (automaticCall [] none [])] ⟨?_, trivial⟩ (automaticCall ["slow"] none []) ["slow"] _ _ rfl rfl rfl
      (by decide) rfl
    rintro ⟨request, result, isAction, _, isExplicit, _⟩
    cases isAction
    exact isExplicit rfl
  · refine (refreshes_respect_selection emptyCatalog emptyCatalog_fresh [.sync swiftLeftOut]).2.2
      (automaticCall ["slow", "third"] none []) ["slow", "third"] _ _ "third" ?_ rfl rfl rfl (by decide) rfl
    rintro action mem ⟨request, names, isAction, _, isReport, reported⟩
    cases mem_singleton.mp mem
    cases isAction
    cases isReport
    revert reported
    decide

/-- Whatever is selected and refreshed, no name is listed twice, and a model marked as missing is not available. -/
theorem missing_unavailable (reachable : machine.Reachable state) : state.Sound :=
  have kept : machine.Invariant State.Sound :=
    ⟨fun _ fresh => sound_fresh fresh, fun _ action sound _ => sound_step sound action⟩
  kept.reachable reachable

theorem missing_unavailable_swift :
    (machine.run emptyCatalog [.sync swiftLeftOut, .sync (automaticCall ["swift"] none [])]).Sound := by
  have begun : machine.Reachable emptyCatalog := .start emptyCatalog_fresh
  exact missing_unavailable (begun.run _ ⟨trivial, trivial, trivial⟩)

/-- A model that is selected, and not reported at the next selection, comes back; and one on the ignore list is not enrolled. -/
theorem absent_model_returns :
  (¬ ∀ (earlier later : List Action) (choice : Request) (selected : List String) (after : State) (outcome : Outcome)
      (name : String) (row : Row), choice.selected = some selected ->
    sync choice (machine.run emptyCatalog earlier) = .ok (after, outcome) -> name ∉ selected ->
    (machine.guarded fun state action => ¬ Selects choice.provider name state action).Admits after later ->
      (machine.run after later).model choice.provider name = some row -> row.available = false) /\
  (¬ ∀ (earlier : List Action) (refresh : Request) (names : List String) (after : State) (outcome : Outcome)
      (name : String), (∀ action ∈ earlier, ¬ Reports refresh.provider name action) ->
    refresh.selected = none -> refresh.background -> refresh.report = some names -> name ∈ names ->
    sync refresh (machine.run emptyCatalog earlier) = .ok (after, outcome) ->
      ((after.model refresh.provider name).map Row.enrollment = some .auto ↔
        refresh.automatic ((machine.run emptyCatalog earlier).choices refresh.provider))) := by
  constructor
  · intro withheld
    have unavailable := withheld [.sync (automaticCall ["slow", "swift"] (some ["slow", "swift"]) [])]
      [.sync (automaticCall ["slow", "swift"] none [])] (automaticCall ["slow"] (some ["slow"]) []) ["slow"] _ _ "swift" _
      rfl rfl (by decide) ⟨?_, trivial⟩ rfl
    · cases unavailable
    · rintro ⟨request, selected, result, isAction, _, isExplicit, _⟩
      cases isAction
      cases isExplicit
  · intro enrolled
    have both := enrolled [] (automaticCall ["slow"] none ["slow"]) ["slow"] _ _ "slow" (forall_mem_nil _) rfl rfl rfl
      (by decide) rfl
    cases both.mpr rfl

end BananaChat.Subscriptions.Catalog

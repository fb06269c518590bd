import BananaChat.Chats.Pages

namespace BananaChat.Chats

open Foundation List ChatTables

/-!
# Pages cover everything

Each of the four functions returns the rows behind its cursor up to a cut.
-/

section Cut

variable {Row : Type} {id : Row -> ℕ} {size : Row -> ℕ} {limit : ℕ} {maxBytes : Option ℤ} {rows : List Row}

def cut (size : Row -> ℕ) (limit : ℕ) (maxBytes : Option ℤ) (rows : List Row) : List Row :=
  match maxBytes with
  | none => rows.take limit
  | some bound => fitting size bound false 0 (rows.take limit)

theorem cut_take_prefix : cut size limit maxBytes rows <+: rows.take limit := by
  cases maxBytes with
  | none => exact prefix_refl _
  | some bound => exact fitting_prefix false 0 _

theorem cut_prefix : cut size limit maxBytes rows <+: rows := cut_take_prefix.trans ( take_prefix _ _)

theorem cut_nil (positive : 0 < limit) (nothing : cut size limit maxBytes rows = []) : rows = [] := by
  have taken : rows.take limit = [] := by
    cases maxBytes with
    | none => exact nothing
    | some bound => exact fitting_nil nothing
  rcases take_eq_nil_iff.mp taken with clash | isNil
  · exact absurd clash (Nat.ne_of_gt positive)
  · exact isNil

theorem cut_more : decide ((cut size limit maxBytes rows).length < (rows.take (limit + 1)).length) =
  decide ((cut size limit maxBytes rows).length < rows.length) := by
  have short : (cut size limit maxBytes rows).length <= (rows.take limit).length := cut_take_prefix.length_le
  rw [length_take] at short ⊢
  apply decide_eq_decide.mpr
  omega

variable {bound : ℤ}

theorem chosen_nil : chosenIds id size bound (rows.take limit) = [] ↔ cut size limit (some bound) rows = [] := by
  unfold chosenIds cut
  rw [map_eq_nil_iff]

theorem chosen_length :
  (chosenIds id size bound (rows.take limit)).length = (cut size limit (some bound) rows).length := by
  unfold chosenIds cut
  rw [length_map]

theorem filter_chosen {all : List Row} (rising : all.Pairwise fun one other => id one < id other)
  (isPart : rows.Sublist all) :
  all.filter (fun row => id row ∈ chosenIds id size bound (rows.take limit)) = cut size limit (some bound) rows := by
  have distinct : (all.map id).Nodup := List.Pairwise.map id (fun _ _ => Nat.ne_of_lt) rising
  have sublist : (cut size limit (some bound) rows).Sublist all := cut_prefix.sublist.trans isPart
  exact filter_keys distinct sublist

theorem filter_chosen_reverse {all : List Row} (rising : all.Pairwise fun one other => id one < id other)
  (isPart : rows.reverse.Sublist all) : all.filter (fun row => id row ∈ chosenIds id size bound (rows.take limit)) =
    (cut size limit (some bound) rows).reverse := by
  have distinct : (all.map id).Nodup := List.Pairwise.map id (fun _ _ => Nat.ne_of_lt) rising
  have sublist : (cut size limit (some bound) rows).reverse.Sublist all := (reverse_sublist.mpr cut_prefix.sublist).trans isPart
  rw [<- filter_keys distinct sublist]
  apply filter_congr
  intro _ _
  apply decide_eq_decide.mpr
  unfold chosenIds cut
  rw [map_reverse, mem_reverse]

end Cut

namespace ChatTables

variable {tables : ChatTables} {sessionId limit : ℕ} {maxBytes : Option ℤ}

def history (tables : ChatTables) (sessionId : ℕ) : List PageMessage := (tables.ofSession sessionId).map tables.joined

def messageBytes (message : PageMessage) : ℕ := textBytes message.row.content

theorem history_rising : (tables.history sessionId).Pairwise (fun one other => one.id < other.id) :=
  (tables.rising.filter _).map tables.joined (fun _ _ less => less)

theorem history_filter (selected : ℕ -> Bool) :
  ((tables.ofSession sessionId).filter (selected ·.id)).map tables.joined =
    (tables.history sessionId).filter (selected ·.id) := by
  unfold history
  rw [filter_map]
  rfl

theorem ofSession_sublist (selected : MessageRow -> Bool) :
  ((tables.ofSession sessionId).filter selected).Sublist tables.messages :=
  filter_sublist.trans filter_sublist

theorem cut_joined (rows : List MessageRow) : (cut (textBytes ·.content) limit maxBytes rows).map tables.joined =
    cut messageBytes limit maxBytes (rows.map tables.joined) := by
  unfold cut
  cases maxBytes with
  | none => exact map_take
  | some bound =>
    rw [<- map_take]
    exact fitting_map tables.joined messageBytes false 0 _

theorem messagePage_rows (before : Option ℕ) : (tables.messagePage sessionId limit maxBytes before).1 =
    (cut messageBytes limit maxBytes ((tables.history sessionId).filter (olderThan before ·.id)).reverse).reverse := by
  rw [<- history_filter, <- map_reverse, <- cut_joined, <- map_reverse]
  unfold messagePage
  cases maxBytes with
  | none =>
    dsimp only
    rw [take_take, Nat.min_eq_left (Nat.le_succ limit)]
    rfl
  | some bound =>
    dsimp only
    rw [take_take, Nat.min_eq_left (Nat.le_succ limit)]
    split
    · rename_i nothing
      rw [chosen_nil.mp nothing]
      rfl
    · unfold named
      rw [filter_chosen_reverse tables.rising]
      rw [reverse_reverse]
      exact ofSession_sublist _

theorem messagePage_more (positive : 0 < limit) (before : Option ℕ) :
  (tables.messagePage sessionId limit maxBytes before).2 =
    decide ((tables.messagePage sessionId limit maxBytes before).1.length <
      ((tables.history sessionId).filter (olderThan before ·.id)).length) := by
  rw [messagePage_rows, length_reverse, <- @length_reverse _ (filter _ (tables.history sessionId)),
    <- history_filter, <- map_reverse, <- cut_joined, length_map, length_map, <- cut_more]
  unfold messagePage
  cases maxBytes with
  | none =>
    unfold cut
    apply decide_eq_decide.mpr
    rw [length_take, length_take]
    omega
  | some bound =>
    dsimp only
    rw [take_take, Nat.min_eq_left (Nat.le_succ limit)]
    split
    · rename_i nothing
      have isNil := chosen_nil.mp nothing
      rw [isNil, cut_nil positive isNil]
      rfl
    · rw [chosen_length]

theorem messagesAfter_rows (after : ℕ) : tables.messagesAfter sessionId limit maxBytes after =
    cut messageBytes limit maxBytes ((tables.history sessionId).filter (after < ·.id)) := by
  rw [<- history_filter (fun id => decide (after < id)), <- cut_joined]
  unfold messagesAfter
  cases maxBytes with
  | none => rfl
  | some bound =>
    dsimp only
    split
    · rename_i nothing
      rw [chosen_nil.mp nothing]
      rfl
    · unfold named
      rw [filter_chosen tables.rising (ofSession_sublist _)]

theorem messageBatch_rows (last cursor : ℕ) : tables.messageBatch sessionId limit maxBytes last cursor =
    cut messageBytes limit maxBytes
      ((tables.history sessionId).filter fun message => decide (cursor < message.id) && decide (message.id <= last)) := by
  rw [<- history_filter (fun id => decide (cursor < id) && decide (id <= last)), <- cut_joined]
  unfold messageBatch
  cases maxBytes with
  | none => rfl
  | some bound =>
    dsimp only
    split
    · rename_i nothing
      rw [chosen_nil.mp nothing]
      rfl
    · unfold named
      rw [filter_chosen tables.rising (ofSession_sublist _)]

theorem le_lastId {message : PageMessage} (mem : message ∈ tables.history sessionId) :
  message.id <= tables.lastId sessionId := by
  rcases mem_map.mp mem with ⟨row, isRow, rfl⟩
  have inside : row.id ∈ (tables.ofSession sessionId).map MessageRow.id := mem_map_of_mem isRow
  unfold lastId
  cases largest : ((tables.ofSession sessionId).map MessageRow.id).max? with
  | none =>
    rw [max?_eq_none_iff.mp largest] at inside
    cases inside
  | some last => exact (max?_eq_some_iff.mp largest).2 _ inside

variable (tables sessionId maxBytes)

def backwards (positive : 0 < limit) : Pager (Option ℕ) PageMessage :=
  Pager.falling (ChatTables.history_rising)
    (fun before => (tables.messagePage sessionId limit maxBytes before).1)
    (by
      intro before
      rw [messagePage_rows]
      exact reverse_prefix.mp (by rw [reverse_reverse]; exact cut_prefix))
    (by
      intro before nothing
      rw [messagePage_rows] at nothing
      exact reverse_eq_nil_iff.mp (cut_nil positive (reverse_eq_nil_iff.mp nothing)))

def forwards (positive : 0 < limit) : Pager ℕ PageMessage :=
  Pager.rising (ChatTables.history_rising)
    (tables.messagesAfter sessionId limit maxBytes ·)
    (by
      intro after
      rw [messagesAfter_rows]
      exact cut_prefix)
    (by
      intro after nothing
      rw [messagesAfter_rows] at nothing
      exact cut_nil positive nothing)

def batches (positive : 0 < limit) : Pager ℕ PageMessage :=
  have all (cursor : ℕ) : (tables.history sessionId).filter
      (fun message => (cursor < message.id) && (message.id <= tables.lastId sessionId)) =
        (tables.history sessionId).filter (cursor < ·.id) := by
    apply filter_congr
    intro message mem
    rw [decide_eq_true (le_lastId mem), Bool.and_true]
  Pager.rising (ChatTables.history_rising)
    (fun cursor => tables.messageBatch sessionId limit maxBytes (tables.lastId sessionId) cursor)
    (by
      intro cursor
      rw [messageBatch_rows, all]
      exact cut_prefix)
    (by
      intro cursor nothing
      rw [messageBatch_rows, all] at nothing
      exact cut_nil positive nothing)

variable {tables sessionId maxBytes}

theorem readBack_eq (positive : 0 < limit) (requests : ℕ) (before : Option ℕ) :
  tables.readBack sessionId limit maxBytes requests before =
    ((tables.backwards sessionId maxBytes positive).whileMore requests before).map (map reverse) := by
  induction requests generalizing before with
  | zero => rfl
  | succ requests ih =>
    have turned : ((tables.backwards sessionId maxBytes positive).page before).getLast? =
        (tables.messagePage sessionId limit maxBytes before).1.head? := getLast?_reverse
    have goesOn : (tables.backwards sessionId maxBytes positive).more before =
        (tables.messagePage sessionId limit maxBytes before).2 := by
      rw [messagePage_more positive]
      change decide ((tables.messagePage sessionId limit maxBytes before).1.reverse.length < (reverse _).length) = _
      rw [length_reverse, length_reverse]
    have page : ((tables.backwards sessionId maxBytes positive).page before).reverse =
        (tables.messagePage sessionId limit maxBytes before).1 := reverse_reverse _
    unfold readBack Pager.whileMore
    dsimp only
    rw [turned, goesOn]
    cases (tables.messagePage sessionId limit maxBytes before).1.head? with
    | none =>
      rw [Option.map_some, map_singleton, page]
    | some first =>
      dsimp only
      split
      · rw [ih (some first.id), Option.map_map, Option.map_map]
        refine congrArg (Option.map · _) (funext fun pages => ?_)
        change _ = ((tables.backwards sessionId maxBytes positive).page before).reverse :: pages.map reverse
        rw [page]
        rfl
      · rw [Option.map_some, map_singleton, page]

theorem readOn_eq (positive : 0 < limit) (requests : ℕ) (after : ℕ) :
  tables.readOn sessionId limit maxBytes requests after =
    (tables.forwards sessionId maxBytes positive).untilEmpty requests after := by
  induction requests generalizing after with
  | zero => rfl
  | succ requests ih =>
    have page : (tables.forwards sessionId maxBytes positive).page after =
        tables.messagesAfter sessionId limit maxBytes after := rfl
    unfold readOn Pager.untilEmpty
    rw [page]
    dsimp only
    cases (tables.messagesAfter sessionId limit maxBytes after).getLast? with
    | none => rfl
    | some last => exact congrArg (Option.map _) (ih last.id)

theorem batchesFrom_eq (positive : 0 < limit) (turns cursor : ℕ) :
  tables.batchesFrom sessionId limit maxBytes (tables.lastId sessionId) turns cursor =
    (tables.batches sessionId maxBytes positive).untilEmpty turns cursor := by
  induction turns generalizing cursor with
  | zero => rfl
  | succ turns ih =>
    unfold batchesFrom Pager.untilEmpty
    by_cases goesOn : cursor < tables.lastId sessionId
    · rw [if_pos goesOn]
      have page : (tables.batches sessionId maxBytes positive).page cursor =
          tables.messageBatch sessionId limit maxBytes (tables.lastId sessionId) cursor := rfl
      rw [page]
      dsimp only
      cases (tables.messageBatch sessionId limit maxBytes (tables.lastId sessionId) cursor).getLast? with
      | none => rfl
      | some last => exact congrArg (Option.map _) (ih last.id)
    · rw [if_neg goesOn]
      -- at the last message no batch is asked for, and none would be there
      have nothing : (tables.batches sessionId maxBytes positive).rest cursor = [] := by
        apply filter_eq_nil_iff.mpr
        intro _ mem
        have bounded := le_lastId mem
        simp only [decide_eq_true_eq]
        omega
      have noPage : (tables.batches sessionId maxBytes positive).page cursor = [] :=
        prefix_nil.mp (nothing ▸ (tables.batches sessionId maxBytes positive).begins cursor)
      rw [noPage]
      rfl

theorem history_from_zero : (tables.history sessionId).filter (0 < ·.id) = tables.history sessionId := by
  apply filter_eq_self.mpr
  intro _ mem
  rcases mem_map.mp mem with ⟨row, isRow, rfl⟩
  exact decide_eq_true (tables.positive row (mem_filter.mp isRow).1)

theorem history_from_none : (tables.history sessionId).filter (olderThan none ·.id) = tables.history sessionId :=
  filter_eq_self.mpr fun _ _ => rfl

end ChatTables

namespace StepTable

variable {table : StepTable} {taskId limit : ℕ} {maxBytes : ℤ}

theorem stepPage_rows (after : ℕ) : (table.stepPage taskId limit maxBytes after).1 =
    cut stepBytes limit (some maxBytes) ((table.ofTask taskId).filter (after < ·.id)) := by
  unfold stepPage
  dsimp only
  rw [take_take, Nat.min_eq_left (Nat.le_succ limit)]
  split
  · rename_i nothing
    rw [chosen_nil.mp nothing]
  · exact filter_chosen table.rising (filter_sublist.trans filter_sublist)

theorem stepPage_more (positive : 0 < limit) (after : ℕ) : (table.stepPage taskId limit maxBytes after).2 =
    decide ((table.stepPage taskId limit maxBytes after).1.length <
      ((table.ofTask taskId).filter (after < ·.id)).length) := by
  rw [stepPage_rows, <- cut_more]
  unfold stepPage
  dsimp only
  rw [take_take, Nat.min_eq_left (Nat.le_succ limit)]
  split
  · rename_i nothing
    have isNil := chosen_nil.mp nothing
    rw [isNil, cut_nil positive isNil]
    rfl
  · rw [chosen_length]

variable (table taskId maxBytes)

def stepPager (positive : 0 < limit) : Pager ℕ Agents.StepRow :=
  Pager.rising (table.rising.filter _ : (table.ofTask taskId).Pairwise _)
    (fun after => (table.stepPage taskId limit maxBytes after).1)
    (by
      intro after
      rw [stepPage_rows]
      exact cut_prefix)
    (by
      intro after nothing
      rw [stepPage_rows] at nothing
      exact cut_nil positive nothing)

variable {table taskId maxBytes}

theorem readSteps_eq (positive : 0 < limit) (requests after : ℕ) :
  table.readSteps taskId limit maxBytes requests after =
    (table.stepPager taskId maxBytes positive).whileMore requests after := by
  induction requests generalizing after with
  | zero => rfl
  | succ requests ih =>
    have goesOn : (table.stepPager taskId maxBytes positive).more after = (table.stepPage taskId limit maxBytes after).2 := by
      rw [stepPage_more positive]
      rfl
    have page : (table.stepPager taskId maxBytes positive).page after =
        (table.stepPage taskId limit maxBytes after).1 := rfl
    unfold readSteps Pager.whileMore
    rw [goesOn, page]
    dsimp only
    cases (table.stepPage taskId limit maxBytes after).1.getLast? with
    | none => rfl
    | some last =>
      dsimp only
      split
      · exact congrArg (Option.map _) (ih last.id)
      · rfl

theorem steps_from_zero : (table.ofTask taskId).filter (0 < ·.id) = table.ofTask taskId := by
  apply filter_eq_self.mpr
  intro row mem
  exact decide_eq_true (table.positive row (mem_filter.mp mem).1)

end StepTable

theorem suffix_shorter_iff {Row : Type} {id : Row -> ℕ} {rows page : List Row}
  (rising : rows.Pairwise fun one other => id one < id other) (ends : page <:+ rows) :
  page.length < rows.length ↔ ∃ row ∈ rows, ∀ shown ∈ page, id row < id shown := by
  rcases ends with ⟨front, rfl⟩
  constructor
  · intro shorter
    cases front with
    | nil => exact absurd shorter (Nat.lt_irrefl _)
    | cons row rest =>
      refine ⟨row, mem_cons_self, ?_⟩
      intro shown mem
      exact (pairwise_append.mp rising).2.2 row (.head _) shown mem
  · rintro ⟨row, mem, below⟩
    cases front with
    | nil => exact absurd (below row mem) (Nat.lt_irrefl _)
    | cons first rest =>
      rw [length_append, length_cons]
      omega

theorem prefix_shorter_iff {Row : Type} {id : Row -> ℕ} {rows page : List Row}
  (rising : rows.Pairwise fun one other => id one < id other) (begins : page <+: rows) :
  page.length < rows.length ↔ ∃ row ∈ rows, ∀ shown ∈ page, id shown < id row := by
  rcases begins with ⟨rest, rfl⟩
  constructor
  · intro shorter
    cases rest with
    | nil =>
      rw [append_nil] at shorter
      exact absurd shorter (Nat.lt_irrefl _)
    | cons row later =>
      refine ⟨row, mem_append_right _ mem_cons_self, ?_⟩
      intro shown mem
      exact (pairwise_append.mp rising).2.2 shown mem row mem_cons_self
  · rintro ⟨row, mem, above⟩
    cases rest with
    | nil =>
      rw [append_nil] at mem
      exact absurd (above row mem) (Nat.lt_irrefl _)
    | cons first later =>
      rw [length_append, length_cons]
      omega

structure MessagesCovered (tables : ChatTables) (sessionId limit : ℕ) (maxBytes : Option ℤ) : Prop where
  /-- Back from the newest page; the reading ends, and shows every message once and in order. -/
  back : ∀ requests, (tables.history sessionId).length < requests -> ∃ pages,
    tables.readBack sessionId limit maxBytes requests none = some pages /\
      pages.reverse.flatten = tables.history sessionId /\
      (tables.history sessionId ≠ [] -> ∀ page ∈ pages, page ≠ [])
  on : ∀ requests, (tables.history sessionId).length < requests -> ∃ pages,
    tables.readOn sessionId limit maxBytes requests 0 = some pages /\
      pages.flatten = tables.history sessionId /\ ∀ page ∈ pages, page ≠ []
  batches : ∀ turns, (tables.history sessionId).length < turns -> ∃ pages,
    tables.iterMessageBatches sessionId limit maxBytes turns = some pages /\
      pages.flatten = tables.history sessionId /\ ∀ page ∈ pages, page ≠ []
  /-- An empty page means that nothing is left, whichever cursor was asked for. -/
  pageFilled : ∀ before, (tables.messagePage sessionId limit maxBytes before).1 = [] ->
    ∀ message ∈ tables.history sessionId, olderThan before message.id = false
  afterFilled : ∀ after, tables.messagesAfter sessionId limit maxBytes after = [] ->
    ∀ message ∈ tables.history sessionId, message.id <= after
  /-- `more` says whether there are messages below the page. -/
  more : ∀ before, (tables.messagePage sessionId limit maxBytes before).2 ↔
    ∃ message ∈ tables.history sessionId, olderThan before message.id /\
      ∀ shown ∈ (tables.messagePage sessionId limit maxBytes before).1, message.id < shown.id

structure StepsCovered (table : StepTable) (taskId limit : ℕ) (maxBytes : ℤ) : Prop where
  read : ∀ requests, (table.ofTask taskId).length < requests -> ∃ pages,
    table.readSteps taskId limit maxBytes requests 0 = some pages /\ pages.flatten = table.ofTask taskId /\
      (table.ofTask taskId ≠ [] -> ∀ page ∈ pages, page ≠ [])
  pageFilled : ∀ after, (table.stepPage taskId limit maxBytes after).1 = [] ->
    ∀ row ∈ table.ofTask taskId, row.id <= after
  more : ∀ after, (table.stepPage taskId limit maxBytes after).2 ↔
    ∃ row ∈ table.ofTask taskId, after < row.id /\
      ∀ shown ∈ (table.stepPage taskId limit maxBytes after).1, shown.id < row.id

theorem messages_covered (tables : ChatTables) (sessionId : ℕ) {limit : ℕ} (positive : 0 < limit) (maxBytes : Option ℤ) :
  MessagesCovered tables sessionId limit maxBytes where
  back := by
    intro requests enough
    have rest : (tables.backwards sessionId maxBytes positive).rest none = (tables.history sessionId).reverse :=
      congrArg reverse history_from_none
    rcases (tables.backwards sessionId maxBytes positive).whileMore_covers requests none
      (by rwa [rest, length_reverse]) with ⟨pages, walked, covered, filled⟩
    rw [rest] at covered filled
    refine ⟨pages.map reverse, ?_, ?_, ?_⟩
    · rw [readBack_eq positive, walked, Option.map_some]
    · rw [<- reverse_flatten, covered, reverse_reverse]
    · intro some _ mem
      rcases mem_map.mp mem with ⟨turned, isTurned, rfl⟩
      exact mt reverse_eq_nil_iff.mp (filled (mt reverse_eq_nil_iff.mp some) turned isTurned)
  on := by
    intro requests enough
    have rest : (tables.forwards sessionId maxBytes positive).rest 0 = tables.history sessionId := history_from_zero
    rcases (tables.forwards sessionId maxBytes positive).untilEmpty_covers requests 0
      (by rwa [rest]) with ⟨pages, walked, covered, filled⟩
    exact ⟨pages, (readOn_eq positive requests 0).trans walked, covered.trans rest, filled⟩
  batches := by
    intro turns _
    have rest : (tables.batches sessionId maxBytes positive).rest 0 = tables.history sessionId := history_from_zero
    rcases (tables.batches sessionId maxBytes positive).untilEmpty_covers turns 0
      (by rwa [rest]) with ⟨pages, walked, covered, filled⟩
    exact ⟨pages, (batchesFrom_eq positive turns 0).trans walked, covered.trans rest, filled⟩
  pageFilled := by
    intro before nothing message mem
    rw [messagePage_rows] at nothing
    have none := reverse_eq_nil_iff.mp (cut_nil positive (reverse_eq_nil_iff.mp nothing))
    exact Bool.eq_false_iff.mpr (filter_eq_nil_iff.mp none message mem)
  afterFilled := by
    intro _ nothing message mem
    rw [messagesAfter_rows] at nothing
    have outside := filter_eq_nil_iff.mp (cut_nil positive nothing) message mem
    exact Nat.le_of_not_lt fun above => outside (decide_eq_true above)
  more := by
    intro before
    rw [messagePage_more positive, decide_eq_true_eq]
    have ends : (tables.messagePage sessionId limit maxBytes before).1 <:+
        (tables.history sessionId).filter (olderThan before ·.id) :=
      reverse_prefix.mp ((tables.backwards sessionId maxBytes positive).begins before)
    rw [suffix_shorter_iff (history_rising.filter _) ends]
    constructor
    · rintro ⟨message, mem, below⟩
      exact ⟨message, (mem_filter.mp mem).1, (mem_filter.mp mem).2, below⟩
    · rintro ⟨message, mem, older, below⟩
      exact ⟨message, mem_filter.mpr ⟨mem, older⟩, below⟩

theorem steps_covered (table : StepTable) (taskId : ℕ) {limit : ℕ} (positive : 0 < limit) (maxBytes : ℤ) :
  StepsCovered table taskId limit maxBytes where
  read := by
    intro requests _
    have rest : (table.stepPager taskId maxBytes positive).rest 0 = table.ofTask taskId := StepTable.steps_from_zero
    rcases (table.stepPager taskId maxBytes positive).whileMore_covers requests 0
      (by rwa [rest]) with ⟨pages, walked, covered, filled⟩
    rw [rest] at covered filled
    exact ⟨pages, (StepTable.readSteps_eq positive requests 0).trans walked, covered, filled⟩
  pageFilled := by
    intro after nothing row mem
    rw [StepTable.stepPage_rows] at nothing
    have outside := filter_eq_nil_iff.mp (cut_nil positive nothing) row mem
    exact Nat.le_of_not_lt fun above => outside (decide_eq_true above)
  more := by
    intro after
    rw [StepTable.stepPage_more positive, decide_eq_true_eq]
    have begins : (table.stepPage taskId limit maxBytes after).1 <+:
        (table.ofTask taskId).filter (after < ·.id) :=
      (table.stepPager taskId maxBytes positive).begins after
    have rising : ((table.ofTask taskId).filter (after < ·.id)).Pairwise
        (fun one other => one.id < other.id) := (table.rising.filter _).filter _
    rw [prefix_shorter_iff rising begins]
    constructor
    · rintro ⟨row, mem, above⟩
      exact ⟨row, (mem_filter.mp mem).1, of_decide_eq_true (mem_filter.mp mem).2, above⟩
    · rintro ⟨row, mem, behind, above⟩
      exact ⟨row, mem_filter.mpr ⟨mem, decide_eq_true behind⟩, above⟩

/-- Chats and tasks are read completely, whatever the sizes of their texts and of the pages. -/
theorem pages_cover (tables : ChatTables) (table : StepTable) (sessionId taskId limit : ℕ) (positive : 0 < limit)
  (maxBytes : Option ℤ) (stepBound : ℤ) :
  MessagesCovered tables sessionId limit maxBytes /\ StepsCovered table taskId limit stepBound :=
  ⟨messages_covered tables sessionId positive maxBytes, steps_covered table taskId positive stepBound⟩

def longChat : ChatTables where
  messages := [⟨1, 7, .user, Text.ofString "hi", none, none, 0, 0, 0, .completed, false⟩,
    ⟨2, 7, .assistant, Text.ofString "a long answer", none, none, 0, 0, 0, .completed, false⟩,
    ⟨5, 7, .user, Text.ofString "ok", none, none, 0, 0, 0, .completed, false⟩]
  models := []
  rising := by decide +kernel
  positive := by decide +kernel

theorem pages_cover_longChat :
  MessagesCovered longChat 7 2 (some 4) /\ StepsCovered ⟨[], List.Pairwise.nil, forall_mem_nil _⟩ 1 2 4 :=
  pages_cover longChat ⟨[], List.Pairwise.nil, forall_mem_nil _⟩ 7 1 2 (by decide) (some 4) 4

end BananaChat.Chats

import BananaChat.Foundation.Places
import BananaChat.Subscriptions.ChatStream

namespace BananaChat.Subscriptions

open Foundation List Everywhere Bool Event Usage

/-!
# What a consumer of a subscription answer can rely on

One attempt is analysed from the inside out: the loop over its stream, the exception handlers, the
`finally` clause.
-/

namespace Event

def holder : Event -> Holder
  | .claimed holder => holder
  | .opened holder _ => holder
  | .yielded holder _ => holder
  | .recorded holder _ _ => holder
  | .rested holder _ _ => holder
  | .quarantined holder => holder
  | .closed holder => holder
  | .released holder => holder

def yields : Event -> Bool
  | .yielded _ _ => true
  | _ => false

def speaks : Event -> Bool
  | .yielded _ item => item.produces
  | _ => false

def ends : Event -> Bool
  | .yielded _ item => item.done
  | _ => false

def keepsBooks : Event -> Bool
  | .recorded _ _ _ => true
  | .rested _ _ _ => true
  | .quarantined _ => true
  | _ => false

end Event

variable {after usage : Usage} {item terminal : Item} {events saved : List Event} {saves closable : Bool}
  {items : List Item} {out : List Event × Usage × Ending} {event : Event}

theorem observe_accepted (observed : usage.observe item = (after, none)) :
  after.produced = (usage.produced || item.produces) /\ after.due = (usage.due || item.uses) /\
    after.settled = usage.settled := by
  unfold observe at observed
  dsimp only at observed
  split at observed
  · cases observed
  · split at observed
    · cases observed
    · split at observed
      · cases observed
      · cases observed
        refine ⟨rfl, ?_, rfl⟩
        unfold due Item.uses
        cases usage.produced <;> cases usage.promptKnown <;> cases usage.completionKnown <;> cases usage.interrupted <;>
          cases item.produces <;> cases item.tokensIn.isSome <;> cases item.tokensOut.isSome <;> rfl

variable {failure : Failure}

theorem observe_refused (observed : usage.observe item = (after, some failure)) :
  after.produced = usage.produced := by
  unfold observe at observed
  dsimp only at observed
  split at observed
  · cases observed
    rfl
  · split at observed
    · cases observed
      rfl
    · split at observed
      · cases observed
        rfl
      · cases observed

theorem settle_done {messages : List String} {holder : Holder} (unsettled : usage.settled = false)
  (done : usage.settle messages holder saves = (events, after, none)) :
  (∃ tokensIn tokensOut, events = [.recorded holder tokensIn tokensOut]) \/ (events = [] /\ usage.due = false) := by
  unfold settle at done
  rw [unsettled, if_neg Bool.false_ne_true] at done
  by_cases due : usage.due
  · rw [if_pos due] at done
    dsimp only at done
    cases saves with
    | true =>
      cases done
      exact .inl ⟨_, _, rfl⟩
    | false =>
      cases done
  · rw [if_neg due] at done
    cases done
    exact .inr ⟨rfl, Bool.not_eq_true _ ▸ due⟩

theorem settle_events (messages : List String) (holder : Holder) (saves : Bool) (usage : Usage) :
  (usage.settle messages holder saves).1 = [] \/ ∃ tokensIn tokensOut,
      (usage.settle messages holder saves).1 = [.recorded holder tokensIn tokensOut] := by
  unfold settle
  split
  · exact .inl rfl
  · split
    · dsimp only
      split
      · exact .inr ⟨_, _, rfl⟩
      · exact .inl rfl
    · exact .inl rfl

theorem settle_failed {messages : List String} {holder : Holder}
  (failed : usage.settle messages holder saves = (events, after, some failure)) :
  events = [] /\ after.produced = usage.produced := by
  unfold settle at failed
  split at failed
  · cases failed
  · split at failed
    · dsimp only at failed
      split at failed
      · cases failed
      · cases failed
        exact ⟨rfl, rfl⟩
    · cases failed

section Reading

variable {messages : List String} {holder : Holder} {saves : Bool}

/-- The loop gives records that are not terminal, and then it stops short, or gives
the terminal one after it recorded what was due. -/
structure StopsShort (holder : Holder) (usage : Usage) (items : List Item) (out : List Event × Usage × Ending) : Prop where
  log : out.1 = items.map (Event.yielded holder)
  produced : usage.produced -> out.2.1.produced
  items : ∀ item ∈ items, item.produces -> out.2.1.produced

structure Completes (holder : Holder) (usage : Usage) (items saved : List Event) (records : List Item) (terminal : Item)
  (out : List Event × Usage × Ending) : Prop where
  log : out.1 = items ++ (saved ++ [.yielded holder terminal])
  done : terminal.done
  ended : ∀ failure, out.2.2 ≠ .threw failure
  recorded : (∃ tokensIn tokensOut, saved = [.recorded holder tokensIn tokensOut]) \/
    (saved = [] /\ usage.due = false /\ terminal.uses = false /\ ∀ item ∈ records, item.uses = false)

theorem StopsShort.silent {usage after : Usage} {failure : Failure} (kept : usage.produced -> after.produced) :
  StopsShort holder usage [] ([], after, .threw failure) :=
  ⟨rfl, kept, forall_mem_nil _⟩

variable {observed : Usage}

theorem StopsShort.cons (accepted : usage.observe item = (observed, none))
  (later : StopsShort holder observed items out) :
  StopsShort holder usage (item :: items) (.yielded holder item :: out.1, out.2) := by
  have marked := (observe_accepted accepted).1
  refine ⟨?_, ?_, ?_⟩
  · rw [later.log, map_cons]
  · intro produced
    apply later.produced
    rw [marked, produced, Bool.true_or]
  · intro other mem produces
    rcases mem_cons.mp mem with rfl | mem
    · apply later.produced
      rw [marked, produces, Bool.or_true]
    · exact later.items other mem produces

variable {records : List Item}

theorem Completes.cons (accepted : usage.observe item = (observed, none))
  (later : Completes holder observed (records.map (yielded holder)) saved records terminal out) :
  Completes holder usage ((item :: records).map (yielded holder)) saved (item :: records) terminal
    (.yielded holder item :: out.1, out.2) := by
  have marked := (observe_accepted accepted).2.1
  refine ⟨?_, later.done, later.ended, ?_⟩
  · rw [later.log, map_cons, cons_append]
  · rcases later.recorded with recorded | ⟨nothing, idle, terminalIdle, recordsIdle⟩
    · exact .inl recorded
    · rw [marked, or_eq_false_iff] at idle
      refine .inr ⟨nothing, idle.1, terminalIdle, ?_⟩
      intro other mem
      rcases mem_cons.mp mem with rfl | mem
      · exact idle.2
      · exact recordsIdle other mem

theorem Completes.saved_books {items : List Event}
  (completes : Completes holder usage items saved records terminal out) (event : Event) (mem : event ∈ saved) :
  event.keepsBooks := by
  rcases completes.recorded with ⟨_, _, one⟩ | ⟨nothing, _⟩
  · rw [one, mem_singleton] at mem
    rw [mem]
    rfl
  · rw [nothing] at mem
    exact absurd mem not_mem_nil

theorem readStream_cases (pulls : List Pull) (usage : Usage) (unsettled : usage.settled = false) :
  ∃ items : List Item, (∀ item ∈ items, item.done = false) /\
    (StopsShort holder usage items (readStream messages holder saves pulls usage) \/ ∃ saved terminal,
        Completes holder usage (items.map (yielded holder)) saved items terminal
          (readStream messages holder saves pulls usage)) := by
  have noItems : ∀ item : Item, item ∈ ([] : List Item) -> item.done = false :=
    forall_mem_nil _
  induction pulls generalizing usage with
  | nil => exact ⟨[], noItems, .inl (StopsShort.silent id)⟩
  | cons pull rest ih =>
    unfold readStream
    cases pull.next with
    | error failure => exact ⟨[], noItems, .inl (StopsShort.silent id)⟩
    | ok raw =>
      cases pull.lost with
      | some reason => exact ⟨[], noItems, .inl (StopsShort.silent id)⟩
      | none =>
        dsimp only
        cases chunk raw with
        | error message => exact ⟨[], noItems, .inl (StopsShort.silent id)⟩
        | ok item =>
          dsimp only
          rcases observed : usage.observe item with ⟨after, refused⟩
          cases refused with
          | some failure => exact ⟨[], noItems, .inl (StopsShort.silent (observe_refused observed ▸ ·))⟩
          | none =>
            have marked := observe_accepted observed
            have stillUnsettled : after.settled = false := marked.2.2.trans unsettled
            dsimp only
            cases isDone : item.done with
            | true =>
              rw [if_pos rfl]
              rcases settled : after.settle messages holder saves with ⟨events, last, problem⟩
              cases problem with
              | some failure =>
                rcases settle_failed settled with ⟨nothing, kept⟩
                refine ⟨[], noItems, .inl ?_⟩
                rw [nothing]
                apply StopsShort.silent
                intro produced
                rw [kept, marked.1, produced, Bool.true_or]
              | none =>
                refine ⟨[], noItems, .inr ⟨events, item, rfl, isDone, ?_, ?_⟩⟩
                · intro _
                  dsimp only
                  split <;> exact nofun
                · rcases settle_done stillUnsettled settled with recorded | ⟨nothing, idle⟩
                  · exact .inl recorded
                  · rw [marked.2.1, Bool.or_eq_false_iff] at idle
                    exact .inr ⟨nothing, idle.1, idle.2, forall_mem_nil _⟩
            | false =>
              cases pull.closes with
              | true =>
                refine ⟨[item], fun other mem => mem_singleton.mp mem ▸ isDone, .inl ?_⟩
                have last : StopsShort holder after [] ([], after, Ending.closed) :=
                  ⟨rfl, id, forall_mem_nil _⟩
                exact last.cons observed
              | false =>
                rcases ih after stillUnsettled with ⟨items, notDone, rest⟩
                refine ⟨item :: items, ?_, ?_⟩
                · intro other mem
                  rcases mem_cons.mp mem with rfl | mem
                  · exact isDone
                  · exact notDone other mem
                · rcases rest with short | ⟨saved, terminal, completes⟩
                  · exact .inl (short.cons observed)
                  · exact .inr ⟨saved, terminal, completes.cons observed⟩

end Reading

section Ending

variable {request : Request} {account : Account} {holder : Holder} {attempt : Attempt} {progress : Progress} {usage : Usage}

/-- A handler gives the consumer nothing, and goes on to another account only
when nothing was said. -/
structure Handles (holder : Holder) (progress : Progress) (usage : Usage) (out : List Event × Usage × Verdict) : Prop where
  books : ∀ event ∈ out.1, event.keepsBooks /\ event.holder = holder
  retries : ∀ after, out.2.2 = .retry after -> usage.produced = false /\ after.tried = progress.tried

theorem Handles.stop {outcome : Outcome} : Handles holder progress usage ([], after, .stop outcome) :=
  ⟨forall_mem_nil _, nofun⟩

theorem conclude_handles (message : String) (timedOut spent rested : Bool)
  (books : ∀ event ∈ events, event.keepsBooks /\ event.holder = holder) :
  Handles holder progress usage (conclude progress usage message timedOut spent rested events) := by
  unfold conclude
  split
  · exact ⟨books, nofun⟩
  · split
    · exact ⟨books, nofun⟩
    · rename_i silent
      rw [not_eq_true, or_eq_false_iff, or_eq_false_iff] at silent
      refine ⟨books, ?_⟩
      intro _ retried
      cases retried
      exact ⟨silent.1.1, rfl⟩

theorem books_singleton (books : event.keepsBooks) (own : event.holder = holder) :
  ∀ other ∈ [event], other.keepsBooks /\ other.holder = holder := by
  intro _ mem
  rw [mem_singleton.mp mem]
  exact ⟨books, own⟩

theorem handleOther_handles (message : String) (timedOut requiresQuarantine : Bool) :
  Handles holder progress usage
    (handleOther request holder attempt progress usage message timedOut requiresQuarantine) := by
  unfold handleOther
  dsimp only
  by_cases quarantine : requiresQuarantine
  · rw [if_pos quarantine]
    cases attempt.quarantines with
    | done => exact conclude_handles _ _ _ _ (books_singleton rfl rfl)
    | lost reason | raised => exact Handles.stop
  · rw [if_neg quarantine]
    split
    · exact conclude_handles _ _ _ _ (forall_mem_nil _)
    · split
      · split <;> exact Handles.stop
      · cases attempt.rests with
        | done => exact conclude_handles _ _ _ _ (books_singleton rfl rfl)
        | lost reason | raised => exact Handles.stop

theorem handleHeld_handles (failure : Failure) :
  Handles holder progress usage (handleHeld request account holder attempt progress usage failure) := by
  cases failure with
  | cancelled reason => exact Handles.stop
  | requestRejected message spent =>
    unfold handleHeld
    dsimp only
    split <;> exact Handles.stop
  | admissionChanged =>
    unfold handleHeld
    dsimp only
    split
    · exact Handles.stop
    · rename_i silent
      rw [not_eq_true, or_eq_false_iff] at silent
      refine ⟨forall_mem_nil _, ?_⟩
      intro after retried
      cases retried
      exact ⟨silent.1, rfl⟩
  | quotaExhausted resetsAt =>
    unfold handleHeld
    cases attempt.rests with
    | lost reason | raised => exact Handles.stop
    | done =>
      dsimp only
      split
      · exact ⟨books_singleton rfl rfl, nofun⟩
      · rename_i silent
        refine ⟨books_singleton rfl rfl, ?_⟩
        intro _ retried
        cases retried
        exact ⟨not_eq_true _ ▸ silent, rfl⟩
  | streamError message => exact handleOther_handles message false false
  | other timedOut requiresQuarantine => exact handleOther_handles _ timedOut requiresQuarantine

theorem handle_handles (opened : Bool) (ending : Ending) :
  Handles holder progress usage (handle request account holder attempt opened progress usage ending) := by
  cases ending with
  | returned | closed => exact Handles.stop
  | threw failure =>
    unfold handle
    dsimp only
    split
    · exact Handles.stop
    · exact Handles.stop
    · exact handleHeld_handles _

theorem handle_retry {opened : Bool} {ending : Ending} {after : Progress}
  (retried : (handle request account holder attempt opened progress usage ending).2.2 = .retry after) :
  ∃ failure, ending = .threw failure := by
  cases ending with
  | returned | closed => exact nomatch retried
  | threw failure => exact ⟨failure, rfl⟩

/-- The end of an attempt closes the stream, releases the lease and gives the
consumer nothing. -/
structure Cleans (holder : Holder) (closable : Bool) (verdict : Verdict) (out : List Event × Verdict) : Prop where
  log : ∃ middle, out.1 = middle ++ [.released holder] /\
    (∀ event ∈ middle, event.keepsBooks /\ event.holder = holder \/ event = .closed holder) /\
    (closable -> .closed holder ∈ middle)
  retries : ∀ after, out.2 = .retry after -> verdict = .retry after

theorem settleAndRelease_cleans {verdict : Verdict}
  (books : ∀ event ∈ events, event.keepsBooks /\ event.holder = holder \/ event = .closed holder)
  (closes : closable -> .closed holder ∈ events) :
  Cleans holder closable verdict (settleAndRelease request holder saves usage verdict events) := by
  have saved := settle_events request.messages holder saves usage
  have own : ∀ event ∈ events ++ (usage.settle request.messages holder saves).1,
      event.keepsBooks /\ event.holder = holder \/ event = .closed holder := by
    intro event mem
    rcases mem_append.mp mem with early | late
    · exact books event early
    · rcases saved with nothing | ⟨_, _, recorded⟩
      · rw [nothing] at late
        exact absurd late not_mem_nil
      · rw [recorded, mem_singleton] at late
        exact .inl (late ▸ ⟨rfl, rfl⟩)
  unfold settleAndRelease
  rcases settled : usage.settle request.messages holder saves with ⟨recorded, _, problem⟩
  rw [settled] at own
  have log : ∃ middle, events ++ recorded ++ [released holder] = middle ++ [.released holder] /\
      (∀ event ∈ middle, event.keepsBooks /\ event.holder = holder \/ event = .closed holder) /\
      (closable -> .closed holder ∈ middle) :=
    ⟨_, rfl, own, fun isClosable => mem_append_left _ (closes isClosable)⟩
  cases problem with
  | none => exact ⟨log, fun _ same => same⟩
  | some failure => exact ⟨log, nofun⟩

theorem cleanUp_cleans (closable : Bool) (verdict : Verdict) :
  Cleans holder closable verdict (cleanUp request holder attempt closable usage verdict) := by
  have closing : ∀ event ∈ [closed holder],
      event.keepsBooks /\ event.holder = holder \/ event = .closed holder :=
    fun event mem => .inr (mem_singleton.mp mem)
  have closed : closable -> closed holder ∈ [closed holder] := fun _ => mem_singleton.mpr rfl
  unfold cleanUp
  by_cases unclosable : closable = false
  · rw [if_pos unclosable]
    apply settleAndRelease_cleans
    · exact forall_mem_nil _
    · exact fun isClosable => absurd (unclosable.symm.trans isClosable) false_ne_true
  · rw [if_neg unclosable]
    by_cases closes : attempt.closes
    · rw [if_pos closes]
      exact settleAndRelease_cleans closing closed
    · rw [if_neg closes]
      cases attempt.quarantinesUnclosed with
      | done =>
        apply settleAndRelease_cleans
        · intro _ mem
          rcases mem_cons.mp mem with first | second
          · exact .inr first
          · exact .inl (mem_singleton.mp second ▸ ⟨rfl, rfl⟩)
        · exact fun _ => mem_cons_self
      | lost reason => exact settleAndRelease_cleans closing closed
      | raised => exact ⟨⟨[.closed holder], rfl, closing, closed⟩, nofun⟩

end Ending

/-- The law of a place in a log.  A claim is of an account not tried before, while
nothing has been said, and is released later; a stream is closed later; a record
follows text of its own account only; a terminal record is the last record, and
what its account used has been recorded. -/
def Orderly (before : List Event) (event : Event) (after : List Event) : Prop :=
  match event with
  | .claimed holder =>
    .released holder ∈ after /\
      ∀ other ∈ before, other.speaks = false /\ other.ends = false /\ other.holder.accountId ≠ holder.accountId
  | .opened holder closable => closable = true -> .closed holder ∈ after
  | .yielded holder item =>
    (∀ other ∈ before, other.speaks -> other.holder = holder) /\ (item.done ->
        (∀ other ∈ after, other.yields = false) /\
          ((∃ tokensIn tokensOut, .recorded holder tokensIn tokensOut ∈ before) \/
            (item.uses = false /\ ∀ other, .yielded holder other ∈ before -> other.uses = false)))
  | _ => True

theorem orderly_of_books {before after : List Event} (books : event.keepsBooks) :
  Orderly before event after := by
  cases event with
  | recorded _ _ _ | rested _ _ _ | quarantined _ => exact trivial
  | claimed _ | opened _ _ | yielded _ _ | closed _ | released _ => exact absurd books false_ne_true

theorem yields_of_books (books : event.keepsBooks) : event.yields = false := by
  cases event with
  | yielded _ _ => exact absurd books false_ne_true
  | _ => rfl

theorem silent_of_not_yields (quiet : event.yields = false) : event.speaks = false /\ event.ends = false := by
  cases event with
  | yielded _ _ => exact absurd quiet.symm false_ne_true
  | _ => exact ⟨rfl, rfl⟩

structure Ends (holder : Holder) (closable : Bool) (tail : List Event) : Prop where
  quiet : ∀ event ∈ tail, event.yields = false /\ event.holder = holder
  orderly : ∀ before, Everywhere (fun inner event after => Orderly (before ++ inner) event after) tail
  released : .released holder ∈ tail
  closed : closable -> .closed holder ∈ tail

theorem ends_of_cleans {holder : Holder} {progress : Progress} {verdict : Verdict}
  {handled : List Event × Usage × Verdict} {cleaned : List Event × Verdict}
  (handles : Handles holder progress usage handled) (cleans : Cleans holder closable verdict cleaned) :
  Ends holder closable (handled.1 ++ cleaned.1) := by
  rcases cleans.log with ⟨_, log, books, closes⟩
  have kinds : ∀ event ∈ handled.1 ++ cleaned.1,
      event.keepsBooks /\ event.holder = holder \/ event = .closed holder \/ event = .released holder := by
    intro event mem
    rw [log] at mem
    rcases mem_append.mp mem with early | late
    · exact .inl (handles.books event early)
    · rcases mem_snoc.mp late with inner | last
      · rcases books event inner with kept | closed
        · exact .inl kept
        · exact .inr (.inl closed)
      · exact .inr (.inr (last))
  refine ⟨?_, ?_, ?_, ?_⟩
  · intro event mem
    rcases kinds event mem with kept | rfl | rfl
    · exact ⟨yields_of_books kept.1, kept.2⟩
    · exact ⟨rfl, rfl⟩
    · exact ⟨rfl, rfl⟩
  · intro _
    apply of_forall
    intro _ event _ _ mem
    rcases kinds event mem with kept | rfl | rfl
    · exact orderly_of_books kept.1
    · exact trivial
    · exact trivial
  · rw [log]
    exact mem_append_right _ (mem_append_right _ (mem_singleton.mpr rfl))
  · intro isClosable
    rw [log]
    exact mem_append_right _ (mem_append_left _ (closes isClosable))

section Attempts

variable {request : Request} {account : Account} {holder : Holder} {attempt : Attempt} {progress : Progress}

theorem orderly_items (notDone : ∀ item ∈ items, item.done = false) {front : List Event}
  (quiet : ∀ event ∈ front, event.yields = false) (tail : List Event) :
  Everywhere (fun before event after => Orderly (front ++ before) event (after ++ tail)) (items.map (yielded holder)) := by
  apply of_forall
  intro _ _ _ earlier mem
  rcases mem_map.mp mem with ⟨item, itemMember, rfl⟩
  refine ⟨?_, fun done => absurd ((notDone item itemMember).symm.trans done) false_ne_true⟩
  intro other otherIn speaks
  rcases mem_append.mp otherIn with inFront | inItems
  · exact absurd ((silent_of_not_yields (quiet other inFront)).1.symm.trans speaks) false_ne_true
  · rcases mem_map.mp (earlier other inItems) with ⟨_, _, rfl⟩
    rfl

theorem orderly_completes (notDone : ∀ item ∈ items, item.done = false)
  (completes : Completes holder usage (items.map (yielded holder)) saved items terminal out)
  {front tail : List Event} (before : ∀ event ∈ front, event.yields = false)
  (after : ∀ event ∈ tail, event.yields = false) :
  Everywhere (fun before event after => Orderly (front ++ before) event (after ++ tail)) out.1 := by
  rw [completes.log]
  apply Everywhere.append
  · refine Everywhere.mono ?_ (orderly_items notDone before (saved ++ [.yielded holder terminal] ++ tail))
    intro inner event later _
    rwa [append_assoc]
  · apply Everywhere.append
    · apply Everywhere.of_forall
      intro _ event later _ mem
      exact orderly_of_books (completes.saved_books event mem)
    · apply Everywhere.singleton
      rw [append_nil, nil_append]
      have said : ∀ other ∈ front ++ (items.map (yielded holder) ++ saved), other.speaks ->
          other.holder = holder := by
        intro other mem speaks
        rcases mem_append.mp mem with early | later
        · exact absurd ((silent_of_not_yields (before other early)).1.symm.trans speaks) false_ne_true
        · rcases mem_append.mp later with given | recorded
          · rcases mem_map.mp given with ⟨item, _, rfl⟩
            rfl
          · exact absurd ((silent_of_not_yields (yields_of_books (completes.saved_books other recorded))).1.symm.trans speaks)
              false_ne_true
      refine ⟨said, fun _ => ⟨after, ?_⟩⟩
      rcases completes.recorded with ⟨tokensIn, tokensOut, one⟩ | ⟨nothing, _, terminalIdle, idle⟩
      · refine .inl ⟨tokensIn, tokensOut, ?_⟩
        rw [one]
        exact mem_append_right _ (mem_append_right _ (mem_singleton.mpr rfl))
      · refine .inr ⟨terminalIdle, ?_⟩
        intro _ mem
        rw [nothing, append_nil] at mem
        rcases mem_append.mp mem with early | given
        · exact absurd (before _ early).symm false_ne_true
        · rcases mem_map.mp given with ⟨_, itemMember, same⟩
          cases same
          exact idle _ itemMember

/-- An attempt obeys the law, is one holder's, and goes on to another account only
when it said nothing. -/
structure Attempts (holder : Holder) (progress : Progress) (out : List Event × Verdict) : Prop where
  orderly : Everywhere Orderly out.1
  own : ∀ event ∈ out.1, event.holder = holder
  retries : ∀ after, out.2 = .retry after ->
    after.tried = progress.tried /\ ∀ event ∈ out.1, event.speaks = false /\ event.ends = false

theorem orderly_attempt {opening reads tail : List Event}
  (opens : ∀ event ∈ opening, event = .opened holder closable) (ends : Ends holder closable tail)
  (readsOrderly : Everywhere
    (fun before event after => Orderly (.claimed holder :: opening ++ before) event (after ++ tail)) reads) :
  Everywhere Orderly (.claimed holder :: opening ++ (reads ++ tail)) := by
  apply Everywhere.append
  · rw [<- singleton_append]
    apply Everywhere.append
    · apply Everywhere.singleton
      refine ⟨?_, forall_mem_nil _⟩
      exact mem_append_right _ (mem_append_right _ ends.released)
    · apply Everywhere.of_forall
      intro _ event after _ mem
      rw [opens event mem]
      intro isClosable
      exact mem_append_right _ (mem_append_right _ (ends.closed isClosable))
  · apply Everywhere.append readsOrderly
    refine Everywhere.mono ?_ (ends.orderly (.claimed holder :: opening ++ reads))
    intro _ _ _ place
    rwa [append_assoc] at place

theorem runStream_cases :
  (attempt.opens = none /\ (runStream request holder attempt).1 = []) \/ ∃ closable, attempt.opens = some closable /\
      runStream request holder attempt = (.opened holder closable ::
            (readStream request.messages holder attempt.savesBeforeEnd attempt.pulls empty).1,
          (readStream request.messages holder attempt.savesBeforeEnd attempt.pulls empty).2) := by
  unfold Attempt.opens runStream
  cases attempt.cancelled with
  | some reason => exact .inl ⟨rfl, rfl⟩
  | none =>
    cases attempt.stream with
    | error failure => exact .inl ⟨rfl, rfl⟩
    | ok closable => exact .inr ⟨closable, rfl, rfl⟩

/-- What the loop over the stream gives: the holder's records, in order, that
speak only if the usage says so when the loop fails. -/
theorem readStream_orderly {saves : Bool} (pulls : List Pull) {usage : Usage} (unsettled : usage.settled = false) :
  let read := readStream request.messages holder saves pulls usage
  (∀ event ∈ read.1, event.holder = holder) /\ (∀ front tail, (∀ event ∈ front, event.yields = false) ->
      (∀ event ∈ tail, event.yields = false) ->
      Everywhere (fun before event after => Orderly (front ++ before) event (after ++ tail)) read.1) /\
    ∀ failure, read.2.2 = .threw failure -> read.2.1.produced = false ->
      ∀ event ∈ read.1, event.speaks = false /\ event.ends = false := by
  intro read
  rcases @readStream_cases request.messages holder saves pulls usage unsettled with
    ⟨items, notDone, short | ⟨saved, terminal, completes⟩⟩
  · have log : read.1 = items.map (yielded holder) := short.log
    refine ⟨?_, ?_, ?_⟩
    · intro event mem
      rw [log] at mem
      rcases mem_map.mp mem with ⟨item, _, rfl⟩
      rfl
    · intro front tail quiet _
      rw [log]
      exact orderly_items notDone quiet tail
    · intro failure _ unproduced event mem
      rw [log] at mem
      rcases mem_map.mp mem with ⟨item, itemMember, rfl⟩
      refine ⟨?_, notDone item itemMember⟩
      by_contra produces
      have produced := short.items item itemMember (not_eq_false _ ▸ produces)
      exact false_ne_true (unproduced.symm.trans produced)
  · refine ⟨?_, ?_, ?_⟩
    · intro event mem
      have mem : event ∈ items.map (yielded holder) ++ (saved ++ [.yielded holder terminal]) := completes.log ▸ mem
      rcases mem_append.mp mem with given | last
      · rcases mem_map.mp given with ⟨_, _, rfl⟩
        rfl
      · rcases mem_snoc.mp last with recorded | ended
        · rcases completes.recorded with ⟨_, _, one⟩ | ⟨nothing, _⟩
          · rw [one, mem_singleton] at recorded
            rw [recorded]
            rfl
          · rw [nothing] at recorded
            exact absurd recorded not_mem_nil
        · rw [ended]
          rfl
    · intro _ _ before after
      exact orderly_completes notDone completes before after
    · intro failure threw
      exact absurd threw (completes.ended failure)

theorem attempts_of_parts {opening reads : List Event} {ending : Ending} {handled : List Event × Usage × Verdict}
  {cleaned : List Event × Verdict} (opens : ∀ event ∈ opening, event = .opened holder closable)
  (own : ∀ event ∈ reads, event.holder = holder)
  (orderly : ∀ front tail, (∀ event ∈ front, event.yields = false) -> (∀ event ∈ tail, event.yields = false) ->
    Everywhere (fun before event after => Orderly (front ++ before) event (after ++ tail)) reads)
  (silent : ∀ failure, ending = .threw failure -> usage.produced = false ->
    ∀ event ∈ reads, event.speaks = false /\ event.ends = false)
  (handles : Handles holder progress usage handled)
  (fails : ∀ after, handled.2.2 = .retry after -> ∃ failure, ending = .threw failure)
  (cleans : Cleans holder closable handled.2.2 cleaned) :
  Attempts holder progress (.claimed holder :: opening ++ (reads ++ (handled.1 ++ cleaned.1)), cleaned.2) := by
  have ends := ends_of_cleans handles cleans
  have quietOpening : ∀ event ∈ claimed holder :: opening, event.yields = false /\ event.holder = holder := by
    intro event mem
    rcases mem_cons.mp mem with rfl | opened
    · exact ⟨rfl, rfl⟩
    · rw [opens event opened]
      exact ⟨rfl, rfl⟩
  refine ⟨?_, ?_, ?_⟩
  · apply orderly_attempt opens ends
    exact orderly _ _ (fun event mem => (quietOpening event mem).1) (fun event mem => (ends.quiet event mem).1)
  · intro event mem
    rcases mem_append.mp mem with early | later
    · exact (quietOpening event early).2
    · rcases mem_append.mp later with given | last
      · exact own event given
      · exact (ends.quiet event last).2
  · intro after retried
    have decided := cleans.retries after retried
    have kept := handles.retries after decided
    rcases fails after decided with ⟨failure, threw⟩
    refine ⟨kept.2, ?_⟩
    intro event mem
    rcases mem_append.mp mem with early | later
    · exact silent_of_not_yields (quietOpening event early).1
    · rcases mem_append.mp later with given | last
      · exact silent failure threw kept.1 event given
      · exact silent_of_not_yields (ends.quiet event last).1

theorem attemptAccount_attempts :
  Attempts holder progress (attemptAccount request account holder attempt progress) := by
  unfold attemptAccount
  dsimp only
  rw [append_assoc]
  rcases @runStream_cases request holder attempt with ⟨unopened, silent⟩ | ⟨closable, opened, ran⟩
  · rw [silent, unopened]
    exact attempts_of_parts (forall_mem_nil _) (forall_mem_nil _)
      (fun _ _ _ _ => nil) (fun _ _ _ _ mem => absurd mem not_mem_nil)
      (handle_handles _ _) (fun _ retried => handle_retry retried) (cleanUp_cleans _ _)
  · have reads := @readStream_orderly request holder attempt.savesBeforeEnd attempt.pulls empty rfl
    have opens : ∀ event ∈ [Event.opened holder closable], event = .opened holder closable :=
      fun event mem => mem_singleton.mp mem
    rw [ran, opened]
    exact attempts_of_parts opens reads.1 reads.2.1 reads.2.2
      (handle_handles _ _) (fun _ retried => handle_retry retried) (cleanUp_cleans _ _)

end Attempts

variable {descriptor : Descriptor} {accountId : Option ℕ} {tried : List ℕ} {leaseId : ℕ}

theorem claimAccount_untried {poll : Poll} {account : Account}
  (claimed : claimAccount descriptor accountId tried poll = some (account, leaseId)) : account.id ∉ tried := by
  unfold claimAccount at claimed
  dsimp only at claimed
  rcases exists_of_findSome?_eq_some claimed with ⟨_, mem, granted⟩
  rcases Option.map_eq_some_iff.mp granted with ⟨_, _, same⟩
  cases same
  have eligible := (mem_filter.mp mem).2
  rw [and_eq_true, and_eq_true] at eligible
  exact of_decide_eq_true eligible.1.1

theorem claimWaiting_untried {account : Account}
  (polls : List Poll) (claimed : claimWaiting descriptor accountId tried polls = .ok (some (account, leaseId))) :
  account.id ∉ tried := by
  induction polls with
  | nil => exact nomatch claimed
  | cons poll rest ih =>
    unfold claimWaiting at claimed
    cases raises : poll.raises with
    | some problem =>
      rw [raises] at claimed
      exact nomatch claimed
    | none =>
      simp only [raises] at claimed
      cases found : claimAccount descriptor accountId tried poll with
      | some pair =>
        simp only [found] at claimed
        cases claimed
        exact claimAccount_untried found
      | none =>
        simp only [found] at claimed
        split at claimed
        · exact nomatch claimed
        · cases waiting : poll.raisesWaiting with
          | some problem =>
            rw [waiting] at claimed
            exact nomatch claimed
          | none =>
            rw [waiting] at claimed
            exact ih claimed

theorem orderly_retry {holder : Holder} {first second : List Event} (attempted : Everywhere Orderly first)
  (own : ∀ event ∈ first, event.holder = holder)
  (silent : ∀ event ∈ first, event.speaks = false /\ event.ends = false)
  (later : Everywhere Orderly second) (others : ∀ event ∈ second, event.holder.accountId ≠ holder.accountId) :
  Everywhere Orderly (first ++ second) := by
  apply append
  · intro before event after split
    have mem : event ∈ first := split ▸ mem_append_right before mem_cons_self
    have place := attempted before event after split
    cases event with
    | claimed claimant => exact ⟨mem_append_left _ place.1, place.2⟩
    | opened claimant closable => exact fun isClosable => mem_append_left _ (place isClosable)
    | yielded claimant item =>
      exact ⟨place.1, fun done => absurd ((silent _ mem).2.symm.trans done) false_ne_true⟩
    | _ => exact trivial
  · intro before event after split
    have mem : event ∈ second := split ▸ mem_append_right before mem_cons_self
    have place := later before event after split
    cases event with
    | claimed claimant =>
      refine ⟨place.1, ?_⟩
      intro other otherIn
      rcases mem_append.mp otherIn with early | between
      · refine ⟨(silent other early).1, (silent other early).2, ?_⟩
        rw [own other early]
        exact fun same => others _ mem same.symm
      · exact place.2 other between
    | opened claimant closable => exact place
    | yielded claimant item =>
      refine ⟨?_, ?_⟩
      · intro other otherIn speaks
        rcases mem_append.mp otherIn with early | between
        · exact absurd ((silent other early).1.symm.trans speaks) false_ne_true
        · exact place.1 other between speaks
      intro done
      rcases place.2 done with ⟨last, recorded⟩
      refine ⟨last, ?_⟩
      rcases recorded with ⟨tokensIn, tokensOut, inBefore⟩ | ⟨idle, others'⟩
      · exact .inl ⟨tokensIn, tokensOut, mem_append_right _ inBefore⟩
      · refine .inr ⟨idle, ?_⟩
        intro other otherIn
        rcases mem_append.mp otherIn with early | between
        · exact (others (.yielded claimant item) mem (congrArg Holder.accountId (own (.yielded claimant other) early))).elim
        · exact others' other between
    | _ => exact trivial

theorem tryAccounts_orderly (request : Request) (descriptor : Descriptor) (rounds : List Round) (progress : Progress) :
  Everywhere Orderly (tryAccounts request descriptor rounds progress).1 /\
    ∀ event ∈ (tryAccounts request descriptor rounds progress).1, event.holder.accountId ∉ progress.tried := by
  induction rounds generalizing progress with
  | nil => exact ⟨nil, forall_mem_nil _⟩
  | cons round rest ih =>
    unfold tryAccounts
    cases claimed : claimWaiting descriptor request.accountId progress.tried round.polls with
    | error problem => exact ⟨nil, forall_mem_nil _⟩
    | ok found =>
      cases found with
      | none => exact ⟨nil, forall_mem_nil _⟩
      | some pair =>
        rcases pair with ⟨account, leaseId⟩
        have untried := claimWaiting_untried round.polls claimed
        dsimp only
        have attempted := @attemptAccount_attempts request account { accountId := account.id, leaseId } round.attempt
          { progress with tried := account.id :: progress.tried }
        revert attempted
        generalize attemptAccount request account { accountId := account.id, leaseId } round.attempt
          { progress with tried := account.id :: progress.tried } = attempt
        intro attempted
        have ownUntried : ∀ event ∈ attempt.1, event.holder.accountId ∉ progress.tried := by
          intro event mem
          rw [attempted.own event mem]
          exact untried
        rcases attempt with ⟨_, verdict⟩
        cases verdict with
        | stop outcome => exact ⟨attempted.orderly, ownUntried⟩
        | retry after =>
          have retried := attempted.retries after rfl
          dsimp only
          split
          · exact ⟨attempted.orderly, ownUntried⟩
          · have later := ih after
            rw [retried.1] at later
            refine ⟨?_, ?_⟩
            · apply orderly_retry attempted.orderly attempted.own retried.2 later.1
              intro event mem same
              exact later.2 event mem (same ▸ .head _)
            · intro event mem
              rcases mem_append.mp mem with early | late
              · exact ownUntried event early
              · exact fun tried => later.2 event late (.tail _ tried)

theorem chatStream_orderly (request : Request) (rounds : List Round) : Everywhere Orderly (chatStream request rounds).1 := by
  unfold chatStream
  cases checkRequest request with
  | error problem => exact nil
  | ok descriptor => exact (tryAccounts_orderly request descriptor rounds _).1

theorem speaks_before {log : List Event} (orderly : Everywhere Orderly log) {before middle after : List Event}
  {first second : Holder} {firstItem secondItem : Item} (produces : firstItem.produces)
  (split : log = before ++ .yielded first firstItem :: (middle ++ .yielded second secondItem :: after)) : first = second := by
  have place := orderly (before ++ .yielded first firstItem :: middle) (.yielded second secondItem) after
    (by rw [split, append_assoc, cons_append])
  exact place.1 (.yielded first firstItem) (mem_append_right before mem_cons_self) produces

/-- Whatever the accounts, the adapter, the storage and the consumer do: all text comes from one account. -/
theorem chatStream_protocol (request : Request) (rounds : List Round) :
  (∀ first second firstItem secondItem,
    .yielded first firstItem ∈ (chatStream request rounds).1 -> .yielded second secondItem ∈ (chatStream request rounds).1 ->
      firstItem.produces -> secondItem.produces -> first = second) /\
    (∀ before holder item after, (chatStream request rounds).1 = before ++ .yielded holder item :: after ->
      item.done ->
        (∀ event ∈ after, event.yields = false) /\ (∀ event ∈ before, event.ends = false) /\
          ((∃ tokensIn tokensOut, .recorded holder tokensIn tokensOut ∈ before) \/
            (item.uses = false /\ ∀ other, .yielded holder other ∈ before -> other.uses = false))) /\
    (∀ before holder after, (chatStream request rounds).1 = before ++ .claimed holder :: after ->
      .released holder ∈ after) /\
    ∀ before holder after, (chatStream request rounds).1 = before ++ .opened holder true :: after ->
      .closed holder ∈ after := by
  have orderly := chatStream_orderly request rounds
  refine ⟨?_, ?_, ?_, ?_⟩
  · intro first second firstItem secondItem firstMember secondMember firstSpeaks secondSpeaks
    rcases append_of_mem firstMember with ⟨before, after, split⟩
    rw [split] at secondMember
    rcases mem_append.mp secondMember with early | later
    · rcases append_of_mem early with ⟨start, middle, earlier⟩
      rw [earlier, append_assoc, cons_append] at split
      exact (speaks_before orderly secondSpeaks split).symm
    · rcases mem_cons.mp later with same | late
      · cases same
        rfl
      · rcases append_of_mem late with ⟨middle, rest, joined⟩
        rw [joined] at split
        exact speaks_before orderly firstSpeaks split
  · intro before holder item after split done
    have place := (orderly before (.yielded holder item) after split).2 done
    refine ⟨place.1, ?_, place.2⟩
    intro event mem
    by_contra ends
    rcases append_of_mem mem with ⟨start, middle, earlier⟩
    rw [earlier, append_assoc, cons_append] at split
    cases event with
    | yielded other terminal =>
      have last := ((orderly start (.yielded other terminal) _ split).2 (Bool.not_eq_false _ ▸ ends)).1
      exact Bool.false_ne_true (last (.yielded holder item)
        (mem_append_right middle mem_cons_self)).symm
    | _ => exact ends rfl
  · intro before holder after split
    exact (orderly before (.claimed holder) after split).1
  · intro before holder after split
    exact orderly before (.opened holder true) after split rfl

def plainRequest : Request :=
  { provider := .claude, modelName := "model", messages := ["Hello"], effort := none, accountId := none, cancelled := none,
    connected := true, reportsStart := false, discoveryOk := true,
    models := [{ name := "model", family := "family", reasoning := [], accountIds := none }],
    quota := { reporterError := false, windowLeft := some 1, weeklyLeft := none, stale := false } }

def bareAnswer : List Round :=
  [{ polls := [{ raises := none,
                 rows := [{ id := 1, provider := .claude, status := .active, cooldownUntil := none, lastError := "",
                            quotaSource := .localBudget, windowUsed := 0, windowResetsAt := none, weeklyUsed := 0,
                            weeklyResetsAt := none }],
                 granted := [(1, 7)], last := true, raisesWaiting := none }],
     attempt := { cancelled := none, stream := .ok true,
                  pulls := [{ next := .ok (some { text := none, thinking := none, tokensIn := none, tokensOut := none,
                                                  done := some (.bool true), finishReason := none, error := none }),
                              lost := none, closes := false }],
                  started := true, lost := none, now := 0, reportedReset := none, quarantines := .done, rests := .done,
                  mayRest := true, closes := true, quarantinesUnclosed := .done, savesBeforeEnd := true,
                  savesAtEnd := true } }]

/-- A terminal record without text and without token counts is given although
nothing was recorded for its account. -/
theorem bareAnswer_unrecorded :
  chatStream plainRequest bareAnswer =
    ([.claimed ⟨1, 7⟩, .opened ⟨1, 7⟩ true,
      .yielded ⟨1, 7⟩ { text := [], thinking := [], tokensIn := none, tokensOut := none, done := true, finishReason := .unset },
      .closed ⟨1, 7⟩, .released ⟨1, 7⟩], .returned) := by
  decide +kernel

end BananaChat.Subscriptions

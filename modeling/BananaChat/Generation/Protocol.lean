import BananaChat.Foundation.Places
import BananaChat.Generation.Generate

namespace BananaChat.Generation

open Foundation List Bool

/-!
# The event protocol of a generation

A log has three parts: positions and starts, then the pieces of one answer, then perhaps the last
event.
-/

namespace Event

def isDelta : Event -> Bool
  | .delta _ _ => true
  | _ => false

def isStarted : Event -> Bool
  | .started _ _ _ => true
  | _ => false

def isFinished : Event -> Bool
  | .finished _ => true
  | _ => false

def spoken : Event -> Text
  | .delta text _ => text
  | _ => []

end Event

def deltaText (log : List Event) : Text := log.flatMap Event.spoken

theorem deltaText_append (first second : List Event) : deltaText (first ++ second) = deltaText first ++ deltaText second :=
  flatMap_append

variable {log : List Event} (request : Request)

theorem deltaText_of_silent (silent : ∀ event ∈ log, event.isDelta = false) : deltaText log = [] := by
  refine flatMap_eq_nil_iff.mpr ?_
  intro event mem
  have none := silent event mem
  cases event with
  | delta text thinking => cases none
  | _ => rfl

/-- What was given between two readings: pieces only, all counted, and within the
limit. -/
structure Gives (limit : ℕ) (before : Reading) (log : List Event) (after : Reading) : Prop where
  deltas : ∀ event ∈ log, event.isDelta
  coded : ∃ bytes, (deltaText log).encode = some bytes /\ before.produced + bytes.length <= after.produced /\
    (bytes = [] \/ before.produced + bytes.length <= limit)

namespace Gives

variable {limit : ℕ} {before middle after : Reading} {first second : List Event}

theorem nothing (grows : before.produced <= after.produced) : Gives limit before [] after :=
  ⟨forall_mem_nil _, [], rfl, grows, .inl rfl⟩

theorem trans (earlier : Gives limit before first middle) (later : Gives limit middle second after) :
  Gives limit before (first ++ second) after := by
  rcases earlier.coded with ⟨bytes, encoded, _, fits⟩
  rcases later.coded with ⟨more, moreEncoded, _, moreFits⟩
  refine ⟨?_, bytes ++ more, ?_, ?_, ?_⟩
  · intro event mem
    rcases mem_append.mp mem with early | late
    · exact earlier.deltas event early
    · exact later.deltas event late
  · rw [deltaText_append]
    exact Text.encode_append encoded moreEncoded
  · rw [length_append]
    omega
  · rcases moreFits with none | _
    · rw [none, append_nil]
      exact fits
    · rw [length_append]
      exact .inr (by omega)

theorem eq_nil (given : Gives limit before first after) (none : after.produced = 0)
  (pieces : ∀ event ∈ first, event.spoken ≠ []) : first = [] := by
  rcases given.coded with ⟨bytes, encoded, _, _⟩
  have empty : bytes = [] := eq_nil_of_length_eq_zero (by omega)
  have silent := (Text.encode_eq_nil_iff encoded).mp empty
  refine eq_nil_iff_forall_not_mem.mpr ?_
  intro event mem
  exact pieces event mem (flatMap_eq_nil_iff.mp silent event mem)

end Gives

theorem givePiece_gives (limit : ℕ) (now : ℚ) (closes thinking : Bool) (text : Text) (reading : Reading) :
  Gives limit reading (givePiece limit now closes thinking text reading).1
      (givePiece limit now closes thinking text reading).2.1 /\
    ∀ event ∈ (givePiece limit now closes thinking text reading).1, event.spoken ≠ [] := by
  unfold givePiece
  split
  · exact ⟨Gives.nothing (Nat.le_refl _), forall_mem_nil _⟩
  · cases encoded : text.encode with
    | none => exact ⟨Gives.nothing (Nat.le_refl _), forall_mem_nil _⟩
    | some bytes =>
      dsimp only
      have piece : ∃ coded,
          (if decide (limit < reading.produced + bytes.length) then
              Text.decodeIgnore (bytes.take (limit - reading.produced)) else text).encode = some coded /\
            (coded = [] \/ reading.produced + coded.length <= limit) := by
        by_cases tooLong : limit < reading.produced + bytes.length
        · rw [if_pos (decide_eq_true tooLong)]
          rcases Text.encode_decodeIgnore (bytes.take (limit - reading.produced)) with ⟨coded, codedEncoded, short⟩
          refine ⟨coded, codedEncoded, ?_⟩
          rw [length_take] at short
          by_cases empty : coded = []
          · exact .inl empty
          · have positive := length_pos_of_ne_nil empty
            exact .inr (by omega)
        · rw [if_neg (by rw [decide_eq_true_eq]; exact tooLong)]
          exact ⟨bytes, encoded, .inr (Nat.le_of_not_lt tooLong)⟩
      revert piece
      generalize (if decide (limit < reading.produced + bytes.length) then
        Text.decodeIgnore (bytes.take (limit - reading.produced)) else text) = cut
      rintro ⟨coded, codedEncoded, fits⟩
      rw [codedEncoded, Option.getD_some]
      split
      · exact ⟨Gives.nothing (Nat.le_add_right _ _), forall_mem_nil _⟩
      · rename_i nonempty
        refine ⟨⟨?_, coded, ?_, Nat.le_refl _, fits⟩, ?_⟩
        · intro event mem
          rw [mem_singleton.mp mem]
          rfl
        · rw [deltaText, flatMap_singleton]
          exact codedEncoded
        · intro _ mem
          rw [mem_singleton.mp mem]
          exact fun none => nonempty (isEmpty_iff.mpr none)

theorem noteChunk_produced (chunk : Chunk) (reading : Reading) :
  reading.produced <= (noteChunk request chunk reading).produced := by
  unfold noteChunk
  dsimp only
  split
  · exact Nat.le_succ _
  · exact Nat.le_refl _

theorem giveChunk_gives (limit : ℕ) (pull : Pull) (chunk : Chunk) (reading : Reading) :
  Gives limit reading (giveChunk request limit pull chunk reading).1 (giveChunk request limit pull chunk reading).2.1 /\
    ∀ event ∈ (giveChunk request limit pull chunk reading).1, event.spoken ≠ [] := by
  have thought := givePiece_gives limit pull.now pull.closesThinking true chunk.thinking (noteChunk request chunk reading)
  unfold giveChunk
  revert thought
  generalize givePiece limit pull.now pull.closesThinking true chunk.thinking (noteChunk request chunk reading) = piece
  rcases piece with ⟨events, middle, ending⟩
  rintro ⟨gives, pieces⟩
  have noted : Gives limit reading ([] ++ events) middle :=
    (Gives.nothing (noteChunk_produced request chunk reading)).trans gives
  cases ending with
  | some ending => exact ⟨noted, pieces⟩
  | none =>
    have content := givePiece_gives limit pull.now pull.closesContent false chunk.content middle
    refine ⟨noted.trans content.1, ?_⟩
    intro event mem
    rcases mem_append.mp mem with early | late
    · exact pieces event early
    · exact content.2 event late

theorem readStream_gives (limit : ℕ) (pulls : List Pull) (reading : Reading) :
  Gives limit reading (readStream request limit pulls reading).1 (readStream request limit pulls reading).2.1 /\
    ∀ event ∈ (readStream request limit pulls reading).1, event.spoken ≠ [] := by
  induction pulls generalizing reading with
  | nil => exact ⟨Gives.nothing (Nat.le_refl _), forall_mem_nil _⟩
  | cons pull rest ih =>
    unfold readStream
    cases pull.next with
    | error problem => exact ⟨Gives.nothing (Nat.le_refl _), forall_mem_nil _⟩
    | ok chunk =>
      have chunkGives := giveChunk_gives request limit pull chunk reading
      dsimp only
      revert chunkGives
      generalize giveChunk request limit pull chunk reading = given
      rcases given with ⟨_, middle, ending⟩
      rintro ⟨gives, pieces⟩
      cases ending with
      | some ending => exact ⟨gives, pieces⟩
      | none =>
        dsimp only
        split
        · exact ⟨⟨gives.deltas, gives.coded⟩, pieces⟩
        · have later := ih middle
          refine ⟨gives.trans later.1, ?_⟩
          intro event mem
          rcases mem_append.mp mem with early | late
          · exact pieces event early
          · exact later.2 event late

def Closes (events : List Event) (outcome : Outcome) : Prop :=
  (events = [] /\ outcome ≠ .returned) \/ ∃ finished, events = [.finished finished]

/-- Either the next model is tried, with nothing given and nothing counted, or the
log is closed. -/
def Concludes (reading : Reading) (events : List Event) : Verdict -> Prop
  | .next _ => events = [] /\ reading.produced = 0
  | .stop outcome => Closes events outcome

theorem finish_closes (closes : Bool) (finished : Finished) : Closes (finish closes finished).1 (finish closes finished).2 :=
  .inr ⟨finished, rfl⟩

section

variable (model : AiModel) (attempt : Attempt)
include model attempt

theorem concludeUnfinished_closes (viaWorker truncated : Bool) (reading : Reading) :
  Closes (concludeUnfinished request model attempt viaWorker truncated reading).1
    (concludeUnfinished request model attempt viaWorker truncated reading).2 := by
  unfold concludeUnfinished
  dsimp only
  split
  · exact finish_closes _ _
  · split
    · exact finish_closes _ _
    · split
      · exact finish_closes _ _
      · split
        · exact finish_closes _ _
        · split
          · exact finish_closes _ _
          · exact finish_closes _ _

section

variable (viaWorker isLast : Bool) (progress : Progress) (reading : Reading)
include viaWorker isLast progress reading

theorem handleFailure_concludes
  (message : String) (error : Option UpstreamError) :
  Concludes reading (handleFailure request model attempt viaWorker isLast progress reading message error).1
    (handleFailure request model attempt viaWorker isLast progress reading message error).2 := by
  unfold handleFailure
  dsimp only
  split
  · exact .inl ⟨rfl, Outcome.noConfusion⟩
  · split
    · rename_i again
      rw [and_eq_true, and_eq_true, decide_eq_true_eq] at again
      exact ⟨rfl, again.1.1⟩
    · exact finish_closes _ _

theorem handle_concludes (problem : Problem) :
  Concludes reading (handle request model attempt viaWorker isLast progress reading problem).1
    (handle request model attempt viaWorker isLast progress reading problem).2 := by
  cases problem with
  | cancelled reason => exact concludeUnfinished_closes _ _ _ _ _ _
  | upstream error | osError message => exact handleFailure_concludes _ _ _ _ _ _ _ _ _
  | _ => exact .inl ⟨rfl, Outcome.noConfusion⟩

theorem concludeStream_concludes (ending : Ending) :
  Concludes reading (concludeStream request model attempt viaWorker isLast progress reading ending).1
    (concludeStream request model attempt viaWorker isLast progress reading ending).2 := by
  cases ending with
  | exhausted | truncated => exact concludeUnfinished_closes _ _ _ _ _ _
  | threw problem => exact handle_concludes _ _ _ _ _ _ _ _
  | completed chunk =>
    unfold concludeStream
    cases attempt.recordsSuccess with
    | some problem => exact handle_concludes _ _ _ _ _ _ _ _
    | none => exact finish_closes _ _

end

end

/-- Positions and starts, then the pieces of one answer that was started, within the
limit, and then the end. -/
structure Shaped (limit : ℕ) (log : List Event) (outcome : Outcome) : Prop where
  parts : ∃ waiting given last, log = waiting ++ (given ++ last) /\
    (∀ event ∈ waiting, event.isDelta = false /\ event.isFinished = false) /\
    (∀ event ∈ given, event.isDelta) /\
    (given = [] \/ ∃ event ∈ waiting, event.isStarted) /\
    (∃ bytes, (deltaText given).encode = some bytes /\ bytes.length <= limit) /\
    Closes last outcome

namespace Shaped

variable {limit : ℕ} {log : List Event} {outcome : Outcome}

theorem closed (closes : Closes log outcome) : Shaped limit log outcome :=
  ⟨[], [], log, rfl, forall_mem_nil _, forall_mem_nil _, .inl rfl, ⟨[], rfl, Nat.zero_le _⟩, closes⟩

theorem prepend {earlier : List Event} (waits : ∀ event ∈ earlier, event.isDelta = false /\ event.isFinished = false)
  (shaped : Shaped limit log outcome) : Shaped limit (earlier ++ log) outcome := by
  rcases shaped.parts with ⟨waiting, given, last, split, silent, pieces, started, coded, closes⟩
  refine ⟨earlier ++ waiting, given, last, ?_, ?_, pieces, ?_, coded, closes⟩
  · rw [split, append_assoc]
  · intro event mem
    rcases mem_append.mp mem with early | late
    · exact waits event early
    · exact silent event late
  · rcases started with none | ⟨event, mem, isStarted⟩
    · exact .inl none
    · exact .inr ⟨event, mem_append_right earlier mem, isStarted⟩

end Shaped

theorem runStarted_shaped (limit : ℕ) (model : AiModel) (attempt : Attempt) (viaWorker isLast : Bool)
  (progress : Progress) (notice : String) :
  (∀ told, (runStarted request limit model attempt viaWorker isLast progress).2 = .next told ->
      (runStarted request limit model attempt viaWorker isLast progress).1 = []) /\
    ∀ outcome, (runStarted request limit model attempt viaWorker isLast progress).2 = .stop outcome ->
      Shaped limit (.started model viaWorker notice ::
        (runStarted request limit model attempt viaWorker isLast progress).1) outcome := by
  have begins : ∀ event ∈ [Event.started model viaWorker notice], event.isDelta = false /\ event.isFinished = false := by
    intro _ mem
    rw [mem_singleton.mp mem]
    exact ⟨rfl, rfl⟩
  have unread : ∀ reading ending,
      (∀ told, (concludeStream request model attempt viaWorker isLast progress reading ending).2 = .next told ->
        (concludeStream request model attempt viaWorker isLast progress reading ending).1 = []) /\
      ∀ outcome, (concludeStream request model attempt viaWorker isLast progress reading ending).2 = .stop outcome ->
        Shaped limit (.started model viaWorker notice ::
          (concludeStream request model attempt viaWorker isLast progress reading ending).1) outcome := by
    intro reading ending
    have concluded := concludeStream_concludes request model attempt viaWorker isLast progress reading ending
    refine ⟨?_, ?_⟩
    · intro told next
      rw [next] at concluded
      exact concluded.1
    · intro outcome stop
      rw [stop] at concluded
      exact Shaped.prepend begins (Shaped.closed concluded)
  unfold runStarted
  dsimp only
  split
  · exact unread _ _
  · split
    · exact unread _ _
    · generalize hblank : (Reading.mk 0 [] [] _ : Reading) = blank
      have empty : blank.produced = 0 := hblank ▸ rfl
      have gives := readStream_gives request limit attempt.pulls blank
      have concluded := concludeStream_concludes request model attempt viaWorker isLast progress
        (readStream request limit attempt.pulls blank).2.1 (readStream request limit attempt.pulls blank).2.2
      refine ⟨?_, ?_⟩
      · intro _ next
        rw [next] at concluded
        rw [concluded.1, append_nil]
        exact gives.1.eq_nil concluded.2 gives.2
      · intro _ stop
        rw [stop] at concluded
        rcases gives.1.coded with ⟨bytes, encoded, _, fits⟩
        refine ⟨[.started model viaWorker notice], _, _, rfl, begins, gives.1.deltas, ?_, ⟨bytes, encoded, ?_⟩, concluded⟩
        · exact .inr ⟨_, mem_singleton.mpr rfl, rfl⟩
        · rcases fits with none | _
          · rw [none]
            exact Nat.zero_le _
          · omega

theorem runModel_shaped (limit : ℕ) (isFirst isLast : Bool) (candidate : AiModel) (attempt : Attempt)
  (progress : Progress) : (∀ told, (runModel request limit isFirst isLast candidate attempt progress).2 = .next told ->
      ∀ event ∈ (runModel request limit isFirst isLast candidate attempt progress).1,
        event.isDelta = false /\ event.isFinished = false) /\
    ∀ outcome, (runModel request limit isFirst isLast candidate attempt progress).2 = .stop outcome ->
      Shaped limit (runModel request limit isFirst isLast candidate attempt progress).1 outcome := by
  have stopped : ∀ closing : List Event × Outcome, Closes closing.1 closing.2 ->
      (∀ told, (stopWith closing).2 = .next told -> ∀ event ∈ (stopWith closing).1,
        event.isDelta = false /\ event.isFinished = false) /\
      ∀ outcome, (stopWith closing).2 = .stop outcome -> Shaped limit (stopWith closing).1 outcome := by
    intro _ closes
    refine ⟨fun told next => Verdict.noConfusion next, ?_⟩
    intro outcome stop
    cases stop
    exact Shaped.closed closes
  have skipped : ∀ told : Progress,
      (∀ other, Verdict.next told = .next other -> ∀ event ∈ ([] : List Event),
        event.isDelta = false /\ event.isFinished = false) /\
      ∀ outcome, Verdict.next told = .stop outcome -> Shaped limit [] outcome :=
    fun _ => ⟨fun _ _ _ mem => absurd mem not_mem_nil, fun _ stop => Verdict.noConfusion stop⟩
  unfold runModel
  split
  · exact stopped ([], _) (.inl ⟨rfl, Outcome.noConfusion⟩)
  · split
    · split
      · exact stopped _ (finish_closes _ _)
      · exact skipped _
    · rename_i model _
      split
      · exact skipped _
      · split
        · split
          · exact stopped _ (finish_closes _ _)
          · exact skipped _
        · dsimp only
          split
          · refine ⟨fun told next => Verdict.noConfusion next, ?_⟩
            intro outcome stop
            cases stop
            refine @Shaped.prepend _ _ _ [_] ?_ (Shaped.closed (.inl ⟨rfl, Outcome.noConfusion⟩))
            intro event mem
            rw [mem_singleton.mp mem]
            exact ⟨rfl, rfl⟩
          · refine ⟨?_, ?_⟩
            · intro told next _ mem
              rw [(runStarted_shaped _ _ _ _ _ _ _ "").1 told next] at mem
              rw [mem_singleton.mp mem]
              exact ⟨rfl, rfl⟩
            · intro outcome stop
              exact (runStarted_shaped _ _ _ _ _ _ _ _).2 outcome stop

theorem runModels_shaped (closesLast isFirst : Bool) (lane : Queue.Lane) (models : List (AiModel × Attempt))
  (progress : Progress) : Shaped (outputLimit request) (runModels request closesLast isFirst lane models progress).1
    (runModels request closesLast isFirst lane models progress).2 := by
  induction models generalizing isFirst lane progress with
  | nil => exact Shaped.closed (finish_closes _ _)
  | cons head rest ih =>
    rcases head with ⟨candidate, attempt⟩
    unfold runModels
    split
    · exact Shaped.closed (.inl ⟨rfl, Outcome.noConfusion⟩)
    · exact ih _ _ _
    · have turn := runModel_shaped request (outputLimit request) isFirst rest.isEmpty candidate attempt progress
      revert turn
      generalize runModel request (outputLimit request) isFirst rest.isEmpty candidate attempt progress = ran
      rcases ran with ⟨_, verdict⟩
      rintro ⟨continues, stops⟩
      cases verdict with
      | stop outcome => exact stops outcome rfl
      | next told => exact Shaped.prepend (continues told rfl) (ih _ _ _)

theorem givePositions_waits (positions : List (ℕ × Bool)) :
  ∀ event ∈ (givePositions positions).1, event.isDelta = false /\ event.isFinished = false := by
  induction positions with
  | nil => exact forall_mem_nil _
  | cons position rest ih =>
    intro event mem
    unfold givePositions at mem
    split at mem
    · rw [mem_singleton.mp mem]
      exact ⟨rfl, rfl⟩
    · rcases mem_cons.mp mem with here | later
      · rw [here]
        exact ⟨rfl, rfl⟩
      · exact ih event later

theorem generate_shaped (wait : Wait) (first : Attempt) (fallbacks : List (AiModel × Attempt)) (closesLast : Bool) :
  Shaped (outputLimit request) (generate request wait first fallbacks closesLast).1
    (generate request wait first fallbacks closesLast).2 := by
  have threw : ∀ problem, Closes [] (Outcome.raised problem) := fun _ => .inl ⟨rfl, Outcome.noConfusion⟩
  unfold generate
  split
  · exact Shaped.closed (threw _)
  · have waits := givePositions_waits wait.positions
    revert waits
    generalize givePositions wait.positions = given
    rcases given with ⟨events, closed⟩
    intro waits
    have raised : ∀ problem, Shaped (outputLimit request) events (.raised problem) := by
      intro problem
      have shaped := Shaped.prepend waits (@Shaped.closed (outputLimit request) _ _ (threw problem))
      rw [append_nil] at shaped
      exact shaped
    cases closed with
    | true => exact raised _
    | false =>
      dsimp only
      split
      · exact raised _
      · exact Shaped.prepend waits (runModels_shaped _ _ _ _ _ _)

def Ordered (before : List Event) (event : Event) (after : List Event) : Prop :=
  (event.isDelta -> ∃ start ∈ before, start.isStarted) /\
    (event.isStarted -> ∀ other ∈ before, other.isDelta = false) /\
    (event.isFinished -> after = [] /\ ∀ other ∈ before, other.isFinished = false)

theorem Shaped.ordered {limit : ℕ} {outcome : Outcome} (shaped : Shaped limit log outcome) :
  Everywhere Ordered log := by
  rcases shaped.parts with ⟨_, _, _, split, silent, pieces, started, _, closes⟩
  rw [split]
  apply Everywhere.append
  · apply Everywhere.of_forall
    intro before event after earlier mem
    refine ⟨?_, ?_, ?_⟩
    · exact fun delta => absurd ((silent event mem).1.symm.trans delta) false_ne_true
    · exact fun _ other otherIn => (silent other (earlier other otherIn)).1
    · exact fun finished => absurd ((silent event mem).2.symm.trans finished) false_ne_true
  · apply Everywhere.append
    · apply Everywhere.of_forall
      intro _ event _ _ mem
      have delta := pieces event mem
      refine ⟨?_, ?_, ?_⟩
      · intro _
        rcases started with none | ⟨start, startMember, isStarted⟩
        · rw [none] at mem
          exact absurd mem not_mem_nil
        · exact ⟨start, mem_append_left _ startMember, isStarted⟩
      · cases event with
        | delta text thinking => exact fun start => absurd start false_ne_true
        | _ => cases delta
      · cases event with
        | delta text thinking => exact fun finished => absurd finished false_ne_true
        | _ => cases delta
    · rcases closes with ⟨none, _⟩ | ⟨_, one⟩
      · rw [none]
        exact Everywhere.nil
      · rw [one]
        apply Everywhere.singleton
        refine ⟨fun delta => absurd delta false_ne_true, fun start => absurd start false_ne_true, ?_⟩
        intro _
        refine ⟨rfl, ?_⟩
        intro other mem
        rw [append_nil] at mem
        rcases mem_append.mp mem with early | late
        · exact (silent other early).2
        · have delta := pieces other late
          cases other with
          | delta text thinking => rfl
          | _ => cases delta

theorem Shaped.deltaText_eq {limit : ℕ} {outcome : Outcome} (shaped : Shaped limit log outcome) :
  ∃ bytes, (deltaText log).encode = some bytes /\ bytes.length <= limit := by
  rcases shaped.parts with ⟨_, _, last, split, silent, _, _, coded, closes⟩
  have lastSilent : deltaText last = [] := by
    rcases closes with ⟨none, _⟩ | ⟨_, one⟩
    · rw [none]
      rfl
    · rw [one]
      rfl
  rw [split, deltaText_append, deltaText_append, deltaText_of_silent (fun event mem => (silent event mem).1), lastSilent,
    nil_append, append_nil]
  exact coded

/-- Whatever the queue, the models, their backends and the consumer do: no text comes before the first start. -/
theorem generate_protocol (request : Request) (wait : Wait) (first : Attempt) (fallbacks : List (AiModel × Attempt))
  (closesLast : Bool) : (∀ before text thinking after,
    (generate request wait first fallbacks closesLast).1 = before ++ .delta text thinking :: after ->
      ∃ model viaWorker notice, .started model viaWorker notice ∈ before) /\
    (∀ before model viaWorker notice after,
      (generate request wait first fallbacks closesLast).1 = before ++ .started model viaWorker notice :: after ->
        ∀ text thinking, .delta text thinking ∉ before) /\
    (∀ before finished after,
      (generate request wait first fallbacks closesLast).1 = before ++ .finished finished :: after ->
        after = [] /\ ∀ other, .finished other ∉ before) /\
    ((generate request wait first fallbacks closesLast).2 = .returned ->
      ∃ finished, .finished finished ∈ (generate request wait first fallbacks closesLast).1) /\
    ∃ bytes, (deltaText (generate request wait first fallbacks closesLast).1).encode = some bytes /\
      ByteArray.IsValidUTF8 bytes.toByteArray /\ bytes.length <= outputLimit request := by
  have shaped := generate_shaped request wait first fallbacks closesLast
  have ordered := shaped.ordered
  refine ⟨?_, ?_, ?_, ?_, ?_⟩
  · intro before text thinking after split
    rcases (ordered before _ after split).1 rfl with ⟨start, mem, started⟩
    cases start with
    | started model viaWorker notice => exact ⟨model, viaWorker, notice, mem⟩
    | _ => cases started
  · intro before model viaWorker notice after split text thinking mem
    exact absurd ((ordered before _ after split).2.1 rfl _ mem).symm false_ne_true
  · intro before finished after split
    have last := (ordered before _ after split).2.2 rfl
    exact ⟨last.1, fun other mem => absurd (last.2 _ mem).symm false_ne_true⟩
  · intro returned
    rcases shaped.parts with ⟨waiting, given, last, split, _, _, _, _, closes⟩
    rcases closes with ⟨_, raised⟩ | ⟨finished, one⟩
    · exact absurd returned raised
    · refine ⟨finished, ?_⟩
      rw [split, one]
      exact mem_append_right _ (mem_concat_self)
  · rcases shaped.deltaText_eq with ⟨bytes, encoded, within⟩
    exact ⟨bytes, encoded, Text.encode_isValidUTF8 encoded, within⟩

end BananaChat.Generation

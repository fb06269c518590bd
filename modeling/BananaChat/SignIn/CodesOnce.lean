import BananaChat.SignIn.Attempts

namespace BananaChat.SignIn

open Foundation List Option

/-!
# No code is accepted twice

The step of an accepted app code is above every step that was accepted before, and the
digest of an accepted recovery code is one that was still stored.
-/

variable {server : Server}

@[simp] theorem countersOf_append (setUp : ℕ) (past changes : List Change) :
    countersOf setUp (past ++ changes) = countersOf setUp past ++ countersOf setUp changes := filterMap_append

@[simp] theorem spentOf_append (past changes : List Change) : spentOf (past ++ changes) = spentOf past ++ spentOf changes :=
  filterMap_append

@[simp] theorem issuedOf_append (past changes : List Change) : issuedOf (past ++ changes) = issuedOf past ++ issuedOf changes :=
  flatMap_append

@[simp] theorem usedBy_append (attempt : ℕ) (past changes : List Change) :
    usedBy attempt (past ++ changes) = usedBy attempt past ++ usedBy attempt changes := filterMap_append

/-- The steps of the app codes that were taken; nothing was taken under a set-up that is still to come. -/
structure Counters (past : List Change) (setUps : ℕ) (row : Option TwoStepRow) : Prop where
  later : ∀ setUp, setUps < setUp -> countersOf setUp past = []
  increasing : ∀ setUp, (countersOf setUp past).Pairwise (· < ·)
  current : ∀ stored, row = some stored -> ∀ counter ∈ countersOf setUps past, counter <= stored.lastCounter

namespace Counters

variable {past : List Change} {setUps : ℕ} {row : Option TwoStepRow}

section

variable (counters : Counters past setUps row)
include counters

theorem other {change : Change} (nothing : ∀ setUp, countersOf setUp [change] = []) {new : Option TwoStepRow}
  (same : ∀ stored, new = some stored -> ∃ before, row = some before /\ before.lastCounter = stored.lastCounter) :
  Counters (past ++ [change]) setUps new := by
  have unchanged (setUp : ℕ) : countersOf setUp (past ++ [change]) = countersOf setUp past := by
    rw [countersOf_append, nothing, append_nil]
  constructor
  · intro setUp above
    rw [unchanged]
    exact counters.later setUp above
  · intro setUp
    rw [unchanged]
    exact counters.increasing setUp
  · intro stored isNew counter mem
    rw [unchanged] at mem
    rcases same stored isNew with ⟨before, isRow, equal⟩
    rw [<- equal]
    exact counters.current before isRow counter mem

theorem used {before : TwoStepRow} (isRow : row = some before) {counter : ℤ}
  (higher : before.lastCounter < counter) (attempt : ℕ) (secret code : Text) (now : ℚ) :
  Counters (past ++ [.used attempt setUps (.app secret code counter now)]) setUps
    (some { before with lastCounter := counter }) := by
  have itself : countersOf setUps [.used attempt setUps (.app secret code counter now)] = [counter] := by
    simp [countersOf]
  have elsewhere (setUp : ℕ) (different : setUps ≠ setUp) :
      countersOf setUp [.used attempt setUps (.app secret code counter now)] = [] := by
    simp [countersOf, different]
  constructor
  · intro setUp above
    rw [countersOf_append, counters.later setUp above, elsewhere setUp (Nat.ne_of_lt above)]
    rfl
  · intro setUp
    rw [countersOf_append]
    by_cases same : setUps = setUp
    · rw [<- same, itself, pairwise_append]
      refine ⟨counters.increasing _, pairwise_singleton _ _, ?_⟩
      intro earlier mem _ isLast
      rw [mem_singleton.mp isLast]
      exact lt_of_le_of_lt (counters.current before isRow earlier mem) higher
    · rw [elsewhere setUp same, append_nil]
      exact counters.increasing setUp
  · intro _ isNew earlier mem
    rw [<- some.inj isNew]
    rw [countersOf_append, itself, mem_append, mem_singleton] at mem
    rcases mem with old | isLast
    · exact le_of_lt (lt_of_le_of_lt (counters.current before isRow earlier old) higher)
    · exact le_of_eq isLast

theorem enabled (new : TwoStepRow) : Counters (past ++ [.enabled (setUps + 1) new]) (setUps + 1) (some new) := by
  have itself : countersOf (setUps + 1) [.enabled (setUps + 1) new] = [new.lastCounter] := by
    simp [countersOf]
  have elsewhere (setUp : ℕ) (different : setUps + 1 ≠ setUp) : countersOf setUp [.enabled (setUps + 1) new] = [] := by
    simp [countersOf, different]
  have fresh := counters.later (setUps + 1) (Nat.lt_succ_self _)
  constructor
  · intro setUp above
    rw [countersOf_append, counters.later setUp (by omega), elsewhere setUp (Nat.ne_of_lt above)]
    rfl
  · intro setUp
    rw [countersOf_append]
    by_cases same : setUps + 1 = setUp
    · rw [<- same, itself, fresh]
      exact pairwise_singleton _ _
    · rw [elsewhere setUp same, append_nil]
      exact counters.increasing setUp
  · intro _ isNew _ mem
    rw [countersOf_append, itself, fresh, nil_append, mem_singleton] at mem
    rw [<- some.inj isNew, mem]

end

end Counters

def Spent (stored : Option TwoStepRow) (past : List Change) (row : Option TwoStepRow) : Prop :=
  ∀ digest, (spentOf past).count digest + (hashesOf row).count digest <= (hashesOf stored ++ issuedOf past).count digest

theorem Spent.next {stored row : Option TwoStepRow} {past : List Change} (spent : Spent stored past row) {change : Change}
  {new : Option TwoStepRow} (balanced : ∀ digest,
    (spentOf [change]).count digest + (hashesOf new).count digest <= (hashesOf row).count digest + (issuedOf [change]).count digest) :
  Spent stored (past ++ [change]) new := by
  intro digest
  have before := spent digest
  have step := balanced digest
  rw [spentOf_append, issuedOf_append]
  rw [count_append] at before ⊢
  rw [count_append, count_append]
  omega

structure Genuine (server : Server) (past : List Change) : Prop where
  codes : ∀ attempt setUp secret code counter now, .used attempt setUp (.app secret code counter now) ∈ past ->
    IsCodeOf server.crypto secret code now counter
  digests : ∀ attempt setUp code digest, .used attempt setUp (.recovery code digest) ∈ past ->
    recoveryHash server.crypto server.account code = some digest

theorem Genuine.next {past : List Change} (genuine : Genuine server past) {change : Change} (row : Option TwoStepRow)
  (accepts : ∀ attempt setUp used, change = .used attempt setUp used -> Accepts server row used) :
  Genuine server (past ++ [change]) := by
  constructor
  · intro attempt setUp secret code counter now mem
    rcases mem_snoc.mp mem with earlier | isLast
    · exact genuine.codes attempt setUp secret code counter now earlier
    · exact (accepts attempt setUp _ (isLast).symm).2
  · intro attempt setUp code digest mem
    rcases mem_snoc.mp mem with earlier | isLast
    · exact genuine.digests attempt setUp code digest earlier
    · exact (accepts attempt setUp _ (isLast).symm).2

def Told (past : List Change) (phases : ℕ -> Phase) : Prop :=
  ∀ attempt, (phases attempt).Tells ((usedBy attempt past).map Used.method)

theorem Told.other {past : List Change} {phases : ℕ -> Phase} (told : Told past phases) {change : Change}
  (nothing : ∀ attempt, usedBy attempt [change] = []) : Told (past ++ [change]) phases := by
  intro attempt
  rw [usedBy_append, nothing, append_nil]
  exact told attempt

theorem Told.used {past : List Change} {phases : ℕ -> Phase} (told : Told past phases) {attempt : ℕ} {row : TwoStepRow}
  {used : Used} (wrote : phases attempt = .wrote row used) (setUp : ℕ) :
  Told (past ++ [.used attempt setUp used]) (Function.update phases attempt (.committed used.method)) := by
  intro other
  rw [usedBy_append]
  by_cases same : other = attempt
  · have before := told attempt
    rw [wrote] at before
    have unused : usedBy attempt past = [] := map_eq_nil_iff.mp before
    have itself : usedBy attempt [.used attempt setUp used] = [used] := by
      simp [usedBy]
    rw [same, Function.update_self, unused, itself]
    rfl
  · have nothing : usedBy other [.used attempt setUp used] = [] := by
      simp [usedBy, Ne.symm same]
    rw [Function.update_of_ne same, nothing, append_nil]
    exact told other

structure Consumed (server : Server) (stored : Option TwoStepRow) (past : List Change) (state : TwoStepState) : Prop where
  replayed : state.row = past.foldl Change.redo stored
  counters : Counters past state.setUps state.row
  spent : Spent stored past state.row
  genuine : Genuine server past
  told : Told past state.phases

theorem consumed_start (stored : Option TwoStepRow) : Consumed server stored [] (.start stored) where
  replayed := rfl
  counters := by
    refine ⟨fun _ _ => rfl, fun _ => List.Pairwise.nil, ?_⟩
    intro _ _ counter mem
    cases mem
  spent := by
    intro digest
    change 0 + (hashesOf stored).count digest <= (hashesOf stored ++ []).count digest
    rw [append_nil, Nat.zero_add]
  genuine := by
    constructor
    · intro attempt setUp _ code _ _ mem
      cases mem
    · intro _ _ _ _ mem
      cases mem
  told := fun _ => rfl

namespace Consumed

variable {stored : Option TwoStepRow} {past : List Change} {state : TwoStepState}

section

variable (consumed : Consumed server stored past state)
include consumed

theorem replay (change : Change) : (past ++ [change]).foldl Change.redo stored = change.redo state.row := by
  rw [foldl_append, <- consumed.replayed]
  rfl

theorem quiet {attempt : ℕ} {phase : Phase} {lock : Option ℕ} (quiet : Quiet server state attempt phase lock) :
  Consumed server stored past { state.move attempt phase with lock := lock } := by
  refine ⟨consumed.replayed, consumed.counters, consumed.spent, consumed.genuine, ?_⟩
  intro other
  change (Function.update state.phases attempt phase other).Tells ((usedBy other past).map Used.method)
  by_cases same : other = attempt
  · rw [same, Function.update_self]
    exact quiet.tells _ (consumed.told attempt)
  · rw [Function.update_of_ne same]
    exact consumed.told other

theorem used {attempt : ℕ} {row : TwoStepRow} {used : Used}
  (wrote : state.phases attempt = .wrote row used) (accepts : Accepts server state.row used)
  (written : some row = Change.redo state.row (.used attempt state.setUps used)) :
  Consumed server stored (past ++ [.used attempt state.setUps used])
    { state.leave attempt (.committed used.method) with row := some row } := by
  have genuine : Genuine server (past ++ [.used attempt state.setUps used]) := by
    apply consumed.genuine.next state.row
    intro other _ _ isLast
    cases isLast
    exact accepts
  refine ⟨written.trans (consumed.replay _).symm, ?_, consumed.spent.next ?_, genuine, consumed.told.used wrote _⟩
  · rw [written]
    cases used with
    | app secret code counter now =>
      rcases accepts.1 with ⟨before, isStored, higher⟩
      rw [isStored]
      exact consumed.counters.used isStored higher attempt secret code now
    | recovery code digest =>
      apply consumed.counters.other (fun _ => rfl)
      intro _ isNew
      rcases map_eq_some_iff.mp isNew with ⟨before, isStored, isNext⟩
      exact ⟨before, isStored, by rw [<- isNext]⟩
  · intro other
    rw [written]
    cases used with
    | app secret code counter now =>
      rcases accepts.1 with ⟨before, isStored, _⟩
      rw [isStored]
      change 0 + before.recoveryHashes.hashes.count other <= before.recoveryHashes.hashes.count other + 0
      rw [Nat.zero_add, Nat.add_zero]
    | recovery code digest =>
      cases isStored : state.row with
      | none =>
        rw [isStored] at accepts
        cases accepts.1
      | some before =>
        rw [isStored] at accepts
        have isLeft : digest ∈ before.recoveryHashes.hashes := accepts.1
        change [digest].count other + (dumps (before.recoveryHashes.hashes.erase digest)).hashes.count other <=
          before.recoveryHashes.hashes.count other + 0
        rw [hashes_dumps, Nat.add_zero, <- count_append]
        exact ((perm_cons_erase isLeft).count_eq other).ge

theorem enabled (row : TwoStepRow) (off : state.row = none) :
  Consumed server stored (past ++ [.enabled (state.setUps + 1) row])
    { state with row := some row, setUps := state.setUps + 1 } := by
  refine ⟨(consumed.replay (.enabled (state.setUps + 1) row)).symm, consumed.counters.enabled row, consumed.spent.next ?_, ?_, consumed.told.other fun _ => rfl⟩
  · intro digest
    rw [off]
    change 0 + row.recoveryHashes.hashes.count digest <= 0 + (row.recoveryHashes.hashes ++ []).count digest
    rw [append_nil]
  · exact consumed.genuine.next state.row nofun

theorem renewed (row : TwoStepRow) (hashes : List Text) (on : state.row = some row) :
  Consumed server stored (past ++ [.renewed hashes])
    { state with row := some { row with recoveryHashes := dumps hashes } } := by
  refine ⟨?_, consumed.counters.other (fun _ => rfl) ?_, consumed.spent.next ?_, ?_, consumed.told.other fun _ => rfl⟩
  · rw [consumed.replay, on]
    rfl
  · intro _ isNew
    rw [<- some.inj isNew]
    exact ⟨row, on, rfl⟩
  · intro digest
    change 0 + (dumps hashes).hashes.count digest <= _ + (hashes ++ []).count digest
    rw [hashes_dumps, append_nil, Nat.zero_add]
    exact Nat.le_add_left _ _
  · exact consumed.genuine.next state.row nofun

theorem disabled : Consumed server stored (past ++ [.disabled]) { state with row := none } := by
  refine ⟨(consumed.replay .disabled).symm, consumed.counters.other (fun _ => rfl) ?_, consumed.spent.next ?_, ?_,
    consumed.told.other fun _ => rfl⟩
  · intro _ clash
    cases clash
  · exact fun digest => Nat.zero_le _
  · exact consumed.genuine.next state.row nofun

end

theorem next (consumed : Consumed server stored past state) (locked : Locked server state) {next : TwoStepState}
  {changes : List Change} (stepped : Stepped server state next changes) : Consumed server stored (past ++ changes) next := by
  cases stepped with
  | unchanged =>
    rw [append_nil]
    exact consumed
  | quiet attempt phase lock quiet =>
    rw [append_nil]
    exact consumed.quiet quiet
  | used attempt row used wrote =>
    have sound := locked.sound attempt
    rw [wrote] at sound
    exact consumed.used wrote sound.1 (sound.2 attempt state.setUps)
  | enabled row free off => exact consumed.enabled row off
  | renewed row hashes free on => exact consumed.renewed row hashes on
  | disabled free => exact consumed.disabled

end Consumed

theorem consumed_trace {stored : Option TwoStepRow} {past : List Change} {state : TwoStepState}
  (trace : (twoStepMachine server stored).Trace (twoStepReport server) past state) :
  Locked server state /\ Consumed server stored past state := by
  induction trace with
  | start isStart =>
    rw [show _ = TwoStepState.start stored from isStart]
    refine ⟨⟨?_, fun _ => True.intro⟩, consumed_start stored⟩
    intro _
    exact ⟨nofun, nofun⟩
  | @next past state action _ allowed kept =>
    rcases isSome_iff_exists.mp allowed with ⟨_, taken⟩
    have stepped := stepped_of_step kept.1 taken
    change Locked server (((state.step server action).map Prod.fst).getD state) /\
      Consumed server stored (past ++ ((state.step server action).map Prod.snd).getD [])
        (((state.step server action).map Prod.fst).getD state)
    rw [taken]
    exact ⟨kept.1.next stepped, kept.2.next kept.1 stepped⟩

/--
Whatever the order of the attempts: under each set-up the steps of the accepted app codes increase, from that
of the code it was turned on with.
-/
theorem codes_accepted_once {stored : Option TwoStepRow} {past : List Change} {state : TwoStepState}
  (trace : (twoStepMachine server stored).Trace (twoStepReport server) past state) :
  (∀ setUp, (countersOf setUp past).Pairwise (· < ·)) /\
    (∀ digest, (spentOf past).count digest <= (hashesOf stored ++ issuedOf past).count digest) /\
    ((hashesOf stored ++ issuedOf past).Nodup -> (spentOf past).Nodup) /\
    Genuine server past /\
    (∀ attempt method, state.phases attempt = .accepted method -> (usedBy attempt past).map Used.method = [method]) /\
    (∀ attempt refusal, state.phases attempt = .refused refusal -> usedBy attempt past = []) /\
    state.row = past.foldl Change.redo stored := by
  rcases consumed_trace trace with ⟨_, consumed⟩
  have bounded (digest : Text) : (spentOf past).count digest <= (hashesOf stored ++ issuedOf past).count digest :=
    Nat.le_trans (Nat.le_add_right _ _) (consumed.spent digest)
  refine ⟨consumed.counters.increasing, bounded, ?_, consumed.genuine, ?_, ?_, consumed.replayed⟩
  · intro distinct
    rw [nodup_iff_count] at distinct ⊢
    exact fun digest => Nat.le_trans (bounded digest) (distinct digest)
  · intro attempt method isAccepted
    have told := consumed.told attempt
    rw [isAccepted] at told
    exact told
  · intro attempt refusal isRefused
    have told := consumed.told attempt
    rw [isRefused] at told
    exact map_eq_nil_iff.mp told

/-- The digests of the three steps around the clock, for the key `12345678901234567890`. -/
def sampleHmac (_ message : List UInt8) (place : Fin 20) : UInt8 :=
  let digest : List UInt8 :=
    if message = bigEndian 8 37037035 then
      [239, 80, 252, 142, 195, 213, 180, 22, 230, 97, 209, 7, 40, 105, 165, 144, 83, 122, 117, 162]
    else if message = bigEndian 8 37037036 then
      [39, 140, 2, 229, 54, 16, 248, 76, 64, 189, 145, 53, 172, 212, 16, 16, 18, 65, 10, 20]
    else [176, 9, 43, 33, 208, 72, 175, 32, 157, 160, 161, 221, 212, 152, 173, 232, 167, 148, 135, 237]
  digest.getD place.val 0

/-- The digest of the one recovery code, for the account `u1`. -/
def sampleDigest : Text :=
  (Nat.toDigits 16 0x6757d6e799b0156e19cac96bd4f5e225ddbae073c1af96a4c144519a7ab9381f).map symbol

def sampleServer : Server where
  crypto := ⟨sampleHmac, fun _ => sampleDigest, fun _ => some (bigEndian 20 0x3132333435363738393031323334353637383930), id⟩
  decrypt := fun _ => "GEZDGNBVGY3TQOJQGEZDGNBVGY3TQOJQ".toList.map symbol
  account := [symbol 'u', symbol '1']

def sampleRow : TwoStepRow := ⟨[symbol 'x'], dumps [sampleDigest], 37037000, [symbol 't']⟩

def appRequest : Request := ⟨.checkCode, some (['0', '8', '1', ' ', '8', '0', '4'].map symbol)⟩

def recoveryRequest : Request :=
  ⟨.checkCode, some (['7', 'K', '3', 'M', '-', 'Q', '9', 'T', 'D', '-', 'X', '2', 'H', 'B', '-', 'R', '4', 'N', 'V'].map symbol)⟩

def sideBySide : List TwoStepAction :=
  [.arrive 0 appRequest, .arrive 1 recoveryRequest, .arrive 2 appRequest, .arrive 3 recoveryRequest,
    .reserve 0 true, .reserve 1 true, .reserve 2 true, .reserve 3 true, .look 0, .look 1, .look 2, .look 3,
    .begin 0, .select 0, .decide 0 1111111109, .commit 0, .begin 1, .select 1, .decide 1 1111111109, .release 0,
    .commit 1, .begin 2, .select 2, .decide 2 1111111129, .release 1, .begin 3, .select 3, .decide 3 1111111139]

instance decidableTwoStepEnabled (stored : Option TwoStepRow) (state : TwoStepState) (action : TwoStepAction) :
  Decidable ((twoStepMachine server stored).enabled state action) :=
  inferInstanceAs (Decidable ((state.step server action).isSome))

theorem codes_accepted_once_sideBySide :
  countersOf 0 ((twoStepMachine sampleServer (some sampleRow)).reports (twoStepReport sampleServer)
      (.start (some sampleRow)) sideBySide) = [37037036] /\
    usedBy 2 ([] ++ (twoStepMachine sampleServer (some sampleRow)).reports (twoStepReport sampleServer)
      (.start (some sampleRow)) sideBySide) = [] /\
    (spentOf ([] ++ (twoStepMachine sampleServer (some sampleRow)).reports (twoStepReport sampleServer)
      (.start (some sampleRow)) sideBySide)).count sampleDigest <= 1 := by
  have admitted : (twoStepMachine sampleServer (some sampleRow)).Admits (.start (some sampleRow)) sideBySide := by
    decide +kernel
  have result := codes_accepted_once ((Machine.Trace.start rfl).run sideBySide admitted)
  rcases result with ⟨_, bounded, _, _, _, unused, _⟩
  refine ⟨by decide +kernel, unused 2 .invalidCode (by decide +kernel), ?_⟩
  exact Nat.le_trans (bounded sampleDigest) (by decide +kernel)

end BananaChat.SignIn

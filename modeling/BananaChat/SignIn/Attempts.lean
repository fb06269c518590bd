import BananaChat.SignIn.TwoStep

namespace BananaChat.SignIn

open Foundation Option TwoStepState
open Function (update_self update_of_ne)

/-!
# Attempts at the lock

Only the holder of the write lock has read the row, so what it read is what is stored
when it commits.
-/

variable {server : Server}

def Accepts (server : Server) (row : Option TwoStepRow) : Used -> Prop
  | .app secret code counter now =>
    (∃ stored, row = some stored /\ stored.lastCounter < counter) /\ IsCodeOf server.crypto secret code now counter
  | .recovery code digest =>
    digest ∈ hashesOf row /\ recoveryHash server.crypto server.account code = some digest

def Check.Proper (server : Server) : Check -> Prop
  | .app _ => True
  | .recovery code candidate => recoveryHash server.crypto server.account code = some candidate

theorem firstMatch_some {candidate found : Text} {hashes : List Text} (isMatch : firstMatch candidate hashes = .ok (some found)) :
  found = candidate /\ candidate ∈ hashes := by
  induction hashes with
  | nil => cases isMatch
  | cons value rest ih =>
    unfold firstMatch at isMatch
    cases compared : compareDigest value candidate with
    | error error =>
      rw [compared] at isMatch
      cases isMatch
    | ok same =>
      rw [compared] at isMatch
      cases same with
      | true =>
        have isValue := compareDigest_eq_true compared
        rw [<- some.inj (Except.ok.inj isMatch), isValue]
        exact ⟨rfl, List.mem_cons_self⟩
      | false =>
        rcases ih isMatch with ⟨same, mem⟩
        exact ⟨same, List.mem_cons_of_mem _ mem⟩

variable {new : TwoStepRow} {row : Option TwoStepRow} {used : Used} {phase : Phase}

theorem verifyAppCode_some {code : Text} {now : ℚ} (accepted : verifyAppCode server code now row = .ok (some (new, used)))
  (attempt setUp : ℕ) : Accepts server row used /\ some new = Change.redo row (.used attempt setUp used) := by
  cases row with
  | none => cases accepted
  | some row =>
    unfold verifyAppCode at accepted
    dsimp only at accepted
    cases found : matchingCounter server.crypto (server.decrypt row.secretEncrypted) (some code) now with
    | error error =>
      rw [found] at accepted
      cases accepted
    | ok result =>
      rw [found] at accepted
      cases result with
      | none => cases accepted
      | some counter =>
        dsimp only at accepted
        by_cases late : counter <= row.lastCounter
        · rw [if_pos late] at accepted
          cases accepted
        · rw [if_neg late] at accepted
          cases accepted
          exact ⟨⟨⟨row, rfl, lt_of_not_ge late⟩, matchingCounter_some found⟩, rfl⟩

theorem useRecoveryCode_some {code candidate : Text}
  (accepted : useRecoveryCode code candidate row = .ok (some (new, used)))
  (proper : recoveryHash server.crypto server.account code = some candidate) (attempt setUp : ℕ) :
  Accepts server row used /\ some new = Change.redo row (.used attempt setUp used) := by
  unfold useRecoveryCode at accepted
  cases found : firstMatch candidate (hashesOf row) with
  | error error =>
    rw [found] at accepted
    cases accepted
  | ok result =>
    rw [found] at accepted
    cases result with
    | none => cases accepted
    | some digest =>
      rcases firstMatch_some found with ⟨same, mem⟩
      cases row with
      | none => cases accepted
      | some row =>
        cases accepted
        rw [same]
        exact ⟨⟨mem, proper⟩, rfl⟩

theorem run_some {check : Check} {now : ℚ} (proper : check.Proper server)
  (accepted : check.run server now row = .ok (some (new, used))) (attempt setUp : ℕ) :
  Accepts server row used /\ some new = Change.redo row (.used attempt setUp used) := by
  cases check with
  | app code => exact verifyAppCode_some accepted attempt setUp
  | recovery code candidate => exact useRecoveryCode_some accepted proper attempt setUp

theorem check_proper {request : Request} {check : Check} (asked : request.check server = .ok (some check)) :
  check.Proper server := by
  unfold Request.check at asked
  cases entry : request.entry with
  | confirmation =>
    rw [entry] at asked
    by_cases shaped : looksLikeCode request.code
    · rw [if_pos shaped] at asked
      cases asked
      trivial
    · rw [if_neg shaped] at asked
      cases asked
  | checkCode =>
    rw [entry] at asked
    unfold verify at asked
    generalize (strip (request.code.getD [])).take 128 = code at asked
    by_cases empty : code = []
    · rw [if_pos empty] at asked
      cases asked
    · rw [if_neg empty] at asked
      by_cases shaped : looksLikeCode (some code)
      · rw [if_pos shaped] at asked
        cases asked
        trivial
      · rw [if_neg shaped] at asked
        by_cases long : (normalizeRecoveryCode server.crypto code).length = 16
        · rw [if_pos long] at asked
          cases digest : recoveryHash server.crypto server.account code with
          | none =>
            rw [digest] at asked
            cases asked
          | some candidate =>
            rw [digest] at asked
            cases asked
            exact digest
        · rw [if_neg long] at asked
          cases asked

def Phase.holds : Phase -> Bool
  | .inside _ => true
  | .seen _ _ => true
  | .wrote _ _ => true
  | _ => false

def Phase.Sound (server : Server) (row : Option TwoStepRow) : Phase -> Prop
  | .waiting check => check.Proper server
  | .inside check => check.Proper server
  | .seen check read => check.Proper server /\ read = row
  | .wrote new used =>
    Accepts server row used /\ ∀ attempt setUp, some new = Change.redo row (.used attempt setUp used)
  | _ => True

def Phase.Tells (methods : List Method) : Phase -> Prop
  | .committed method => methods = [method]
  | .accepted method => methods = [method]
  | .failed => methods.length <= 1
  | _ => methods = []

theorem Phase.Sound.elsewhere (sound : phase.Sound server row) (outside : phase.holds = false) (other : Option TwoStepRow) :
  phase.Sound server other := by
  cases phase with
  | inside check | seen check read | wrote new used => cases outside
  | waiting check => exact sound
  | _ => trivial

structure Locked (server : Server) (state : TwoStepState) : Prop where
  holder : ∀ attempt, (state.phases attempt).holds ↔ state.lock = some attempt
  sound : ∀ attempt, (state.phases attempt).Sound server state.row

structure Quiet (server : Server) (state : TwoStepState) (attempt : ℕ) (phase : Phase) (lock : Option ℕ) : Prop where
  tells : ∀ methods, (state.phases attempt).Tells methods -> phase.Tells methods
  sound : phase.Sound server state.row
  holder : phase.holds ↔ lock = some attempt
  others : ∀ other, other ≠ attempt -> (lock = some other ↔ state.lock = some other)

inductive Stepped (server : Server) (state : TwoStepState) : TwoStepState -> List Change -> Prop
  | quiet (attempt : ℕ) (phase : Phase) (lock : Option ℕ) (quiet : Quiet server state attempt phase lock) :
      Stepped server state { state.move attempt phase with lock := lock } []
  | used (attempt : ℕ) (row : TwoStepRow) (used : Used) (wrote : state.phases attempt = .wrote row used) :
      Stepped server state { state.leave attempt (.committed used.method) with row := some row }
        [.used attempt state.setUps used]
  | unchanged : Stepped server state state []
  | enabled (row : TwoStepRow) (free : state.lock = none) (off : state.row = none) :
      Stepped server state { state with row := some row, setUps := state.setUps + 1 } [.enabled (state.setUps + 1) row]
  | renewed (row : TwoStepRow) (hashes : List Text) (free : state.lock = none) (on : state.row = some row) :
      Stepped server state { state with row := some { row with recoveryHashes := dumps hashes } } [.renewed hashes]
  | disabled (free : state.lock = none) : Stepped server state { state with row := none } [.disabled]

namespace Locked

variable {state : TwoStepState}

variable {attempt : ℕ}

section

variable (locked : Locked server state)
include locked

theorem staying (same : phase.holds = (state.phases attempt).holds) (sound : phase.Sound server state.row)
  (tells : ∀ methods, (state.phases attempt).Tells methods -> phase.Tells methods) :
  Stepped server state (state.move attempt phase) [] := by
  refine Stepped.quiet attempt phase state.lock ⟨tells, sound, ?_, fun _ _ => Iff.rfl⟩
  rw [same, <- locked.holder attempt]

theorem leaving (was : (state.phases attempt).holds) (leaves : phase.holds = false)
  (sound : phase.Sound server state.row)
  (tells : ∀ methods, (state.phases attempt).Tells methods -> phase.Tells methods) :
  Stepped server state (state.leave attempt phase) [] := by
  refine Stepped.quiet attempt phase none ⟨tells, sound, ?_, ?_⟩
  · rw [leaves]
    exact ⟨nofun, nofun⟩
  · intro _ different
    rw [(locked.holder attempt).mp was]
    exact ⟨nofun, (fun same => absurd (some.inj same).symm different)⟩

theorem killed (attempt : ℕ) (tells : ∀ methods, (state.phases attempt).Tells methods -> Phase.failed.Tells methods) :
  Stepped server state (state.kill attempt) [] := by
  unfold kill
  by_cases holds : state.lock = some attempt
  · rw [if_pos holds]
    exact locked.leaving ((locked.holder attempt).mpr holds) rfl True.intro tells
  · rw [if_neg holds]
    exact locked.staying (Bool.eq_false_iff.mpr fun inside => holds ((locked.holder attempt).mp inside)).symm True.intro tells

theorem unheld (free : state.lock = none) (row : Option TwoStepRow) (attempt : ℕ) :
  (state.phases attempt).Sound server row := by
  refine (locked.sound attempt).elsewhere ?_ row
  rw [Bool.eq_false_iff]
  intro inside
  rw [locked.holder attempt, free] at inside
  cases inside

end

end Locked

theorem Locked.next {state next : TwoStepState} {changes : List Change} (locked : Locked server state)
  (stepped : Stepped server state next changes) : Locked server next := by
  cases stepped with
  | unchanged => exact locked
  | quiet attempt phase lock quiet =>
    constructor
    · intro other
      by_cases same : other = attempt
      · rw [same]
        change (Function.update state.phases attempt phase attempt).holds ↔ lock = some attempt
        rw [update_self]
        exact quiet.holder
      · change (Function.update state.phases attempt phase other).holds ↔ lock = some other
        rw [update_of_ne same, quiet.others other same]
        exact locked.holder other
    · intro other
      by_cases same : other = attempt
      · rw [same]
        change (Function.update state.phases attempt phase attempt).Sound server state.row
        rw [update_self]
        exact quiet.sound
      · change (Function.update state.phases attempt phase other).Sound server state.row
        rw [update_of_ne same]
        exact locked.sound other
  | used attempt row used wrote =>
    have holds : state.lock = some attempt := by
      rw [<- locked.holder attempt, wrote]
      rfl
    have others (other : ℕ) (different : other ≠ attempt) : (state.phases other).holds = false := by
      rw [Bool.eq_false_iff]
      intro inside
      rw [locked.holder other, holds] at inside
      exact different (some.inj inside).symm
    constructor
    · intro other
      by_cases same : other = attempt
      · rw [same]
        change (Function.update state.phases attempt (.committed used.method) attempt).holds ↔ none = some attempt
        rw [update_self]
        exact ⟨nofun, nofun⟩
      · change (Function.update state.phases attempt (.committed used.method) other).holds ↔ none = some other
        rw [update_of_ne same, others other same]
        exact ⟨nofun, nofun⟩
    · intro other
      by_cases same : other = attempt
      · rw [same]
        change (Function.update state.phases attempt (.committed used.method) attempt).Sound server (some row)
        rw [update_self]
        trivial
      · change (Function.update state.phases attempt (.committed used.method) other).Sound server (some row)
        rw [update_of_ne same]
        exact (locked.sound other).elsewhere (others other same) _
  | enabled row free off | renewed row hashes free on | disabled free => exact ⟨locked.holder, locked.unheld free _⟩

section Steps

variable {state : TwoStepState} {next : TwoStepState × List Change} {attempt : ℕ}

theorem failed_tells (methods : List Method) (unused : methods = []) : Phase.failed.Tells methods := by
  rw [unused]
  exact Nat.zero_le 1

section

variable (locked : Locked server state)
include locked

theorem stepped_look (taken : state.step server (.look attempt) = some next) : Stepped server state next.1 next.2 := by
  simp only [step] at taken
  cases phase : state.phases attempt with
  | counted request =>
    rw [phase] at taken
    dsimp only at taken
    have was : (state.phases attempt).holds = false := by
      rw [phase]
      rfl
    have unused (methods : List Method) (told : (state.phases attempt).Tells methods) : methods = [] := by
      rw [phase] at told
      exact told
    cases asked : request.check server with
    | error error =>
      rw [asked] at taken
      cases taken
      exact locked.staying was.symm True.intro (fun methods told => failed_tells methods (unused methods told))
    | ok result =>
      rw [asked] at taken
      cases result with
      | none =>
        cases taken
        exact locked.staying was.symm True.intro unused
      | some check =>
        cases taken
        exact locked.staying was.symm (check_proper asked) unused
  | _ =>
    rw [phase] at taken
    cases taken

theorem stepped_begin (taken : state.step server (.begin attempt) = some next) :
  Stepped server state next.1 next.2 := by
  simp only [step] at taken
  cases phase : state.phases attempt with
  | waiting check =>
    rw [phase] at taken
    dsimp only at taken
    have proper := locked.sound attempt
    rw [phase] at proper
    by_cases free : state.lock = none
    · rw [if_pos free] at taken
      cases taken
      refine Stepped.quiet attempt (.inside check) (some attempt) ⟨?_, proper, ?_, ?_⟩
      · rw [phase]
        exact fun methods unused => unused
      · exact ⟨(fun _ => rfl), (fun _ => rfl)⟩
      · intro _ different
        rw [free]
        exact ⟨(fun same => absurd (some.inj same).symm different), nofun⟩
    · rw [if_neg free] at taken
      cases taken
  | _ =>
    rw [phase] at taken
    cases taken

theorem stepped_decide {now : ℚ} (taken : state.step server (.decide attempt now) = some next) :
  Stepped server state next.1 next.2 := by
  simp only [step] at taken
  cases phase : state.phases attempt with
  | seen check read =>
    rw [phase] at taken
    dsimp only at taken
    have was : (state.phases attempt).holds := by
      rw [phase]
      rfl
    have unused (methods : List Method) (told : (state.phases attempt).Tells methods) : methods = [] := by
      rw [phase] at told
      exact told
    have sound := locked.sound attempt
    rw [phase] at sound
    rcases sound with ⟨proper, isStored⟩
    cases ran : check.run server now read with
    | error error =>
      rw [ran] at taken
      cases taken
      exact locked.leaving was rfl True.intro (fun methods told => failed_tells methods (unused methods told))
    | ok result =>
      rw [ran] at taken
      cases result with
      | none =>
        cases taken
        exact locked.leaving was rfl True.intro unused
      | some answer =>
        cases taken
        rw [isStored] at ran
        have accepted := run_some proper ran
        exact locked.staying was.symm ⟨(accepted 0 0).1, (fun other setUp => (accepted other setUp).2)⟩ unused
  | _ =>
    rw [phase] at taken
    cases taken

theorem stepped_kill (taken : state.step server (.kill attempt) = some next) : Stepped server state next.1 next.2 := by
  simp only [step] at taken
  cases phase : state.phases attempt with
  | accepted method | refused refusal =>
    rw [phase] at taken
    cases taken
  | committed method =>
    rw [phase] at taken
    cases taken
    refine locked.killed attempt ?_
    rw [phase]
    intro methods told
    rw [show methods = [method] from told]
    exact Nat.le_refl 1
  | failed =>
    rw [phase] at taken
    cases taken
    refine locked.killed attempt ?_
    rw [phase]
    exact fun methods told => told
  | _ =>
    rw [phase] at taken
    cases taken
    refine locked.killed attempt ?_
    rw [phase]
    exact failed_tells

end

theorem stepped_enable (free : state.lock = none) (secretEncrypted : Text) (hashes : List Text) (counter : ℤ)
  (enabledAt : Text) : Stepped server state (state.enable secretEncrypted hashes counter enabledAt).1
    (state.enable secretEncrypted hashes counter enabledAt).2 := by
  unfold enable
  cases row : state.row with
  | some stored => exact Stepped.unchanged
  | none => exact Stepped.enabled _ free row

theorem stepped_renew (free : state.lock = none) (hashes : List Text) :
  Stepped server state (state.renew hashes).1 (state.renew hashes).2 := by
  unfold renew
  cases row : state.row with
  | none => exact Stepped.unchanged
  | some stored => exact Stepped.renewed stored hashes free row

theorem stepped_disable (free : state.lock = none) : Stepped server state state.disable.1 state.disable.2 := by
  unfold disable
  cases row : state.row with
  | none => exact Stepped.unchanged
  | some stored => exact Stepped.disabled free

theorem stepped_of_step (locked : Locked server state) {action : TwoStepAction} (taken : state.step server action = some next) :
  Stepped server state next.1 next.2 := by
  cases action with
  | look attempt => exact stepped_look locked taken
  | begin attempt => exact stepped_begin locked taken
  | decide attempt now => exact stepped_decide locked taken
  | kill attempt => exact stepped_kill locked taken
  | arrive attempt request =>
    simp only [step] at taken
    by_cases absent : state.phases attempt = .absent
    · rw [if_pos absent] at taken
      cases taken
      refine locked.staying ?_ True.intro ?_
      · rw [absent]
        rfl
      · rw [absent]
        exact fun methods unused => unused
    · rw [if_neg absent] at taken
      cases taken
  | reserve attempt granted =>
    simp only [step] at taken
    cases phase : state.phases attempt with
    | arrived request =>
      rw [phase] at taken
      cases taken
      refine locked.staying ?_ ?_ ?_
      · rw [phase]
        cases granted <;> rfl
      · cases granted <;> exact True.intro
      · rw [phase]
        cases granted <;> exact fun methods unused => unused
    | _ =>
      rw [phase] at taken
      cases taken
  | select attempt =>
    simp only [step] at taken
    cases phase : state.phases attempt with
    | inside check =>
      rw [phase] at taken
      cases taken
      have proper := locked.sound attempt
      rw [phase] at proper
      refine locked.staying ?_ ⟨proper, rfl⟩ ?_
      · rw [phase]
        rfl
      · rw [phase]
        exact fun methods unused => unused
    | _ =>
      rw [phase] at taken
      cases taken
  | commit attempt =>
    simp only [step] at taken
    cases phase : state.phases attempt with
    | wrote row used =>
      rw [phase] at taken
      cases taken
      exact Stepped.used attempt row used phase
    | _ =>
      rw [phase] at taken
      cases taken
  | release attempt =>
    simp only [step] at taken
    cases phase : state.phases attempt with
    | committed method =>
      rw [phase] at taken
      cases taken
      refine locked.staying ?_ True.intro ?_
      · rw [phase]
        rfl
      · rw [phase]
        exact fun methods told => told
    | _ =>
      rw [phase] at taken
      cases taken
  | enable secretEncrypted draws counter enabledAt =>
    simp only [step] at taken
    by_cases free : state.lock = none
    · rw [if_pos free, map_eq_some_iff] at taken
      rcases taken with ⟨hashes, _, isNext⟩
      rw [<- isNext]
      exact stepped_enable free secretEncrypted hashes counter enabledAt
    · rw [if_neg free] at taken
      cases taken
  | renew draws =>
    simp only [step] at taken
    by_cases free : state.lock = none
    · rw [if_pos free, map_eq_some_iff] at taken
      rcases taken with ⟨hashes, _, isNext⟩
      rw [<- isNext]
      exact stepped_renew free hashes
    · rw [if_neg free] at taken
      cases taken
  | disable =>
    simp only [step] at taken
    by_cases free : state.lock = none
    · rw [if_pos free] at taken
      rw [<- some.inj taken]
      exact stepped_disable free
    · rw [if_neg free] at taken
      cases taken

end Steps

end BananaChat.SignIn

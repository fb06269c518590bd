import BananaChat.Foundation.Machine
import Mathlib.Tactic.Linarith

namespace BananaChat.Workers

open Foundation List Option

/-!
# The Ollama a worker starts

The threads of a worker share the process and the time of the last use.
-/

inductive OllamaRequest
  | chat
  | pull
  | delete
deriving DecidableEq

inductive OllamaPhase
  | rest
  | ensuring
  /-- The lock of `ensure_running` is left, and Ollama does not answer yet. -/
  | awaiting
  | ensured
  | requesting (request : OllamaRequest)
  /-- `stop_if_idle` is going to stop the process. -/
  | idle
  /-- `stop_managed` has taken the process. -/
  | stopping (isIdle : Bool) (process : ℕ)
deriving DecidableEq

namespace OllamaPhase

def uses : OllamaPhase -> Bool
  | .ensured | .requesting _ => true
  | _ => false

def idles : OllamaPhase -> Bool
  | .idle | .stopping true _ => true
  | _ => false

def process? : OllamaPhase -> Option ℕ
  | .stopping _ process => some process
  | _ => none

end OllamaPhase

/-- Started processes have the numbers in which they start; thread 0 is the job loop. -/
structure LocalOllama where
  clock : ℚ
  lastUsed : ℚ
  process : Option ℕ
  started : ℕ
  alive : List ℕ
  signalled : List ℕ
  threads : ℕ -> OllamaPhase

inductive OllamaAction
  | tick (now : ℚ)
  | exit (process : ℕ)
  | ensure (thread : ℕ)
  | launch (thread : ℕ)
  | ready (thread : ℕ)
  /-- `ensure_running` fails, or a request ends that writes no time at its end. -/
  | leave (thread : ℕ)
  | request (thread : ℕ) (request : OllamaRequest)
  | record (thread : ℕ)
  | finish (thread : ℕ)
  | stopIfIdle
  | take (thread : ℕ)
  | signal (thread : ℕ)
  | stopped (thread : ℕ)

namespace LocalOllama

variable (timeout : ℚ) (state : LocalOllama)

/-- `managed_pid` is not `None`. -/
def isManaged : Bool := state.process.any (state.alive.contains ·)

def goTo (thread : ℕ) (phase : OllamaPhase) : LocalOllama :=
  { state with threads := Function.update state.threads thread phase }

def stamp : LocalOllama := { state with lastUsed := state.clock }

def taking (thread : ℕ) : OllamaPhase :=
  match state.process.filter (state.alive.contains ·) with
  | some process => .stopping (state.threads thread = .idle) process
  | none => .rest

def enabled : OllamaAction -> Bool
  | .tick now => state.clock <= now
  | .exit process => state.alive.contains process
  | .ensure thread => state.threads thread = .rest
  | .launch thread => state.threads thread = .ensuring
  | .ready thread => state.threads thread = .ensuring || state.threads thread = .awaiting
  | .leave thread => state.threads thread = .ensuring || state.threads thread = .awaiting || (state.threads thread).uses
  | .request thread request => state.threads thread = .ensured && (request = .chat) = (thread = 0)
  | .record thread => state.threads thread = .requesting .pull
  | .finish thread => state.threads thread = .requesting .chat
  | .stopIfIdle => state.threads 0 = .rest && 0 < timeout && state.isManaged && timeout <= state.clock - state.lastUsed
  | .take thread => state.threads thread = .rest || state.threads thread = .idle
  | .signal thread | .stopped thread => (state.threads thread).process?.isSome

def next : OllamaAction -> LocalOllama
  | .tick now => { state with clock := now }
  | .exit process => { state with alive := state.alive.erase process }
  | .ensure thread => state.goTo thread .ensuring
  | .launch thread =>
    if state.isManaged then
      state.goTo thread .awaiting
    else
      { state.goTo thread .awaiting with
        process := some state.started, started := state.started + 1, alive := state.started :: state.alive }
  | .ready thread => state.goTo thread .ensured
  | .leave thread => state.goTo thread .rest
  | .request thread .delete => state.goTo thread (.requesting .delete)
  | .request thread request => state.stamp.goTo thread (.requesting request)
  | .record _ => state.stamp
  | .finish thread => state.stamp.goTo thread .rest
  | .stopIfIdle => state.goTo 0 .idle
  | .take thread => { state.goTo thread (state.taking thread) with process := none }
  | .signal thread =>
    -- a signal is not sent to a process that has ended
    { state with signalled := ((state.threads thread).process?.filter (state.alive.contains ·)).toList ++ state.signalled }
  | .stopped thread => state.goTo thread .rest

def start (now : ℚ) : LocalOllama := ⟨now, now, none, 0, [], [], fun _ => .rest⟩

abbrev machine : Machine LocalOllama OllamaAction where
  initial state := ∃ now, state = start now
  enabled state action := state.enabled timeout action
  next := next

/-- Only started processes get signals, one is alive at most, and none that is used is stopped for being idle. -/
structure StopsIdle : Prop where
  own : ∀ process ∈ state.signalled, process < state.started
  one : state.alive.length <= 1
  idle : ∀ thread other, (state.threads thread).idles -> ¬ (state.threads other).uses

/-- The last use is younger than the time-out, and no idle stop is under way. -/
def Recent : Prop := (0 < timeout -> state.clock < state.lastUsed + timeout) /\ ¬ (state.threads 0).idles

/-- The last use is recent when a command begins to use Ollama and stays so as long as it does, and a
process starts when those before it have ended. -/
def Meets : OllamaAction -> Prop
  | .tick now => (∃ thread, thread ≠ 0 /\ (state.threads thread).uses) -> 0 < timeout -> now < state.lastUsed + timeout
  | .ready thread => thread ≠ 0 -> state.Recent timeout
  | .launch _ => ¬ state.isManaged -> state.alive = []
  | _ => True

structure Kept : Prop where
  own : ∀ process ∈ state.signalled, process < state.started
  handle : ∀ process ∈ state.process, process < state.started
  taken : ∀ thread, ∀ process ∈ (state.threads thread).process?, process < state.started
  one : state.alive.length <= 1
  loop : ∀ thread, (state.threads thread).idles -> thread = 0
  used : ∀ thread, thread ≠ 0 -> (state.threads thread).uses -> state.Recent timeout

variable {timeout} {state} {action : OllamaAction} {thread : ℕ} {phase : OllamaPhase}

theorem Kept.stopsIdle (kept : Kept timeout state) : StopsIdle state where
  own := kept.own
  one := kept.one
  idle thread other idles uses := by
    rcases kept.loop thread idles with rfl
    by_cases loop : other = 0
    · subst loop
      revert idles uses
      cases state.threads 0 <;> nofun
    · exact (kept.used other loop uses).2 idles

theorem Kept.stamp (kept : Kept timeout state) : Kept timeout state.stamp :=
  { kept with used := fun thread other uses => ⟨lt_add_of_pos_right _, (kept.used thread other uses).2⟩ }

theorem threads_goTo (other : ℕ) : (state.goTo thread phase).threads other = if other = thread then phase else state.threads other :=
  Function.update_apply state.threads thread phase other

theorem Kept.goTo (kept : Kept timeout state) (taken : ∀ process ∈ phase.process?, process < state.started)
  (idles : phase.idles -> thread = 0 /\ ∀ other, other ≠ 0 -> ¬ (state.threads other).uses)
  (uses : thread ≠ 0 -> phase.uses -> state.Recent timeout) : Kept timeout (state.goTo thread phase) where
  own := kept.own
  handle := kept.handle
  taken other := by
    rw [threads_goTo]
    split
    · exact taken
    · exact kept.taken other
  one := kept.one
  loop other := by
    rw [threads_goTo]
    split
    · rename_i same
      exact fun isIdle => same.trans (idles isIdle).1
    · exact kept.loop other
  used other outside := by
    rw [Recent, threads_goTo, threads_goTo]
    split
    · rename_i same
      subst same
      rw [if_neg outside.symm]
      exact uses outside
    · intro isUsed
      have both := kept.used other outside isUsed
      refine ⟨both.1, ?_⟩
      split
      · exact fun isIdle => (idles isIdle).2 other outside isUsed
      · exact both.2

theorem Kept.quiet (kept : Kept timeout state) (thread : ℕ) (taken : phase.process? = none) (idles : phase.idles = false)
  (uses : phase.uses = false) : Kept timeout (state.goTo thread phase) :=
  kept.goTo (taken ▸ nofun) (idles ▸ nofun) (uses ▸ nofun)

theorem Kept.next (kept : Kept timeout state) (enabled : state.enabled timeout action) (meets : Meets timeout state action) :
  Kept timeout (state.next action) := by
  cases action with
  | tick now => exact { kept with used := fun thread other uses => ⟨meets ⟨thread, other, uses⟩, (kept.used thread other uses).2⟩ }
  | exit process => exact { kept with one := (erase_sublist.length_le).trans kept.one }
  | ensure thread | leave thread | stopped thread => exact kept.quiet thread rfl rfl rfl
  | finish thread => exact kept.stamp.quiet thread rfl rfl rfl
  | record thread => exact kept.stamp
  | launch thread =>
    have moved : Kept timeout (state.goTo thread .awaiting) := kept.quiet thread rfl rfl rfl
    unfold LocalOllama.next
    dsimp only
    split
    · exact moved
    · rename_i ended
      exact {
        own := fun process mem => Nat.lt_succ_of_lt (kept.own process mem)
        handle := fun process mem => mem_some_iff.mp mem ▸ Nat.lt_succ_self _
        taken := fun thread process mem => Nat.lt_succ_of_lt (moved.taken thread process mem)
        one := meets ended ▸ Nat.le_refl 1
        loop := moved.loop
        used := moved.used }
  | ready thread => exact kept.goTo nofun nofun fun other _ => meets other
  | request thread request =>
    have phase : state.threads thread = .ensured := of_decide_eq_true (Bool.and_eq_true_iff.mp enabled).1
    have asks (request : OllamaRequest) : Kept timeout (state.goTo thread (.requesting request)) :=
      kept.goTo nofun nofun fun other _ => kept.used thread other (phase ▸ rfl)
    cases request with
    | delete => exact asks .delete
    | chat => exact (asks .chat).stamp
    | pull => exact (asks .pull).stamp
  | stopIfIdle =>
    simp only [LocalOllama.enabled, Bool.and_eq_true, decide_eq_true_eq] at enabled
    refine kept.goTo nofun (fun _ => ⟨rfl, fun other outside uses => ?_⟩) nofun
    have young := (kept.used other outside uses).1 enabled.1.1.2
    linarith [enabled.2]
  | take thread =>
    have moved : Kept timeout (state.goTo thread (state.taking thread)) := by
      unfold taking
      cases alive : state.process.filter (state.alive.contains ·) with
      | none => exact kept.quiet thread rfl rfl rfl
      | some process =>
        refine kept.goTo (fun other mem => ?_) (fun idles => ?_) nofun
        · exact mem_some_iff.mp mem ▸ kept.handle process (filter_eq_some_iff.mp alive).1
        · have phase : state.threads thread = .idle := by
            by_contra busy
            rw [decide_eq_false busy] at idles
            cases idles
          rcases kept.loop thread (phase ▸ rfl) with rfl
          exact ⟨rfl, fun other outside uses => (kept.used other outside uses).2 (phase ▸ rfl)⟩
    exact { moved with handle := nofun }
  | signal thread =>
    refine { kept with own := fun process mem => ?_ }
    rcases mem_append.mp mem with sent | old
    · exact kept.taken thread process (mem_filter_iff.mp (mem_toList.mp sent)).1
    · exact kept.own process old

/-- The machine whose steps all meet the conditions. -/
def heeding (timeout : ℚ) : Machine LocalOllama OllamaAction :=
  (machine timeout).guarded fun state action => state.enabled timeout action /\ Meets timeout state action

theorem Kept.run (kept : Kept timeout state) {actions : List OllamaAction} (admitted : (heeding timeout).Admits state actions) :
  (machine timeout).Throughout StopsIdle state actions := by
  induction actions generalizing state with
  | nil => exact kept.stopsIdle
  | cons action rest ih => exact ⟨kept.stopsIdle, ih (kept.next admitted.1.1 admitted.1.2) admitted.2⟩

end LocalOllama
end BananaChat.Workers

import BananaChat.Foundation.Machine
import Mathlib.Algebra.Order.Ring.Rat

namespace BananaChat.Background

open Foundation List Function

/-!
# The scheduler of the periodic jobs

A round, and the end of a job's thread, each happen under one lock.
-/

variable {Job : Type} [DecidableEq Job]

def maxParallel : ℕ := 4

/-- `due` is none while a job runs; `live` are the jobs whose threads really run. -/
structure Scheduler (Job : Type) where
  jobs : List Job
  due : Job -> Option ℚ
  running : List Job
  live : List Job

inductive SchedulerAction (Job : Type)
  /-- A round, and of which jobs a thread can be started. -/
  | round (now : ℚ) (starts : Job -> Bool)
  /-- The thread of a job ends, however, and sets its next time. -/
  | finish (job : Job) (time : ℚ)

namespace Scheduler

/-- The loop of a round; a thread that does not start is an exception that ends it. -/
def visit (now : ℚ) (starts : Job -> Bool) : List Job -> Scheduler Job -> Scheduler Job
  | [], scheduler => scheduler
  | job :: rest, scheduler =>
    if job ∈ scheduler.running \/ ¬ (scheduler.due job).any (· <= now) \/ maxParallel <= scheduler.running.length then
      visit now starts rest scheduler
    else
      let placed := { scheduler with due := update scheduler.due job none, running := scheduler.running ++ [job] }
      if starts job then visit now starts rest { placed with live := scheduler.live ++ [job] } else placed

def next (scheduler : Scheduler Job) : SchedulerAction Job -> Scheduler Job
  | .round now starts => visit now starts scheduler.jobs scheduler
  | .finish job time =>
    { scheduler with
      due := update scheduler.due job (some time), running := scheduler.running.erase job, live := scheduler.live.erase job }

def enabled (scheduler : Scheduler Job) : SchedulerAction Job -> Prop
  | .round _ _ => True
  | .finish job _ => job ∈ scheduler.live

def start (jobs : List Job) (first : Job -> ℚ) : Scheduler Job := ⟨jobs, fun job => some (first job), [], []⟩

abbrev machine : Machine (Scheduler Job) (SchedulerAction Job) where
  initial scheduler := ∃ jobs first, scheduler = start jobs first
  enabled := enabled
  next := next

def Starts : SchedulerAction Job -> Prop
  | .round _ starts => ∀ job, starts job
  | .finish _ _ => True

/-- No job runs twice, `maxParallel` run at most, and one that does not run is started by the next round
after its time with a place left. -/
structure Runs (scheduler : Scheduler Job) : Prop where
  once : scheduler.live.Nodup
  few : scheduler.live.length <= maxParallel
  due : ∀ job ∈ scheduler.jobs, job ∉ scheduler.live -> ∃ time, scheduler.due job = some time /\
    ∀ now starts, time <= now -> (∀ other, starts other) ->
      job ∈ (scheduler.next (.round now starts)).live \/ maxParallel <= (scheduler.next (.round now starts)).live.length

structure Kept (scheduler : Scheduler Job) : Prop where
  same : scheduler.running = scheduler.live
  once : scheduler.live.Nodup
  few : scheduler.live.length <= maxParallel
  due : ∀ job, job ∉ scheduler.live -> (scheduler.due job).isSome

variable {scheduler : Scheduler Job} {now : ℚ} {starts : Job -> Bool} {job : Job}

theorem Kept.place (kept : Kept scheduler) (apart : job ∉ scheduler.running) (room : scheduler.running.length < maxParallel) :
  Kept ⟨scheduler.jobs, update scheduler.due job none, scheduler.running ++ [job], scheduler.live ++ [job]⟩ where
  same := by rw [kept.same]
  once := by
    rw [kept.same] at apart
    exact (perm_append_singleton job scheduler.live).nodup_iff.mpr (nodup_cons.mpr ⟨apart, kept.once⟩)
  few := by
    rw [kept.same] at room
    rw [length_append]
    exact room
  due other absent := by
    rw [mem_append, mem_singleton, not_or] at absent
    dsimp only
    rw [update_of_ne absent.2]
    exact kept.due other absent.1

theorem Kept.visit (kept : Kept scheduler) (all : ∀ job, starts job) (jobs : List Job) :
  Kept (visit now starts jobs scheduler) /\ scheduler.live <+: (Scheduler.visit now starts jobs scheduler).live /\
    ∀ job ∈ jobs, (job ∈ scheduler.live \/ ∃ time ≤ now, scheduler.due job = some time) ->
      job ∈ (Scheduler.visit now starts jobs scheduler).live \/ maxParallel <= (Scheduler.visit now starts jobs scheduler).live.length := by
  induction jobs generalizing scheduler with
  | nil => exact ⟨kept, prefix_rfl, nofun⟩
  | cons head rest ih =>
    unfold Scheduler.visit
    split
    · rename_i passed
      rcases ih kept with ⟨keptLater, grows, later⟩
      refine ⟨keptLater, grows, fun job mem waits => ?_⟩
      rcases mem_cons.mp mem with rfl | inRest
      · rcases passed with runs | notDue | full
        · exact .inl (grows.subset (kept.same ▸ runs))
        · rcases waits with runs | ⟨_, late, due⟩
          · exact .inl (grows.subset runs)
          · rw [due] at notDue
            exact absurd (decide_eq_true late) notDue
        · exact .inr ((kept.same ▸ full).trans grows.length_le)
      · exact later job inRest waits
    · rename_i free
      rw [not_or, not_or, not_le] at free
      rw [if_pos (all head)]
      rcases ih (kept.place free.1 free.2.2) with ⟨keptLater, grows, later⟩
      have placed : head ∈ (Scheduler.visit now starts rest _).live := grows.subset (mem_append_right _ mem_cons_self)
      refine ⟨keptLater, (prefix_append _ _).trans grows, fun job mem waits => ?_⟩
      by_cases isHead : job = head
      · exact .inl (isHead ▸ placed)
      · refine later job ((mem_cons.mp mem).resolve_left isHead) ?_
        dsimp only
        rw [update_of_ne isHead]
        exact waits.imp_left (mem_append_left _)

theorem Kept.runs (kept : Kept scheduler) : Runs scheduler where
  once := kept.once
  few := kept.few
  due job mem absent := by
    rcases Option.isSome_iff_exists.mp (kept.due job absent) with ⟨time, due⟩
    exact ⟨time, due, fun now starts late all => (kept.visit all scheduler.jobs).2.2 job mem (.inr ⟨time, late, due⟩)⟩

theorem Kept.next (kept : Kept scheduler) {action : SchedulerAction Job} (starts : Starts action) : Kept (scheduler.next action) := by
  cases action with
  | round now starting => exact (kept.visit starts scheduler.jobs).1
  | finish job time =>
    refine ⟨congrArg (·.erase job) kept.same, kept.once.erase job, (erase_sublist.length_le).trans kept.few, fun other absent => ?_⟩
    by_cases isJob : other = job
    · dsimp only [Scheduler.next]
      rw [isJob, update_self]
      rfl
    · dsimp only [Scheduler.next]
      rw [update_of_ne isJob]
      exact kept.due other fun runs => absent ((mem_erase_of_ne isJob).mpr runs)

def starting : Machine (Scheduler Job) (SchedulerAction Job) := machine.guarded fun scheduler action => scheduler.enabled action /\ Starts action

theorem Kept.run (kept : Kept scheduler) {actions : List (SchedulerAction Job)} (admitted : starting.Admits scheduler actions) :
  machine.Throughout Runs scheduler actions := by
  induction actions generalizing scheduler with
  | nil => exact kept.runs
  | cons action rest ih => exact ⟨kept.runs, ih (kept.next admitted.1.2) admitted.2⟩

/-- As long as every thread starts, jobs neither overlap nor get lost. -/
theorem jobs_kept {jobs : List Job} {first : Job -> ℚ} {actions : List (SchedulerAction Job)}
  (admitted : starting.Admits (start jobs first) actions) : machine.Throughout Runs (start jobs first) actions :=
  have kept : Kept (start jobs first) := ⟨rfl, nodup_nil, Nat.zero_le _, fun _ _ => rfl⟩
  kept.run admitted

theorem jobs_kept_again : machine.Throughout Runs (start [1] fun _ => 0) [.round 0 fun _ => true, .finish 1 60, .round 60 fun _ => true] :=
  jobs_kept ⟨⟨trivial, fun _ => rfl⟩, ⟨mem_cons_self, trivial⟩, ⟨trivial, fun _ => rfl⟩, trivial⟩

/-- A job whose thread does not start has no time, and no later round starts it. -/
theorem job_lost : let scheduler := machine.run (start [1] fun _ => 0) [.round 0 fun _ => false]
  ¬ Runs scheduler /\ ∀ now starts, scheduler.next (.round now starts) = scheduler := by
  refine ⟨fun runs => ?_, fun now starts => rfl⟩
  rcases runs.due 1 mem_cons_self nofun with ⟨time, due, _⟩
  cases due

/-- What holds of every scheduler, whatever threads start. -/
structure Safe (scheduler : Scheduler Job) : Prop where
  counted : scheduler.live <+ scheduler.running
  once : scheduler.running.Nodup
  few : scheduler.running.length <= maxParallel

theorem Safe.visit (safe : Safe scheduler) (jobs : List Job) : Safe (visit now starts jobs scheduler) := by
  induction jobs generalizing scheduler with
  | nil => exact safe
  | cons head rest ih =>
    unfold Scheduler.visit
    split
    · exact ih safe
    · rename_i free
      rw [not_or, not_or, not_le] at free
      have once : (scheduler.running ++ [head]).Nodup :=
        (perm_append_singleton head scheduler.running).nodup_iff.mpr (nodup_cons.mpr ⟨free.1, safe.once⟩)
      have few : (scheduler.running ++ [head]).length <= maxParallel := by
        rw [length_append]
        exact free.2.2
      split
      · exact ih ⟨safe.counted.append (.refl _), once, few⟩
      · exact ⟨safe.counted.trans (sublist_append_left _ _), once, few⟩

theorem safe_invariant : (machine : Machine (Scheduler Job) (SchedulerAction Job)).Invariant Safe where
  initial := by
    rintro _ ⟨_, _, rfl⟩
    exact ⟨.refl _, nodup_nil, Nat.zero_le _⟩
  step scheduler action safe _ := by
    cases action with
    | round now starts => exact safe.visit scheduler.jobs
    | finish job time =>
      exact ⟨safe.counted.erase job, safe.once.erase job, erase_sublist.length_le.trans safe.few⟩

/-- Whatever threads start: no job runs twice, and `maxParallel` run at most. -/
theorem jobs_apart (reachable : machine.Reachable scheduler) : scheduler.live.Nodup /\ scheduler.live.length <= maxParallel :=
  have safe := safe_invariant.reachable reachable
  ⟨safe.counted.nodup safe.once, safe.counted.length_le.trans safe.few⟩

theorem jobs_apart_failed : (machine.run (start [1, 2] fun _ => 0) [.round 0 (· = 1)]).live.Nodup :=
  have started : machine.Reachable (start [1, 2] fun _ => 0) := .start ⟨_, _, rfl⟩
  (jobs_apart (started.run [.round 0 (· = 1)] ⟨trivial, trivial⟩)).1

def Lost (scheduler : Scheduler Job) (job : Job) : Prop := job ∈ scheduler.running /\ job ∉ scheduler.live

theorem Lost.visit (lost : Lost scheduler job) (jobs : List Job) : Lost (visit now starts jobs scheduler) job := by
  induction jobs generalizing scheduler with
  | nil => exact lost
  | cons head rest ih =>
    unfold Scheduler.visit
    split
    · exact ih lost
    · rename_i free
      have placed : job ∈ scheduler.running ++ [head] := mem_append_left _ lost.1
      split
      · refine ih ⟨placed, fun runs => ?_⟩
        rcases mem_append.mp runs with before | isHead
        · exact lost.2 before
        · exact free (.inl (mem_singleton.mp isHead ▸ lost.1))
      · exact ⟨placed, lost.2⟩

/-- A job whose thread did not start takes its place for good: no later round starts it, and nothing ends it. -/
theorem lost_for_good (lost : Lost scheduler job) {actions : List (SchedulerAction Job)}
  (admitted : machine.Admits scheduler actions) : Lost (machine.run scheduler actions) job := by
  induction actions generalizing scheduler with
  | nil => exact lost
  | cons action rest ih =>
    refine ih ?_ admitted.2
    cases action with
    | round now starts => exact lost.visit scheduler.jobs
    | finish other time =>
      have apart : job ≠ other := fun same => lost.2 (same ▸ admitted.1)
      exact ⟨(mem_erase_of_ne apart).mpr lost.1, fun runs => lost.2 (mem_of_mem_erase runs)⟩

theorem lost_for_good_later : Lost (machine.run ⟨[1], fun _ => none, [1], []⟩ [.round 60 fun _ => true]) 1 :=
  lost_for_good ⟨by decide, by decide⟩ ⟨trivial, trivial⟩

end Scheduler
end BananaChat.Background

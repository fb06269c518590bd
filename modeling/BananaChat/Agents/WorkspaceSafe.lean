import BananaChat.Agents.WorkspaceKept

namespace BananaChat.Agents

open Foundation List

/-!
# What is deleted, and by whom

The work that deletes a sandbox holds it alone, chose it when its task had no run, or is
the run of its task.
-/

def RunPlace.deletes : RunPlace -> RunStep -> Option ℕ
  | .working (some sandboxId), .exec true | .working (some sandboxId), .interrupt _ => some sandboxId
  | .dropping sandboxId, .drop _ | .removing sandboxId, .remove _ | .discarding sandboxId, .discard _ => some sandboxId
  | _, _ => none

def Job.deletes : Job -> Option ℕ
  | .reaping ((_, sandboxId) :: _) | .sweeping (sandboxId :: _) | .reclaiming _ sandboxId | .purged _ _ sandboxId _ |
      .stopping _ sandboxId _ => some sandboxId
  | _ => none

section Deleted

variable {yard next : Yard} {own : ℕ}

theorem has_same (same : next.boxes = yard.boxes) : next.has own = yard.has own := by
  unfold Yard.has
  rw [same]

theorem eq_of_without {other : ℕ} (had : yard.has own) (hasNot : (yard.without other).has own = false) : other = own := by
  by_contra apart
  rcases has_iff.mp had with ⟨box, mem, same⟩
  have stays : (yard.without other).has own := by
    refine has_iff.mpr ⟨box, mem_filter.mpr ⟨mem, ?_⟩, same⟩
    apply decide_eq_true
    intro equal
    exact apart (equal.symm.trans same)
  rw [stays] at hasNot
  cases hasNot

theorem eq_of_delete {other : ℕ} {answer : Answer} (had : yard.has own) (hasNot : (yard.delete other answer).has own = false) :
  other = own := by
  cases answer with
  | ok | removed | late => exact eq_of_without had hasNot
  | failed | notFound => exact absurd (had.symm.trans hasNot) Bool.noConfusion

theorem deletes_of_runStep {taskId token : ℕ} {place after : RunPlace} {step : RunStep}
  (stepped : yard.runStep taskId token place step = some (next, after)) (had : yard.has own) (hasNot : next.has own = false) :
  place.deletes step = some own := by
  have unchanged (same : next.boxes = yard.boxes) : place.deletes step = some own := by
    rw [has_same same, had] at hasNot
    cases hasNot
  unfold Yard.runStep at stepped
  split at stepped
  case h_7 sandboxId =>
    cases stepped
    rcases has_iff.mp had with ⟨box, mem, same⟩
    have stays : (yard.add taskId sandboxId).has own := has_iff.mpr ⟨box, mem_append_left _ mem, same⟩
    rw [stays] at hasNot
    cases hasNot
  case h_9 sandboxId answer =>
    cases stepped
    exact congrArg some (eq_of_delete had hasNot)
  case h_10 sandboxId removed =>
    cases removed with
    | false =>
      cases stepped
      exact unchanged rfl
    | true =>
      cases stepped
      exact congrArg some (eq_of_without had hasNot)
  case h_13 sandboxId answer =>
    cases stepped
    by_cases isOk : answer = .ok
    · rw [if_pos isOk] at hasNot
      exact absurd (had.symm.trans hasNot) Bool.noConfusion
    · rw [if_neg isOk] at hasNot
      exact congrArg some (eq_of_delete had hasNot)
  case h_16 sandboxId answer =>
    cases stepped
    exact congrArg some (eq_of_delete had hasNot)
  case h_20 sandboxId answer =>
    cases stepped
    exact congrArg some (eq_of_delete had hasNot)
  all_goals
    apply unchanged
    clear unchanged had hasNot
    repeat' split at stepped
  all_goals cases stepped <;> rfl

theorem deletes_of_cleanStep {job moved : Job} {answer : Answer} (stepped : yard.cleanStep answer job = some (next, moved))
  (had : yard.has own) (hasNot : next.has own = false) : job.deletes = some own := by
  have unchanged (same : next.boxes = yard.boxes) : job.deletes = some own := by
    rw [has_same same, had] at hasNot
    cases hasNot
  unfold Yard.cleanStep at stepped
  split at stepped
  case h_4 taskId sandboxId rows =>
    cases stepped
    exact congrArg some (eq_of_delete had hasNot)
  case h_8 sandboxId rest =>
    cases stepped
    exact congrArg some (eq_of_delete had hasNot)
  case h_10 taskId sandboxId =>
    cases stepped
    exact congrArg some (eq_of_delete had hasNot)
  case h_15 cutoff taskId sandboxId rows =>
    cases stepped
    exact congrArg some (eq_of_delete had hasNot)
  case h_18 taskId sandboxId tasks =>
    cases stepped
    by_cases isOk : answer = .ok
    · rw [if_pos isOk] at hasNot
      exact absurd (had.symm.trans hasNot) Bool.noConfusion
    · rw [if_neg isOk] at hasNot
      exact congrArg some (eq_of_delete had hasNot)
  all_goals
    apply unchanged
    cases stepped <;> rfl

def Yard.Free (yard : Yard) (sandboxId : ℕ) : Prop :=
  ∀ row ∈ yard.store.tasks, row.sandboxId = some sandboxId -> row.ownerToken = none \/ yard.Gone sandboxId

theorem free_of_unnamed (unnamed : yard.Unnamed own) : yard.Free own :=
  fun row mem names => .inr (unnamed.2 row mem names)

theorem free_of_idle (kept : YardKept yard) {taskId : ℕ} (isMade : (own, taskId) ∈ yard.made) (idle : yard.Idle taskId) :
  yard.Free own := by
  intro row mem names
  exact .inl (idle.2 row mem (session_eq kept (kept.names row mem own names) isMade))

theorem free_of_missing (kept : YardKept yard) {taskId : ℕ} (isMade : (own, taskId) ∈ yard.made) (missing : yard.Missing taskId) :
  yard.Free own := by
  intro row mem names
  exact absurd (session_eq kept (kept.names row mem own names) isMade) (missing.2 row mem)

theorem free_of_deletes (kept : YardKept yard) {job : Job} (jobKept : JobKept yard job) (deletes : job.deletes = some own) :
  yard.Free own := by
  unfold Job.deletes at deletes
  split at deletes
  case h_1 taskId sandboxId rows =>
    cases deletes
    have chosen := jobKept (taskId, own) mem_cons_self
    exact free_of_idle kept chosen.1 chosen.2
  case h_2 sandboxId rest =>
    cases deletes
    exact free_of_unnamed (jobKept own mem_cons_self)
  case h_3 taskId sandboxId =>
    cases deletes
    exact free_of_unnamed jobKept.2.1
  case h_4 cutoff taskId sandboxId rows =>
    cases deletes
    exact free_of_missing kept jobKept.2.1 jobKept.2.2.1
  case h_5 taskId sandboxId tasks =>
    cases deletes
    exact free_of_idle kept jobKept.1 jobKept.2.1
  case h_6 => cases deletes

end Deleted

namespace YardState

variable (state : YardState)

def KeepsLive (action : YardAction) : Prop :=
  ∀ row ∈ state.yard.store.tasks, ∀ own token, row.sandboxId = some own -> row.ownerToken = some token ->
    state.yard.has own -> (state.next action).yard.has own = false -> ∃ index step place,
        action = .run index step /\ state.jobs[index]? = some (.run row.id token place)

end YardState

theorem own_of_deletes {state : YardState} (kept : StateKept state) {index taskId token : ℕ} {place : RunPlace} {step : RunStep}
  (found : state.jobs[index]? = some (.run taskId token place)) (orderly : state.OrderlyRun taskId token place step) {own : ℕ}
  (deletes : place.deletes step = some own) {next : Yard} {after : RunPlace}
  (stepped : state.yard.runStep taskId token place step = some (next, after)) (had : state.yard.has own)
  (hasNot : next.has own = false) {row : TaskRow} (mem : row ∈ state.yard.store.tasks) (names : row.sandboxId = some own)
  {owner : ℕ} (owned : row.ownerToken = some owner) : taskId = row.id /\ token = owner := by
  have mine := (kept.jobs _ (mem_of_getElem? found)).2
  have free (isFree : state.yard.Free own) : taskId = row.id /\ token = owner := by
    rcases isFree row mem names with unowned | gone
    · rw [unowned] at owned
      cases owned
    · exact absurd gone (not_gone_of_has had)
  have ofLease (isMade : (own, taskId) ∈ state.yard.made) (owns : state.yard.store.owns taskId token) :
      taskId = row.id /\ token = owner := by
    have same : row.id = taskId := session_eq kept.yard (kept.yard.names row mem own names) isMade
    have isOwner := owner_of_owns kept.yard.ids owns mem same
    exact ⟨same.symm, Option.some.inj (isOwner.symm.trans owned)⟩
  unfold RunPlace.deletes at deletes
  split at deletes
  case h_1 sandboxId =>
    cases deletes
    exact ofLease (mine.1 own rfl) (orderly rfl)
  case h_2 sandboxId answer =>
    cases deletes
    refine ofLease (mine.1 own rfl) (orderly ?_)
    intro isOk
    simp only [Yard.runStep, isOk, if_true] at stepped
    cases stepped
    rw [had] at hasNot
    cases hasNot
  case h_3 sandboxId answer =>
    cases deletes
    exact free (free_of_unnamed mine)
  case h_4 sandboxId answer =>
    cases deletes
    exact free (free_of_idle kept.yard mine.1 mine.2)
  case h_5 sandboxId answer =>
    cases deletes
    exact free (free_of_missing kept.yard mine.1 mine.2)
  case h_6 => cases deletes

theorem keepsLive {state : YardState} (kept : StateKept state) {action : YardAction} (orderly : state.Orderly action) :
  state.KeepsLive action := by
  intro row mem _ _ names owned had hasNot
  have unchanged (same : (state.next action).yard.boxes = state.yard.boxes) : False := by
    rw [has_same same, had] at hasNot
    cases hasNot
  cases action with
  | run index step =>
    simp only [YardState.next] at hasNot
    cases found : state.jobs[index]? with
    | none =>
      rw [found] at hasNot
      exact absurd (had.symm.trans hasNot) Bool.noConfusion
    | some job =>
      rw [found] at hasNot
      cases job with
      | run taskId token place =>
        dsimp only at hasNot
        cases stepped : state.yard.runStep taskId token place step with
        | none =>
          rw [stepped] at hasNot
          exact absurd (had.symm.trans hasNot) Bool.noConfusion
        | some result =>
          rw [stepped] at hasNot
          have deletes := deletes_of_runStep stepped had hasNot
          rcases own_of_deletes kept found (orderly taskId token place found) deletes stepped had hasNot mem names owned
            with ⟨isTask, isToken⟩
          rw [<- isTask, <- isToken]
          exact ⟨index, step, place, rfl, found⟩
      | _ => exact absurd (had.symm.trans hasNot) Bool.noConfusion
  | clean index answer =>
    simp only [YardState.next] at hasNot
    cases found : state.jobs[index]? with
    | none =>
      rw [found] at hasNot
      exact absurd (had.symm.trans hasNot) Bool.noConfusion
    | some job =>
      rw [found] at hasNot
      dsimp only at hasNot
      cases stepped : state.yard.cleanStep answer job with
      | none =>
        rw [stepped] at hasNot
        exact absurd (had.symm.trans hasNot) Bool.noConfusion
      | some result =>
        rw [stepped] at hasNot
        have deletes := deletes_of_cleanStep stepped had hasNot
        rcases free_of_deletes kept.yard (kept.jobs job (mem_of_getElem? found)) deletes row mem names
          with unowned | gone
        · rw [unowned] at owned
          cases owned
        · exact absurd gone (not_gone_of_has had)
  | create task token maxUser maxSite | resume taskId token maxUser maxSite modelId modelName | reclaim =>
    exfalso
    apply unchanged
    simp only [YardState.next]
    split <;> rfl
  | recover listed error status keepUntil | reap listed | purge listed cutoff | renew taskId token | wait clock =>
    exact (unchanged rfl).elim

theorem knownSandboxes_nodup {yard : Yard} (kept : YardKept yard) : yard.store.knownSandboxes.Nodup := by
  have apart : yard.store.tasks.Pairwise (fun first second => first.id ≠ second.id) := pairwise_map.mp kept.ids
  apply pairwise_filterMap.mpr
  apply apart.imp_of_mem
  intro first second isFirst isSecond differ _ names other otherNames same
  rw [same] at names
  exact differ (session_eq kept (kept.names first isFirst other names) (kept.names second isSecond other otherNames))

instance (store : TaskStore) (listed : List (ℕ × ℕ)) (now : ℚ) : Decidable (store.ExpiredSandboxes listed now) :=
  inferInstanceAs (Decidable (listed.length <= 50 /\ _))

def makingRun : List YardAction :=
  [.create ⟨1, 1, [], [], none, [], false⟩ 7 none 10, .run 0 .read, .run 0 .name, .run 0 .begin, .run 0 (.create (some 3)),
    .run 0 .keep]

def making : YardState := yardMachine.run .start makingRun

def reaperRun : List YardAction :=
  makingRun ++ [.run 0 (.stop false), .run 0 (.finish .finished [] [] (some 100)), .wait 200, .reap [(1, 3)],
    .resume 1 8 none 10 none none, .run 2 .read]

def reaperStalled : YardState := yardMachine.run .start reaperRun

theorem making_reachable : orderlyYard.Reachable making := by
  have plain {state : YardState} {index : ℕ} {step : RunStep} (trivially : ∀ place, state.OrderlyRun 1 7 place step)
      (place : RunPlace) (found : state.jobs[index]? = some (.run 1 7 place)) : state.Orderly (.run index step) := by
    intro taskId token _ isOther
    rw [found] at isOther
    cases isOther
    exact trivially place
  have admitted : orderlyYard.Admits .start makingRun := by
    refine ⟨⟨?_, trivial⟩, ⟨trivial, ?_⟩, ⟨trivial, ?_⟩, ⟨trivial, ?_⟩, ⟨?_, ?_⟩, ⟨trivial, ?_⟩, trivial⟩
    · exact ⟨not_mem_nil, not_mem_nil⟩
    · exact plain (by cases · <;> trivial) .launched rfl
    · exact plain (by cases · <;> trivial) (.naming none) rfl
    · exact plain (by cases · <;> trivial) (.starting none) rfl
    · exact not_mem_nil
    · exact plain (by cases · <;> trivial) (.working none) rfl
    · intro _ _ _ found
      cases found
      intro _ mem
      rw [mem_singleton.mp mem]
      rfl
  exact (Machine.Reachable.start rfl).run makingRun admitted

end BananaChat.Agents

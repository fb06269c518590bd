import BananaChat.Foundation.Numbered
import BananaChat.Foundation.Rows
import BananaChat.Runner.Manager

namespace BananaChat.Runner

open Foundation List Bool Function Numbered Books
open Finset (subset_empty mem_insert mem_insert_of_mem mem_insert_self mem_erase notMem_empty)

/-!
# Every container is accounted for

What a thread found out about a container stays true: a name is given once, a container is
made once, and one that does not run never runs again.
-/

section

variable (books : Books) (jobs : List Job)

def Settled (name : ℕ) : Prop := name ∈ books.named /\ ∀ job ∈ jobs, job.task.unmade ≠ some name

def Quiet (name : ℕ) : Prop := name ∈ books.named /\ ∀ job ∈ jobs, job.task.creates ≠ some name

/-- What `reconcile` may remove: it is not being created, and is no registered sandbox that runs. -/
def Removable (name : ℕ) : Prop :=
  Quiet books jobs name /\ (name ∈ books.sandboxes -> (name, true) ∉ books.containers)

def WorkFine : Work -> Prop
  | .retire name reconciled => Quiet books jobs name /\ (reconciled -> Removable books jobs name)
  | .doom name reconciled => Settled books jobs name /\ (reconciled -> Removable books jobs name)
  | .rm name reconciled => Settled books jobs name /\ (reconciled -> Removable books jobs name) /\
      (name ∈ books.present -> name ∈ books.doomed)
  | .forget name => Settled books jobs name /\ name ∉ books.present
  | .list known => ∀ name ∈ known, Quiet books jobs name
  | .compare known listed => (listed.map Prod.fst).Nodup /\ (∀ item ∈ listed, Settled books jobs item.1) /\
      ∀ name ∈ known, Quiet books jobs name /\ ((name, true) ∈ books.containers -> (name, true) ∈ listed)
  | .survey | .known | .boxes | .leftovers => True

def TaskFine (works : List Work) : Task -> Prop
  | .asking name => name ∈ books.named
  | .admitted name | .slotted name | .started name | .made name | .verified name | .registering name =>
    name ∈ books.named /\ name ∈ books.pending
  | .failing name _ => name ∈ books.pending /\ Settled books jobs name /\
      (works = [.doom name false] \/ (name ∈ books.present -> name ∈ books.doomed))
  | .leaving name => name ∈ books.pending /\ Settled books jobs name /\ (name ∈ books.present -> name ∈ books.doomed)
  | .waiting => books.stop = true
  | .closing true => books.stop = true /\ books.pending = ∅ /\
      (Work.boxes ∈ works \/ ∀ name ∈ books.sandboxes, Work.retire name false ∈ works)
  | .stopped true => books.stop = true /\ books.pending = ∅ /\ books.sandboxes = []
  | .asks name | .shares name | .works name => Quiet books jobs name
  | .passing | .stopping | .closing false | .stopped false | .returns _ | .ended | .broken => True

def JobFine (job : Job) : Prop :=
  TaskFine books jobs job.works job.task /\ ∀ work ∈ job.works, WorkFine books jobs work

end

structure BooksKept (config : Config) (books : Books) (jobs : List Job) : Prop where
  capacity : books.sandboxes.length + books.pending.card <= config.maxSandboxes
  registered : ∀ name ∈ books.sandboxes, Quiet books jobs name
  gone : ∀ name ∈ books.gone, Quiet books jobs name /\ name ∉ books.sandboxes
  present : ∀ name ∈ books.present, Settled books jobs name
  keys : books.present.Nodup
  doomed : ∀ name ∈ books.doomed, Settled books jobs name
  pending : ∀ name ∈ books.pending, ∃ job ∈ jobs, job.task.pends = some name
  cover : ∀ name ∈ books.own, name ∈ books.present ->
    name ∈ books.sandboxes \/ name ∈ books.pending \/ name ∈ books.doomed
  logged : books.unregistered.Nodup /\ ∀ name ∈ books.unregistered, name ∈ books.gone
  creations : Numbered.Apart (·.task.creates) jobs
  fine : ∀ job ∈ jobs, JobFine books jobs job

/-- How the books go on, with the creation that moves. -/
structure Goes (books next : Books) (jobs after : List Job) (mover : Option ℕ) : Prop where
  named : books.named ⊆ next.named
  settled : ∀ name, Settled books jobs name -> Settled next after name
  quiet : ∀ name, Quiet books jobs name -> Quiet next after name
  running : ∀ name, Settled books jobs name -> (name, true) ∈ next.containers -> (name, true) ∈ books.containers
  present : ∀ name, Settled books jobs name -> name ∈ next.present -> name ∈ books.present
  sandboxes : ∀ name, Quiet books jobs name -> name ∈ next.sandboxes -> name ∈ books.sandboxes
  pending : ∀ name ∈ books.pending, name ∈ next.pending \/ mover = some name
  doomed : ∀ name ∈ books.doomed, name ∈ next.doomed \/ name ∉ next.present
  stops : books.stop -> next.stop /\ next.pending ⊆ books.pending /\ next.sandboxes ⊆ books.sandboxes

variable {name : ℕ} {books next : Books} {jobs : List Job} {config : Config} {works : List Work} {choice : Choice}
  {moved : Job} {state : Manager}

theorem creates_of_unmade {task : Task} (unmade : task.unmade = some name) : task.creates = some name := by
  cases task with
  | asking other | admitted other | slotted other => exact unmade
  | _ => cases unmade

theorem creates_of_pends {task : Task} (pends : task.pends = some name) : task.creates = some name := by
  cases task with
  | asking other => cases pends
  | _ => exact pends

theorem Quiet.settled (quiet : Quiet books jobs name) : Settled books jobs name :=
  ⟨quiet.1, fun job mem unmade => quiet.2 job mem (creates_of_unmade unmade)⟩

section Beside

variable {books next : Books} {jobs after : List Job} {mover : Option ℕ} (goes : Goes books next jobs after mover)

include goes

theorem Goes.removable (removable : Removable books jobs name) : Removable next after name := by
  refine ⟨goes.quiet name removable.1, ?_⟩
  intro isRegistered runs
  exact removable.2 (goes.sandboxes name removable.1 isRegistered) (goes.running name removable.1.settled runs)

theorem Goes.owed (settled : Settled books jobs name) (owed : name ∈ books.present -> name ∈ books.doomed) :
  name ∈ next.present -> name ∈ next.doomed := by
  intro isThere
  rcases goes.doomed name (owed (goes.present name settled isThere)) with still | absent
  · exact still
  · exact absurd isThere absent

theorem Goes.work {work : Work} (fine : WorkFine books jobs work) : WorkFine next after work := by
  cases work with
  | retire name reconciled => exact ⟨goes.quiet name fine.1, fun asked => goes.removable (fine.2 asked)⟩
  | doom name reconciled => exact ⟨goes.settled name fine.1, fun asked => goes.removable (fine.2 asked)⟩
  | rm name reconciled =>
    exact ⟨goes.settled name fine.1, fun asked => goes.removable (fine.2.1 asked), goes.owed fine.1 fine.2.2⟩
  | forget name => exact ⟨goes.settled name fine.1, fun isThere => fine.2 (goes.present name fine.1 isThere)⟩
  | list known => exact fun name mem => goes.quiet name (fine name mem)
  | compare known listed =>
    refine ⟨fine.1, fun item mem => goes.settled item.1 (fine.2.1 item mem), ?_⟩
    intro name mem
    rcases fine.2.2 name mem with ⟨quiet, runs⟩
    exact ⟨goes.quiet name quiet, fun still => runs (goes.running name quiet.settled still)⟩
  | survey | known | boxes | leftovers => trivial

theorem Goes.task {task : Task} (fine : TaskFine books jobs works task)
  (apart : ∀ name, task.creates = some name -> mover ≠ some name) : TaskFine next after works task := by
  have created {name : ℕ} (mine : task.creates = some name) (pending : name ∈ books.pending) : name ∈ next.pending :=
    (goes.pending name pending).resolve_right (apart name mine)
  cases task with
  | asking name => exact goes.named fine
  | admitted name | slotted name | started name | made name | verified name | registering name =>
    exact ⟨goes.named fine.1, created rfl fine.2⟩
  | failing name slot =>
    rcases fine with ⟨pending, settled, owed⟩
    exact ⟨created rfl pending, goes.settled name settled, owed.imp_right (goes.owed settled)⟩
  | leaving name =>
    rcases fine with ⟨pending, settled, owed⟩
    exact ⟨created rfl pending, goes.settled name settled, goes.owed settled owed⟩
  | waiting => exact (goes.stops fine).1
  | closing saw =>
    cases saw with
    | false => trivial
    | true =>
      rcases fine with ⟨stop, pending, covered⟩
      rcases goes.stops stop with ⟨still, fewer, boxes⟩
      rw [pending] at fewer
      exact ⟨still, subset_empty.mp fewer, covered.imp_right fun all name mem => all name (boxes mem)⟩
  | stopped saw =>
    cases saw with
    | false => trivial
    | true =>
      rcases fine with ⟨stop, pending, nothing⟩
      rcases goes.stops stop with ⟨still, fewer, boxes⟩
      rw [pending] at fewer
      rw [nothing] at boxes
      exact ⟨still, subset_empty.mp fewer, subset_nil.mp boxes⟩
  | asks name | shares name | works name => exact goes.quiet name fine
  | passing | stopping | returns name | ended | broken => trivial

theorem Goes.job {job : Job} (fine : JobFine books jobs job) (apart : ∀ name, job.task.creates = some name -> mover ≠ some name) :
    JobFine next after job := ⟨goes.task fine.1 apart, fun work mem => goes.work (fine.2 work mem)⟩

end Beside

section Moves

variable {jobs : List Job} {index : ℕ} {job moved : Job} (found : jobs[index]? = some job)

include found

theorem unheld_set (key : Task -> Option ℕ) (keeps : key moved.task = key job.task \/ key moved.task = none)
  (unheld : ∀ other ∈ jobs, key other.task ≠ some name) (other : Job) (mem : other ∈ jobs.set index moved) :
  key other.task ≠ some name := by
  intro same
  rcases mem_set found mem with isMoved | ⟨_, _, isPlace⟩
  · rw [isMoved] at same
    rcases keeps with mine | nothing
    · exact unheld job (mem_of_getElem? found) (mine.symm.trans same)
    · rw [nothing] at same
      cases same
  · exact unheld other (mem_of_getElem? isPlace) same

theorem quiet_set (named : books.named ⊆ next.named)
  (creates : moved.task.creates = job.task.creates \/ moved.task.creates = none) (quiet : Quiet books jobs name) :
  Quiet next (jobs.set index moved) name := ⟨named quiet.1, unheld_set found Task.creates creates quiet.2⟩

theorem settled_set (named : books.named ⊆ next.named)
  (unmade : moved.task.unmade = job.task.unmade \/ moved.task.unmade = none) (settled : Settled books jobs name) :
  Settled next (jobs.set index moved) name := ⟨named settled.1, unheld_set found Task.unmade unmade settled.2⟩

theorem unheld_own (key : Task -> Option ℕ) (creations : Numbered.Apart (fun job : Job => job.task.creates) jobs)
  (creates : ∀ task, key task = some name -> task.creates = some name) (mine : job.task.creates = some name)
  (nothing : key moved.task = none) (other : Job) (mem : other ∈ jobs.set index moved) : key other.task ≠ some name := by
  intro same
  rcases mem_set found mem with isMoved | ⟨place, apart, isPlace⟩
  · rw [isMoved, nothing] at same
    cases same
  · exact apart (creations place index other job name isPlace found (creates _ same) mine)

section

variable (creations : Numbered.Apart (fun job : Job => job.task.creates) jobs) (mine : job.task.creates = some name) (named : name ∈ next.named)
include creations mine named

theorem settled_own (unmade : moved.task.unmade = none) : Settled next (jobs.set index moved) name :=
  ⟨named, unheld_own found Task.unmade creations (fun _ => creates_of_unmade) mine unmade⟩

theorem quiet_own (creates : moved.task.creates = none) : Quiet next (jobs.set index moved) name :=
  ⟨named, unheld_own found Task.creates creations (fun _ same => same) mine creates⟩

end

theorem goes_set {mover : Option ℕ} (named : next.named = books.named) (containers : next.containers = books.containers)
  (creates : moved.task.creates = job.task.creates \/ moved.task.creates = none)
  (unmade : moved.task.unmade = job.task.unmade \/ moved.task.unmade = none)
  (sandboxes : ∀ name, Quiet books jobs name -> name ∈ next.sandboxes -> name ∈ books.sandboxes)
  (pending : ∀ name ∈ books.pending, name ∈ next.pending \/ mover = some name) (doomed : next.doomed = books.doomed)
  (stops : books.stop -> next.stop /\ next.pending ⊆ books.pending /\ next.sandboxes ⊆ books.sandboxes) :
  Goes books next jobs (jobs.set index moved) mover := by
  have names : books.named ⊆ next.named := by
    rw [named]
    exact fun _ mem => mem
  refine ⟨names, fun _ settled => settled_set found names unmade settled, fun _ quiet => quiet_set found names creates quiet, ?_, ?_,
    sandboxes, pending, ?_, stops⟩
  · rw [containers]
    exact fun _ _ runs => runs
  · unfold present
    rw [containers]
    exact fun _ _ isThere => isThere
  · rw [doomed]
    exact fun _ mem => .inl mem

theorem kept_move (kept : BooksKept config books jobs)
  (goes : Goes books next jobs (jobs.set index moved) job.task.creates)
  (creates : moved.task.creates = job.task.creates \/ moved.task.creates = none)
  (capacity : next.sandboxes.length + next.pending.card <= config.maxSandboxes)
  (registered : ∀ name ∈ next.sandboxes, name ∈ books.sandboxes \/ Quiet next (jobs.set index moved) name)
  (gone : ∀ name ∈ next.gone, (name ∈ books.gone \/ Quiet books jobs name) /\ name ∉ next.sandboxes)
  (present : ∀ name ∈ next.present, name ∈ books.present \/ Settled next (jobs.set index moved) name)
  (keys : next.present.Nodup) (doomed : ∀ name ∈ next.doomed, name ∈ books.doomed \/ Settled books jobs name)
  (pending : ∀ name ∈ next.pending, moved.task.pends = some name \/ (name ∈ books.pending /\ job.task.pends ≠ some name))
  (cover : ∀ name ∈ next.own, name ∈ next.present ->
    name ∈ next.sandboxes \/ name ∈ next.pending \/ name ∈ next.doomed)
  (logged : next.unregistered.Nodup /\ ∀ name ∈ next.unregistered, name ∈ next.gone)
  (fine : JobFine next (jobs.set index moved) moved) : BooksKept config next (jobs.set index moved) := by
  have isThere : index < jobs.length := (List.getElem?_eq_some_iff.mp found).1
  refine ⟨capacity, ?_, ?_, ?_, keys, ?_, ?_, cover, logged, ?_, ?_⟩
  · intro name mem
    rcases registered name mem with old | new
    · exact goes.quiet name (kept.registered name old)
    · exact new
  · intro name mem
    rcases gone name mem with ⟨old | quiet, apart⟩
    · exact ⟨goes.quiet name (kept.gone name old).1, apart⟩
    · exact ⟨goes.quiet name quiet, apart⟩
  · intro name mem
    rcases present name mem with old | new
    · exact goes.settled name (kept.present name old)
    · exact new
  · intro name mem
    rcases doomed name mem with old | settled
    · exact goes.settled name (kept.doomed name old)
    · exact goes.settled name settled
  · intro name mem
    rcases pending name mem with mine | ⟨old, other⟩
    · exact ⟨moved, mem_set isThere moved, mine⟩
    · rcases kept.pending name old with ⟨creator, isCreator, creating⟩
      rcases mem_iff_getElem?.mp isCreator with ⟨place, isPlace⟩
      by_cases same : place = index
      · rw [same, found] at isPlace
        cases isPlace
        exact absurd creating other
      · have stays : (jobs.set index moved)[place]? = some creator := by
          rw [getElem?_set_ne (same ·.symm)]
          exact isPlace
        exact ⟨creator, mem_of_getElem? stays, creating⟩
  · apply kept.creations.set found
    intro name creating
    rcases creates with same | nothing
    · exact .inl (same.symm.trans creating)
    · rw [nothing] at creating
      cases creating
  · intro other mem
    rcases mem_set found mem with isMoved | ⟨place, apart, isPlace⟩
    · rw [isMoved]
      exact fine
    · refine goes.job (kept.fine other (mem_of_getElem? isPlace)) ?_
      intro name creating mine
      exact apart (kept.creations place index other job name isPlace found creating mine)

theorem goes_same (books : Books) (creates : moved.task.creates = job.task.creates \/ moved.task.creates = none)
  (unmade : moved.task.unmade = job.task.unmade \/ moved.task.unmade = none) (mover : Option ℕ) :
  Goes books books jobs (jobs.set index moved) mover :=
  goes_set found rfl rfl creates unmade (fun _ _ mem => mem) (fun _ mem => .inl mem) rfl
    fun stop => ⟨stop, fun _ mem => mem, fun _ mem => mem⟩

theorem kept_same (kept : BooksKept config books jobs)
  (creates : moved.task.creates = job.task.creates \/ moved.task.creates = none)
  (unmade : moved.task.unmade = job.task.unmade \/ moved.task.unmade = none) (pends : moved.task.pends = job.task.pends)
  (fine : JobFine books (jobs.set index moved) moved) : BooksKept config books (jobs.set index moved) := by
  refine kept_move found kept (goes_same found books creates unmade _) creates kept.capacity (fun _ mem => .inl mem)
    (fun name mem => ⟨.inl mem, (kept.gone name mem).2⟩) (fun _ mem => .inl mem) kept.keys
    (fun _ mem => .inl mem) ?_ kept.cover kept.logged fine
  intro name mem
  by_cases mine : job.task.pends = some name
  · exact .inl (pends.trans mine)
  · exact .inr ⟨mem, mine⟩

end Moves

theorem pending_of_creates {task : Task} (fine : TaskFine books jobs works task) (creating : task.creates = some name) :
  task.unmade = some name \/ name ∈ books.pending := by
  cases task with
  | asking other | admitted other | slotted other => exact .inl creating
  | started other | made other | verified other | registering other =>
    cases creating
    exact .inr fine.2
  | failing other slot | leaving other =>
    cases creating
    exact .inr fine.1
  | _ => cases creating

theorem named_of_creates {task : Task} (fine : TaskFine books jobs works task) (creating : task.creates = some name) :
  name ∈ books.named := by
  cases task with
  | asking other =>
    cases creating
    exact fine
  | admitted other | slotted other | started other | made other | verified other | registering other =>
    cases creating
    exact fine.1
  | failing other slot | leaving other =>
    cases creating
    exact fine.2.1.1
  | _ => cases creating

section Works

variable {config : Config} {books next : Books} {jobs : List Job} (kept : BooksKept config books jobs)
  {index : ℕ} {task : Task} {work : Work} {rest more : List Work} (found : jobs[index]? = some ⟨task, work :: rest⟩)

include kept found

theorem kept_work (same : next.pending = books.pending /\ next.named = books.named /\ next.own = books.own /\ next.stop = books.stop)
  (sandboxes : next.sandboxes.Sublist books.sandboxes) (containers : next.containers.Sublist books.containers)
  (doomedIn : ∀ name ∈ next.doomed, name ∈ books.doomed \/ Settled books jobs name)
  (doomedOut : ∀ name ∈ books.doomed, name ∈ next.doomed \/ name ∉ next.present)
  (gone : ∀ name ∈ next.gone, (name ∈ books.gone \/ Quiet books jobs name) /\ name ∉ next.sandboxes)
  (cover : ∀ name ∈ books.sandboxes, name ∈ next.sandboxes \/ name ∈ next.doomed)
  (logged : next.unregistered.Nodup /\ ∀ name ∈ next.unregistered, name ∈ next.gone)
  (moreFine : ∀ other ∈ more, WorkFine next (jobs.set index ⟨task, more ++ rest⟩) other)
  (doomed : ∀ name, work = .doom name false -> name ∈ next.doomed)
  (retired : ∀ name, work = .retire name false -> name ∉ next.sandboxes)
  (boxes : work = .boxes -> ∀ name ∈ next.sandboxes, Work.retire name false ∈ more) :
  BooksKept config next (jobs.set index ⟨task, more ++ rest⟩) := by
  have present : next.present.Sublist books.present := containers.map _
  have named : books.named ⊆ next.named := by
    rw [same.2.1]
    exact fun _ mem => mem
  have frame (mover : Option ℕ) : Goes books next jobs (jobs.set index ⟨task, more ++ rest⟩) mover := by
    refine ⟨named, fun _ settled => settled_set found named (.inl rfl) settled, fun _ quiet => quiet_set found named (.inl rfl) quiet,
      fun _ _ runs => containers.subset runs, fun _ _ isThere => present.subset isThere, fun _ _ mem => sandboxes.subset mem, ?_,
      doomedOut, ?_⟩
    · rw [same.1]
      exact fun _ mem => .inl mem
    · rw [same.1, same.2.2.2]
      exact fun stop => ⟨stop, fun _ mem => mem, sandboxes.subset⟩
  have mine := kept.fine _ (mem_of_getElem? found)
  have goes := frame none
  refine kept_move found kept (frame _) (.inl rfl) ?_ (fun name mem => .inl (sandboxes.subset mem)) gone
    (fun name mem => .inl (present.subset mem)) (kept.keys.sublist present) doomedIn ?_ ?_ logged ⟨?_, ?_⟩
  · rw [same.1]
    exact (Nat.add_le_add_right sandboxes.length_le _).trans kept.capacity
  · rw [same.1]
    intro name mem
    by_cases own : task.pends = some name
    · exact .inl own
    · exact .inr ⟨mem, own⟩
  · rw [same.1, same.2.2.1]
    intro name isOwn isThere
    rcases kept.cover name isOwn (present.subset isThere) with isRegistered | isPending | isDoomed
    · exact (cover name isRegistered).imp_right .inr
    · exact .inr (.inl isPending)
    · exact .inr (.inr ((doomedOut name isDoomed).resolve_right (· isThere)))
  · -- Only a creation that fails and the end of the runner speak of their work.
    have fine := goes.task mine.1 nofun
    cases task with
    | failing name slot =>
      rcases mine.1 with ⟨isPending, settled, works | owed⟩
      · rw [<- same.1] at isPending
        refine ⟨isPending, goes.settled name settled, .inr ?_⟩
        exact fun _ => doomed name (cons.inj works).1
      · rw [<- same.1] at isPending
        exact ⟨isPending, goes.settled name settled, .inr (goes.owed settled owed)⟩
    | closing saw =>
      cases saw with
      | false => trivial
      | true =>
        rcases mine.1 with ⟨stop, pending, covered⟩
        rw [<- same.1] at pending
        rw [<- same.2.2.2] at stop
        refine ⟨stop, pending, ?_⟩
        rcases covered with mem | all
        · rcases mem_cons.mp mem with isWork | later
          · exact .inr (fun name isRegistered => mem_append_left _ (boxes isWork.symm name isRegistered))
          · exact .inl (mem_append_right _ later)
        · refine .inr ?_
          intro name isRegistered
          rcases mem_cons.mp (all name (sandboxes.subset isRegistered)) with isWork | later
          · exact absurd isRegistered (retired name isWork.symm)
          · exact mem_append_right _ later
    | stopped saw => cases saw <;> exact fine
    | _ => exact fine
  · intro other mem
    rcases mem_append.mp mem with new | old
    · exact moreFine other new
    · exact goes.work (mine.2 other (.tail _ old))

theorem kept_found (moreFine : ∀ other ∈ more, WorkFine books (jobs.set index ⟨task, more ++ rest⟩) other)
  (doomed : ∀ name, work = .doom name false -> name ∈ books.doomed)
  (retired : ∀ name, work = .retire name false -> name ∉ books.sandboxes)
  (boxes : work = .boxes -> ∀ name ∈ books.sandboxes, Work.retire name false ∈ more) :
  BooksKept config books (jobs.set index ⟨task, more ++ rest⟩) :=
  kept_work kept found ⟨rfl, rfl, rfl, rfl⟩ (List.Sublist.refl _) (List.Sublist.refl _) (fun _ mem => .inl mem)
    (fun _ mem => .inl mem) (fun name mem => ⟨.inl mem, (kept.gone name mem).2⟩) (fun _ mem => .inl mem)
    kept.logged moreFine doomed retired boxes

omit kept in
theorem settled_on (named : next.named = books.named) (settled : Settled books jobs name) :
  Settled next (jobs.set index ⟨task, works⟩) name := by
  refine settled_set found ?_ ?_ settled
  · rw [named]
    exact fun _ mem => mem
  · exact .inl rfl

omit kept in
theorem quiet_on (named : next.named = books.named) (quiet : Quiet books jobs name) :
  Quiet next (jobs.set index ⟨task, works⟩) name := by
  refine quiet_set found ?_ ?_ quiet
  · rw [named]
    exact fun _ mem => mem
  · exact .inl rfl

omit kept in
theorem removable_on (removable : Removable books jobs name) (named : next.named = books.named)
  (sandboxes : next.sandboxes ⊆ books.sandboxes) (containers : next.containers ⊆ books.containers) :
  Removable next (jobs.set index ⟨task, works⟩) name :=
  ⟨quiet_on found named removable.1, fun mem runs => removable.2 (sandboxes mem) (containers runs)⟩

variable {reconciled : Bool}

theorem kept_retire (isWork : work = .retire name reconciled) (retired : books.retire name = some next) :
  BooksKept config next (jobs.set index ⟨task, [.doom name reconciled] ++ rest⟩) := by
  have mine := (kept.fine _ (mem_of_getElem? found)).2 work mem_cons_self
  rw [isWork] at mine found
  unfold retire at retired
  by_cases nothing : name ∈ books.gone /\ name ∉ books.doomed
  · rw [if_pos nothing] at retired
    cases retired
  · rw [if_neg nothing] at retired
    cases retired
    refine kept_work kept found ⟨rfl, rfl, rfl, rfl⟩ filter_sublist (List.Sublist.refl _) ?_ ?_ ?_ ?_ ?_ ?_
      nofun ?_ nofun
    · intro other mem
      rcases mem_insert.mp mem with same | old
      · rw [same]
        exact .inr mine.1.settled
      · exact .inl old
    · exact fun other mem => .inl (mem_insert_of_mem mem)
    · intro other mem
      rcases mem_insert.mp mem with same | old
      · rw [same]
        exact ⟨.inr mine.1, fun stays => of_decide_eq_true (mem_filter.mp stays).2 rfl⟩
      · exact ⟨.inl old, fun stays => (kept.gone other old).2 (mem_filter.mp stays).1⟩
    · intro other mem
      by_cases same : other = name
      · rw [same]
        exact .inr (mem_insert_self _ _)
      · exact .inl (mem_filter.mpr ⟨mem, decide_eq_true same⟩)
    · by_cases isRegistered : name ∈ books.sandboxes
      · rw [if_pos isRegistered]
        constructor
        · refine List.Nodup.append kept.logged.1 (nodup_singleton _) (disjoint_singleton.mpr ?_)
          intro before
          exact (kept.gone name (kept.logged.2 name before)).2 isRegistered
        · intro other mem
          rcases mem_snoc.mp mem with old | new
          · exact mem_insert_of_mem (kept.logged.2 other old)
          · rw [new]
            exact mem_insert_self _ _
      · rw [if_neg isRegistered]
        exact ⟨kept.logged.1, fun other mem => mem_insert_of_mem (kept.logged.2 other mem)⟩
    · intro other mem
      rw [mem_singleton.mp mem]
      refine ⟨settled_on found rfl mine.1.settled, fun asked => removable_on found (mine.2 asked) rfl ?_ fun _ mem => mem⟩
      exact filter_sublist.subset
    · intro _ isRetired stays
      cases isRetired
      exact of_decide_eq_true (mem_filter.mp stays).2 rfl

theorem kept_doom (isWork : work = .doom name reconciled) :
  BooksKept config { books with doomed := insert name books.doomed } (jobs.set index ⟨task, [.rm name reconciled] ++ rest⟩) := by
  have mine := (kept.fine _ (mem_of_getElem? found)).2 work mem_cons_self
  rw [isWork] at mine found
  refine kept_work kept found ⟨rfl, rfl, rfl, rfl⟩ (List.Sublist.refl _) (List.Sublist.refl _) ?_
    (fun _ mem => .inl (mem_insert_of_mem mem)) (fun other mem => ⟨.inl mem, (kept.gone other mem).2⟩)
    (fun _ mem => .inl mem) kept.logged ?_ ?_ nofun nofun
  · intro other mem
    rcases mem_insert.mp mem with same | old
    · rw [same]
      exact .inr mine.1
    · exact .inl old
  · intro other mem
    rw [mem_singleton.mp mem]
    exact ⟨settled_on found rfl mine.1,
      fun asked => removable_on found (mine.2 asked) rfl (fun _ mem => mem) (fun _ mem => mem),
      fun _ => mem_insert_self _ _⟩
  · intro _ isDoomed
    cases isDoomed
    exact mem_insert_self _ _

theorem kept_rm (isWork : work = .rm name reconciled) (isMore : more = [.forget name] \/ more = []) :
  BooksKept config (books.without name) (jobs.set index ⟨task, more ++ rest⟩) := by
  have mine := (kept.fine _ (mem_of_getElem? found)).2 work mem_cons_self
  rw [isWork] at mine found
  refine kept_work kept found ⟨rfl, rfl, rfl, rfl⟩ (List.Sublist.refl _) filter_sublist (fun _ mem => .inl mem)
    (fun _ mem => .inl mem) (fun other mem => ⟨.inl mem, (kept.gone other mem).2⟩) (fun _ mem => .inl mem)
    kept.logged ?_ nofun nofun
    nofun
  intro _ mem
  rcases isMore with forget | nothing
  · rw [forget] at mem
    rw [mem_singleton.mp mem]
    refine ⟨settled_on found rfl mine.1, ?_⟩
    intro isThere
    rcases mem_map.mp isThere with ⟨_, isItem, same⟩
    exact of_decide_eq_true (mem_filter.mp isItem).2 same
  · rw [nothing] at mem
    cases mem

theorem kept_forget (isWork : work = .forget name) :
  BooksKept config { books with doomed := books.doomed.erase name } (jobs.set index ⟨task, [] ++ rest⟩) := by
  have mine := (kept.fine _ (mem_of_getElem? found)).2 work mem_cons_self
  rw [isWork] at mine found
  refine kept_work kept found ⟨rfl, rfl, rfl, rfl⟩ (List.Sublist.refl _) (List.Sublist.refl _)
    (fun _ mem => .inl (Finset.mem_of_mem_erase mem)) ?_ (fun other mem => ⟨.inl mem, (kept.gone other mem).2⟩)
    (fun _ mem => .inl mem) kept.logged nofun nofun
    nofun nofun
  intro other mem
  by_cases same : other = name
  · rw [same]
    exact .inr mine.2
  · exact .inl (mem_erase.mpr ⟨same, mem⟩)

omit found in
theorem differences_fine {known : List ℕ} {listed : List (ℕ × Bool)} (fine : WorkFine books jobs (.compare known listed)) :
  ∀ other ∈ books.differences known listed, WorkFine books jobs other := by
  -- A known sandbox that is not listed as running does not run.
  have idle {name : ℕ} (isKnown : name ∈ known) (notRunning : (name, true) ∉ listed) : Removable books jobs name :=
    ⟨(fine.2.2 name isKnown).1, fun _ runs => notRunning ((fine.2.2 name isKnown).2 runs)⟩
  intro _ mem
  rcases mem_append.mp mem with ofListed | ofMissing
  · rcases mem_flatMap.mp ofListed with ⟨item, isItem, isOther⟩
    unfold difference at isOther
    by_cases isPending : item.1 ∈ books.pending
    · rw [if_pos isPending] at isOther
      cases isOther
    · rw [if_neg isPending] at isOther
      by_cases isKnown : item.1 ∈ known
      · rw [if_pos isKnown] at isOther
        cases runs : item.2 with
        | true =>
          rw [runs] at isOther
          cases isOther
        | false =>
          rw [runs] at isOther
          rw [mem_singleton.mp isOther]
          have notRunning : (item.1, true) ∉ listed := by
            intro also
            have same := Rows.eq_of_key fine.1 isItem also rfl
            rw [same] at runs
            cases runs
          exact ⟨(fine.2.2 item.1 isKnown).1, fun _ => idle isKnown notRunning⟩
      · rw [if_neg isKnown] at isOther
        by_cases isRegistered : item.1 ∈ books.sandboxes
        · rw [if_pos isRegistered] at isOther
          cases isOther
        · rw [if_neg isRegistered] at isOther
          rw [mem_singleton.mp isOther]
          have settled := fine.2.1 item isItem
          have quiet : Quiet books jobs item.1 := by
            refine ⟨settled.1, ?_⟩
            intro job isJob creating
            rcases pending_of_creates (kept.fine job isJob).1 creating with unmade | pending
            · exact settled.2 job isJob unmade
            · exact isPending pending
          exact ⟨settled, fun _ => ⟨quiet, fun registered => absurd registered isRegistered⟩⟩
  · rcases mem_map.mp ofMissing with ⟨name, isName, same⟩
    rcases mem_filter.mp isName with ⟨isKnown, missing⟩
    rw [<- same]
    refine ⟨(fine.2.2 name isKnown).1, fun _ => idle isKnown ?_⟩
    intro isListed
    exact (of_decide_eq_true missing).1 (mem_map.mpr ⟨_, isListed, rfl⟩)

theorem kept_perform (performed : books.perform choice work = some (next, more)) :
  BooksKept config next (jobs.set index ⟨task, more ++ rest⟩) := by
  have mine := (kept.fine _ (mem_of_getElem? found)).2 work mem_cons_self
  have goesOn (works : List Work) : Goes books books jobs (jobs.set index ⟨task, works⟩) none := by
    refine goes_same found books ?_ ?_ none
    · exact .inl rfl
    · exact .inl rfl
  cases work with
  | retire name reconciled =>
    simp only [perform] at performed
    cases retired : books.retire name with
    | none =>
      rw [retired] at performed
      cases performed
      refine kept_found kept found nofun nofun ?_
        nofun
      intro other isOther
      cases isOther
      unfold retire at retired
      by_cases nothing : name ∈ books.gone /\ name ∉ books.doomed
      · exact (kept.gone name nothing.1).2
      · rw [if_neg nothing] at retired
        cases retired
    | some after =>
      rw [retired] at performed
      cases performed
      exact kept_retire kept found rfl retired
  | doom name reconciled =>
    cases performed
    exact kept_doom kept found rfl
  | rm name reconciled =>
    cases choice with
    | go =>
      cases performed
      exact kept_rm kept found rfl (.inl rfl)
    | late =>
      cases performed
      exact kept_rm kept found rfl (.inr rfl)
    | fail =>
      cases performed
      exact kept_found kept found nofun nofun
        nofun nofun
    | raise | found boxes doomed => cases performed
  | forget name =>
    cases performed
    exact kept_forget kept found rfl
  | survey =>
    cases choice with
    | found boxes doomed =>
      simp only [perform] at performed
      by_cases isFound : boxes ⊆ books.sandboxes /\ doomed.toFinset = books.doomed
      · rw [if_pos isFound] at performed
        cases performed
        refine kept_found kept found ?_ nofun nofun
          nofun
        intro other mem
        rcases mem_snoc.mp mem with either | isKnown
        · rcases mem_append.mp either with isBox | isDoomed
          · rcases mem_map.mp isBox with ⟨name, isName, same⟩
            rw [<- same]
            exact ⟨(goesOn _).quiet name (kept.registered name (isFound.1 isName)), nofun⟩
          · rcases mem_map.mp isDoomed with ⟨name, isName, same⟩
            rw [<- same]
            refine ⟨(goesOn _).settled name (kept.doomed name ?_), nofun⟩
            rw [<- isFound.2]
            exact mem_toFinset.mpr isName
        · rw [isKnown]
          trivial
      · rw [if_neg isFound] at performed
        cases performed
    | _ => cases performed
  | known =>
    cases performed
    refine kept_found kept found ?_ nofun nofun
      nofun
    intro other mem
    rw [mem_singleton.mp mem]
    exact fun name isRegistered => (goesOn _).quiet name (kept.registered name isRegistered)
  | list known =>
    have nothing : BooksKept config books (jobs.set index ⟨task, [] ++ rest⟩) :=
      kept_found kept found nofun nofun
        nofun nofun
    cases choice with
    | go =>
      cases performed
      refine kept_found kept found ?_ nofun nofun
        nofun
      intro other mem
      rw [mem_singleton.mp mem]
      refine ⟨kept.keys, ?_, fun name isKnown => ⟨(goesOn _).quiet name (mine name isKnown), fun runs => runs⟩⟩
      exact fun item isItem => (goesOn _).settled item.1 (kept.present item.1 (mem_map.mpr ⟨item, isItem, rfl⟩))
    | fail | late =>
      cases performed
      exact nothing
    | raise | found boxes doomed => cases performed
  | compare known listed =>
    cases performed
    refine kept_found kept found ?_ nofun nofun
      nofun
    intro other mem
    exact (goesOn _).work (differences_fine kept mine other mem)
  | boxes =>
    cases performed
    refine kept_found kept found ?_ nofun nofun ?_
    · intro other mem
      rcases mem_map.mp mem with ⟨name, isName, same⟩
      rw [<- same]
      exact ⟨(goesOn _).quiet name (kept.registered name isName), nofun⟩
    · exact fun _ name isName => mem_map.mpr ⟨name, isName, rfl⟩
  | leftovers =>
    cases choice with
    | found boxes doomed =>
      simp only [perform] at performed
      by_cases isFound : doomed.toFinset = books.doomed
      · rw [if_pos isFound] at performed
        cases performed
        refine kept_found kept found ?_ nofun nofun
          nofun
        intro _ mem
        rcases mem_map.mp mem with ⟨name, isName, same⟩
        rw [<- same]
        refine ⟨(goesOn _).settled name (kept.doomed name ?_), nofun⟩
        rw [<- isFound]
        exact mem_toFinset.mpr isName
      · rw [if_neg isFound] at performed
        cases performed
    | _ => cases performed

theorem kept_raised (isCommand : work.isCommand) :
  BooksKept config books (jobs.set index (Job.raised ⟨task, work :: rest⟩)) := by
  have mine := (kept.fine _ (mem_of_getElem? found)).1
  have moved (after : Task) (isAfter : Job.raised ⟨task, work :: rest⟩ = ⟨after, []⟩) (creates : after.creates = task.creates)
      (unmade : after.unmade = task.unmade) (pends : after.pends = task.pends)
      (fine : TaskFine books (jobs.set index ⟨after, []⟩) [] after) :
      BooksKept config books (jobs.set index (Job.raised ⟨task, work :: rest⟩)) := by
    rw [isAfter]
    refine kept_same found kept ?_ ?_ ?_ ⟨fine, nofun⟩
    · exact .inl creates
    · exact .inl unmade
    · exact pends
  have goesOn : Goes books books jobs (jobs.set index ⟨task, []⟩) none := by
    refine goes_same found books ?_ ?_ none
    · exact .inl rfl
    · exact .inl rfl
  have fine := goesOn.task mine nofun
  cases task with
  | passing | closing saw => exact moved .broken rfl rfl rfl rfl trivial
  | failing name slot =>
    refine moved (.failing name slot) rfl rfl rfl rfl ?_
    rcases fine with ⟨isPending, settled, works | owed⟩
    · rw [(cons.inj works).1] at isCommand
      cases isCommand
    · exact ⟨isPending, settled, .inr owed⟩
  | stopped saw => cases saw <;> exact moved _ rfl rfl rfl rfl fine
  | _ => exact moved _ rfl rfl rfl rfl fine

end Works

section Advances

variable {config : Config} {books next : Books} {jobs : List Job} (kept : BooksKept config books jobs)
  {index : ℕ} {task : Task} (found : jobs[index]? = some ⟨task, []⟩)

include kept found

theorem absent_of_unmade (unmade : task.unmade = some name) : name ∉ books.present :=
  fun isThere => (kept.present name isThere).2 _ (mem_of_getElem? found) unmade

theorem removal_fine {slot : Bool} (creating : task.creates = some name) (named : name ∈ next.named)
  (isPending : name ∈ next.pending) : JobFine next (jobs.set index (removal name slot)) (removal name slot) := by
  have settled : Settled next (jobs.set index (removal name slot)) name := settled_own found kept.creations creating named rfl
  refine ⟨⟨isPending, settled, .inl rfl⟩, ?_⟩
  intro _ mem
  rw [mem_singleton.mp mem]
  exact ⟨settled, nofun⟩

theorem kept_on {after : Task} (creates : after.creates = task.creates \/ after.creates = none)
  (unmade : after.unmade = task.unmade \/ after.unmade = none) (pends : after.pends = task.pends)
  (fine : TaskFine books (jobs.set index ⟨after, works⟩) works after)
  (worksFine : ∀ work ∈ works, WorkFine books (jobs.set index ⟨after, works⟩) work) :
  BooksKept config books (jobs.set index ⟨after, works⟩) := by
  refine kept_same found kept ?_ ?_ ?_ ⟨fine, worksFine⟩
  · exact creates
  · exact unmade
  · exact pends

theorem kept_removal {slot : Bool} (creating : task.creates = some name) (pends : task.pends = some name)
  (isPending : name ∈ books.pending) (named : name ∈ books.named) :
  BooksKept config books (jobs.set index (removal name slot)) := by
  have fine : JobFine books (jobs.set index (removal name slot)) (removal name slot) :=
    removal_fine kept found creating named isPending
  exact kept_on kept found (.inl creating.symm) (.inr rfl) pends.symm fine.1 fine.2

theorem kept_ask (isTask : task = .asking name) (room : books.places < config.maxSandboxes) (open_ : books.stop = false) :
  BooksKept config { books with pending := insert name books.pending, own := books.own ++ [name] }
    (jobs.set index ⟨.admitted name, []⟩) := by
  have mine := (kept.fine _ (mem_of_getElem? found)).1
  rw [isTask] at mine found
  have goes : Goes books { books with pending := insert name books.pending, own := books.own ++ [name] } jobs
      (jobs.set index ⟨.admitted name, []⟩) (some name) := by
    refine goes_set found rfl rfl (.inl rfl) (.inl rfl) (fun _ _ mem => mem) (fun _ mem => .inl (mem_insert_of_mem mem)) rfl ?_
    intro stop
    rw [open_] at stop
    cases stop
  refine kept_move found kept goes ?_ ?_ (fun _ mem => .inl mem) (fun other mem => ⟨.inl mem, (kept.gone other mem).2⟩)
    (fun _ mem => .inl mem) kept.keys (fun _ mem => .inl mem) ?_ ?_ kept.logged
    ⟨⟨mine, mem_insert_self _ _⟩, nofun⟩
  · exact .inl rfl
  · have grows := Finset.card_insert_le name books.pending
    have within := Finset.card_le_card (Finset.subset_union_left : books.pending ⊆ books.pending ∪ books.doomed)
    unfold places at room
    dsimp only
    omega
  · intro other mem
    rcases mem_insert.mp mem with same | old
    · rw [same]
      exact .inl rfl
    · exact .inr ⟨old, nofun⟩
  · intro other isOwn isThere
    rcases mem_snoc.mp isOwn with old | new
    · exact (kept.cover other old isThere).imp_right (·.imp_left mem_insert_of_mem)
    · rw [new]
      exact .inr (.inl (mem_insert_self _ _))

theorem kept_made (isTask : task = .slotted name) (creates : moved.task.creates = some name)
  (unmade : moved.task.unmade = none) (pends : moved.task.pends = some name)
  (fine : JobFine { books with containers := books.containers ++ [(name, true)] } (jobs.set index moved) moved) :
  BooksKept config { books with containers := books.containers ++ [(name, true)] } (jobs.set index moved) := by
  have mine := (kept.fine _ (mem_of_getElem? found)).1
  have absent := absent_of_unmade kept found (by rw [isTask]; rfl : task.unmade = some name)
  rw [isTask] at mine found
  have present : (books.containers ++ [(name, true)]).map Prod.fst = books.present ++ [name] := by
    rw [map_append]
    rfl
  -- Only the name of this thread is new among the containers.
  have apart {other : ℕ} (settled : Settled books jobs other) : other ≠ name := by
    intro same
    rw [same] at settled
    exact settled.2 _ (mem_of_getElem? found) rfl
  have goes : Goes books { books with containers := books.containers ++ [(name, true)] } jobs (jobs.set index moved) (some name) := by
    refine ⟨fun _ mem => mem, fun _ settled => settled_set found (fun _ mem => mem) (.inr unmade) settled,
      fun _ quiet => quiet_set found (fun _ mem => mem) (.inl creates) quiet, ?_, ?_,
      fun _ _ mem => mem, fun _ mem => .inl mem, fun _ mem => .inl mem,
      fun stop => ⟨stop, fun _ mem => mem, fun _ mem => mem⟩⟩
    · intro other settled runs
      rcases mem_snoc.mp runs with old | new
      · exact old
      · exact absurd (congrArg Prod.fst (new)) (apart settled)
    · intro other settled isThere
      change other ∈ (books.containers ++ [(name, true)]).map Prod.fst at isThere
      rw [present] at isThere
      rcases mem_snoc.mp isThere with old | new
      · exact old
      · exact absurd (new) (apart settled)
  refine kept_move found kept goes (.inl creates) kept.capacity (fun _ mem => .inl mem)
    (fun other mem => ⟨.inl mem, (kept.gone other mem).2⟩) ?_ ?_ (fun _ mem => .inl mem) ?_ ?_ kept.logged fine
  · intro other isThere
    change other ∈ (books.containers ++ [(name, true)]).map Prod.fst at isThere
    rw [present] at isThere
    rcases mem_snoc.mp isThere with old | new
    · exact .inl old
    · rw [new]
      exact .inr (settled_own found kept.creations rfl mine.1 unmade)
  · change ((books.containers ++ [(name, true)]).map Prod.fst).Nodup
    rw [present]
    exact List.Nodup.append kept.keys (nodup_singleton _) (disjoint_singleton.mpr absent)
  · intro other mem
    by_cases same : other = name
    · rw [same]
      exact .inl pends
    · exact .inr ⟨mem, fun equal => same (Option.some.inj equal).symm⟩
  · intro other isOwn isThere
    change other ∈ (books.containers ++ [(name, true)]).map Prod.fst at isThere
    rw [present] at isThere
    rcases mem_snoc.mp isThere with old | new
    · exact kept.cover other isOwn old
    · rw [new]
      exact .inr (.inl mine.2)

theorem kept_register (isTask : task = .registering name) (open_ : books.stop = false) :
  BooksKept config { books with sandboxes := books.sandboxes ++ [name], pending := books.pending.erase name }
    (jobs.set index ⟨.ended, []⟩) := by
  have mine := (kept.fine _ (mem_of_getElem? found)).1
  rw [isTask] at mine found
  -- Nobody else creates this sandbox.
  have apart {other : ℕ} (quiet : Quiet books jobs other) : other ≠ name := by
    intro same
    rw [same] at quiet
    exact quiet.2 _ (mem_of_getElem? found) rfl
  have goes : Goes books { books with sandboxes := books.sandboxes ++ [name], pending := books.pending.erase name } jobs
      (jobs.set index ⟨.ended, []⟩) (some name) := by
    refine goes_set found rfl rfl (.inr rfl) (.inr rfl) ?_ ?_ rfl ?_
    · intro other quiet mem
      rcases mem_snoc.mp mem with old | new
      · exact old
      · exact absurd (new) (apart quiet)
    · intro other mem
      by_cases same : other = name
      · exact .inr (congrArg some same.symm)
      · exact .inl (mem_erase.mpr ⟨same, mem⟩)
    · intro stop
      rw [open_] at stop
      cases stop
  refine kept_move found kept goes ?_ ?_ ?_ ?_ (fun _ mem => .inl mem) kept.keys (fun _ mem => .inl mem) ?_ ?_
    kept.logged ⟨trivial, nofun⟩
  · exact .inr rfl
  · have shrinks := Finset.card_erase_add_one mine.2
    have capacity := kept.capacity
    simp only [length_append, length_cons, length_nil]
    omega
  · exact forall_mem_snoc (fun other old => .inl old) (.inr (quiet_own found kept.creations rfl mine.1 rfl))
  · intro other mem
    refine ⟨.inl mem, ?_⟩
    intro isRegistered
    rcases mem_snoc.mp isRegistered with old | new
    · exact (kept.gone other mem).2 old
    · exact apart (kept.gone other mem).1 (new)
  · intro other mem
    rcases mem_erase.mp mem with ⟨differs, old⟩
    exact .inr ⟨old, fun equal => differs (Option.some.inj equal).symm⟩
  · intro other isOwn isThere
    rcases kept.cover other isOwn isThere with isRegistered | isPending | isDoomed
    · exact .inl (mem_append_left _ isRegistered)
    · by_cases same : other = name
      · rw [same]
        exact .inl (mem_concat_self)
      · exact .inr (.inl (mem_erase.mpr ⟨same, isPending⟩))
    · exact .inr (.inr isDoomed)

theorem kept_leave (isTask : task = .leaving name) :
  BooksKept config { books with pending := books.pending.erase name } (jobs.set index ⟨.broken, []⟩) := by
  have mine := (kept.fine _ (mem_of_getElem? found)).1
  rw [isTask] at mine found
  have goes : Goes books { books with pending := books.pending.erase name } jobs (jobs.set index ⟨.broken, []⟩) (some name) := by
    refine goes_set found rfl rfl (.inr rfl) (.inr rfl) (fun _ _ mem => mem) ?_ rfl
      fun stop => ⟨stop, Finset.erase_subset _ _, fun _ mem => mem⟩
    intro other mem
    by_cases same : other = name
    · exact .inr (congrArg some same.symm)
    · exact .inl (mem_erase.mpr ⟨same, mem⟩)
  refine kept_move found kept goes ?_ ?_ (fun _ mem => .inl mem)
    (fun other mem => ⟨.inl mem, (kept.gone other mem).2⟩) (fun _ mem => .inl mem) kept.keys
    (fun _ mem => .inl mem) ?_ ?_ kept.logged ⟨trivial, nofun⟩
  · exact .inr rfl
  · have shrinks : (books.pending.erase name).card <= books.pending.card := Finset.card_erase_le
    have capacity := kept.capacity
    dsimp only
    omega
  · intro other mem
    rcases mem_erase.mp mem with ⟨differs, old⟩
    exact .inr ⟨old, fun equal => differs (Option.some.inj equal).symm⟩
  · intro other isOwn isThere
    rcases kept.cover other isOwn isThere with isRegistered | isPending | isDoomed
    · exact .inl isRegistered
    · by_cases same : other = name
      · rw [same] at isThere ⊢
        exact .inr (.inr (mine.2.2 isThere))
      · exact .inr (.inl (mem_erase.mpr ⟨same, isPending⟩))
    · exact .inr (.inr isDoomed)

theorem kept_stop (isTask : task = .stopping) :
  BooksKept config { books with stop := true } (jobs.set index ⟨.waiting, []⟩) := by
  rw [isTask] at found
  have goes : Goes books { books with stop := true } jobs (jobs.set index ⟨.waiting, []⟩) none := by
    exact goes_set found rfl rfl (.inl rfl) (.inl rfl) (fun _ _ mem => mem) (fun _ mem => .inl mem) rfl
      fun _ => ⟨rfl, fun _ mem => mem, fun _ mem => mem⟩
  refine kept_move found kept goes ?_ kept.capacity (fun _ mem => .inl mem)
    (fun other mem => ⟨.inl mem, (kept.gone other mem).2⟩) (fun _ mem => .inl mem) kept.keys
    (fun _ mem => .inl mem) (fun _ mem => .inr ⟨mem, nofun⟩) kept.cover kept.logged
    ⟨rfl, nofun⟩
  exact .inl rfl

theorem kept_advance {slots after : Slots} (advanced : advance config books slots choice task = some (next, after, moved)) :
  BooksKept config next (jobs.set index moved) := by
  have mine := (kept.fine _ (mem_of_getElem? found)).1
  -- A thread that only goes on, with nothing to do under the cleanup lock.
  have goesOn (after : Task) (creates : after.creates = task.creates \/ after.creates = none)
      (unmade : after.unmade = task.unmade \/ after.unmade = none) (pends : after.pends = task.pends)
      (fine : TaskFine books (jobs.set index ⟨after, []⟩) [] after) : BooksKept config books (jobs.set index ⟨after, []⟩) :=
    kept_on kept found creates unmade pends fine nofun
  have quietOn {name : ℕ} {job : Job} (creates : job.task.creates = none) (quiet : Quiet books jobs name) :
      Quiet books (jobs.set index job) name := quiet_set found (fun _ mem => mem) (.inr creates) quiet
  cases task with
  | asking name =>
    simp only [advance] at advanced
    by_cases full : books.stop \/ config.maxSandboxes <= books.places
    · rw [if_pos full] at advanced
      cases advanced
      exact goesOn .broken (.inr rfl) (.inr rfl) rfl trivial
    · rw [if_neg full] at advanced
      cases advanced
      rcases not_or.mp full with ⟨open_, room⟩
      exact kept_ask kept found rfl (Nat.lt_of_not_le room) (eq_false_iff.mpr open_)
  | admitted name =>
    simp only [advance] at advanced
    by_cases busy : slots.free = 0
    · rw [if_pos busy] at advanced
      cases advanced
      refine goesOn (.leaving name) (.inl rfl) (.inr rfl) rfl ⟨mine.2, ?_, ?_⟩
      · exact settled_own found kept.creations rfl mine.1 rfl
      · exact fun isThere => absurd isThere (absent_of_unmade kept found rfl)
    · rw [if_neg busy] at advanced
      cases advanced
      exact goesOn (.slotted name) (.inl rfl) (.inl rfl) rfl mine
  | slotted name =>
    cases choice with
    | go =>
      cases advanced
      exact kept_made kept found rfl rfl rfl rfl ⟨mine, nofun⟩
    | late =>
      cases advanced
      exact kept_made kept found rfl rfl rfl rfl (removal_fine kept found rfl mine.1 mine.2)
    | fail =>
      cases advanced
      exact kept_removal kept found rfl rfl mine.2 mine.1
    | raise =>
      cases advanced
      refine goesOn (.failing name true) (.inl rfl) (.inr rfl) rfl ⟨mine.2, ?_, .inr ?_⟩
      · exact settled_own found kept.creations rfl mine.1 rfl
      · exact fun isThere => absurd isThere (absent_of_unmade kept found rfl)
    | found boxes doomed => cases advanced
  | started name =>
    simp only [advance] at advanced
    cases stop : books.stop with
    | true =>
      rw [stop, if_pos rfl] at advanced
      cases advanced
      exact kept_removal kept found rfl rfl mine.2 mine.1
    | false =>
      rw [stop, if_neg Bool.false_ne_true] at advanced
      cases advanced
      exact goesOn (.made name) (.inl rfl) (.inr rfl) rfl mine
  | made name =>
    simp only [advance] at advanced
    by_cases isGo : choice = .go
    · rw [if_pos isGo] at advanced
      cases advanced
      exact goesOn (.verified name) (.inl rfl) (.inr rfl) rfl mine
    · rw [if_neg isGo] at advanced
      cases advanced
      exact kept_removal kept found rfl rfl mine.2 mine.1
  | verified name =>
    cases advanced
    exact goesOn (.registering name) (.inl rfl) (.inr rfl) rfl mine
  | registering name =>
    simp only [advance] at advanced
    by_cases stopping : books.stop
    · rw [if_pos stopping] at advanced
      cases advanced
      exact kept_removal kept found rfl rfl mine.2 mine.1
    · rw [if_neg stopping] at advanced
      cases advanced
      exact kept_register kept found rfl (eq_false_iff.mpr stopping)
  | failing name slot =>
    cases advanced
    rcases mine with ⟨isPending, settled, clash | owed⟩
    · cases clash
    · refine goesOn (.leaving name) (.inl rfl) (.inr rfl) rfl ⟨isPending, ?_, owed⟩
      exact settled_own found kept.creations rfl settled.1 rfl
  | leaving name =>
    cases advanced
    exact kept_leave kept found rfl
  | passing | returns name =>
    cases advanced
    exact goesOn .ended (.inr rfl) (.inr rfl) rfl trivial
  | stopping =>
    cases advanced
    exact kept_stop kept found rfl
  | waiting =>
    have worksFine (saw : Bool) : ∀ work ∈ [Work.boxes, Work.leftovers],
        WorkFine books (jobs.set index ⟨.closing saw, [.boxes, .leftovers]⟩) work := by
      intro work mem
      rcases mem_cons.mp mem with isBoxes | isLeftovers
      · rw [isBoxes]
        trivial
      · rw [mem_singleton.mp isLeftovers]
        trivial
    simp only [advance] at advanced
    by_cases nothing : books.pending = ∅
    · rw [if_pos nothing] at advanced
      cases advanced
      exact kept_on kept found (.inr rfl) (.inr rfl) rfl ⟨mine, nothing, .inl mem_cons_self⟩ (worksFine true)
    · rw [if_neg nothing] at advanced
      by_cases timedOut : choice = .fail
      · rw [if_pos timedOut] at advanced
        cases advanced
        exact kept_on kept found (.inr rfl) (.inr rfl) rfl trivial (worksFine false)
      · rw [if_neg timedOut] at advanced
        cases advanced
  | closing saw =>
    cases advanced
    cases saw with
    | false => exact goesOn (.stopped false) (.inr rfl) (.inr rfl) rfl trivial
    | true =>
      rcases mine with ⟨stop, pending, clash | all⟩
      · cases clash
      · refine goesOn (.stopped true) (.inr rfl) (.inr rfl) rfl ⟨stop, pending, ?_⟩
        exact eq_nil_iff_forall_not_mem.mpr (fun name mem => nomatch all name mem)
  | asks name =>
    simp only [advance] at advanced
    by_cases full : config.execShare <= slots.shares name
    · rw [if_pos full] at advanced
      cases advanced
      exact goesOn .broken (.inr rfl) (.inr rfl) rfl trivial
    · rw [if_neg full] at advanced
      cases advanced
      exact goesOn (.shares name) (.inr rfl) (.inr rfl) rfl (quietOn rfl mine)
  | shares name =>
    simp only [advance] at advanced
    by_cases busy : slots.free = 0
    · rw [if_pos busy] at advanced
      cases advanced
      exact goesOn (.returns name) (.inr rfl) (.inr rfl) rfl trivial
    · rw [if_neg busy] at advanced
      cases advanced
      exact goesOn (.works name) (.inr rfl) (.inr rfl) rfl (quietOn rfl mine)
  | works name =>
    simp only [advance] at advanced
    by_cases removes : choice = .fail
    · rw [if_pos removes] at advanced
      cases advanced
      refine kept_on kept found (.inr rfl) (.inr rfl) rfl (quietOn rfl mine) ?_
      intro _ mem
      rw [mem_singleton.mp mem]
      exact ⟨quietOn rfl mine, nofun⟩
    · rw [if_neg removes] at advanced
      cases advanced
      exact goesOn (.returns name) (.inr rfl) (.inr rfl) rfl trivial
  | stopped saw | ended | broken => cases advanced

end Advances

/-- Every slot is free or held by a thread that will give it back. -/
structure SlotsKept (config : Config) (slots : Slots) (jobs : List Job) : Prop where
  free : slots.free + jobs.countP (·.task.holdsSlot) = config.maxExecs
  shares : ∀ name, slots.shares name = jobs.countP (·.task.holdsShare name)
  within : ∀ name, slots.shares name <= config.execShare

section Slotted

variable {config : Config} {slots after : Slots} {jobs : List Job} (kept : SlotsKept config slots jobs)
  {index : ℕ} {job moved : Job} (found : jobs[index]? = some job)

include kept found

theorem slots_move (free : after.free + moved.task.holdsSlot.toNat = slots.free + job.task.holdsSlot.toNat)
  (shares : ∀ name, after.shares name + (job.task.holdsShare name).toNat = slots.shares name + (moved.task.holdsShare name).toNat)
  (within : ∀ name, after.shares name <= config.execShare) : SlotsKept config after (jobs.set index moved) := by
  refine ⟨?_, ?_, within⟩
  · have counted := countP_set found moved (·.task.holdsSlot)
    have total := kept.free
    omega
  · intro name
    have counted := countP_set found moved (·.task.holdsShare name)
    have total := kept.shares name
    have moves := shares name
    omega

theorem slots_same (free : moved.task.holdsSlot = job.task.holdsSlot)
  (shares : ∀ name, moved.task.holdsShare name = job.task.holdsShare name) : SlotsKept config slots (jobs.set index moved) := by
  refine slots_move kept found ?_ ?_ kept.within
  · rw [free]
  · intro name
    rw [shares name]

theorem slots_free {free : ℕ} (moves : free + moved.task.holdsSlot.toNat = slots.free + job.task.holdsSlot.toNat)
  (shares : ∀ name, moved.task.holdsShare name = job.task.holdsShare name) :
  SlotsKept config { slots with free := free } (jobs.set index moved) := by
  refine slots_move kept found moves ?_ kept.within
  intro name
  rw [shares name]

theorem slots_advance (advanced : advance config books slots choice job.task = some (next, after, moved)) :
  SlotsKept config after (jobs.set index moved) := by
  generalize isTask : job.task = task at advanced
  have same {moved : Job} (free : moved.task.holdsSlot = task.holdsSlot)
      (shares : ∀ name, moved.task.holdsShare name = task.holdsShare name) : SlotsKept config slots (jobs.set index moved) := by
    rw [<- isTask] at free shares
    exact slots_same kept found free shares
  have frees {moved : Job} {free : ℕ} (moves : free + moved.task.holdsSlot.toNat = slots.free + task.holdsSlot.toNat)
      (shares : ∀ name, moved.task.holdsShare name = task.holdsShare name) :
      SlotsKept config { slots with free := free } (jobs.set index moved) := by
    rw [<- isTask] at moves shares
    exact slots_free kept found moves shares
  cases task with
  | asking name | started name | made name | registering name =>
    simp only [advance] at advanced
    split at advanced <;> cases advanced <;> exact same rfl (fun _ => rfl)
  | admitted name | shares name =>
    simp only [advance] at advanced
    by_cases busy : slots.free = 0
    · rw [if_pos busy] at advanced
      cases advanced
      exact same rfl (fun _ => rfl)
    · rw [if_neg busy] at advanced
      cases advanced
      exact frees (Nat.sub_add_cancel (Nat.pos_of_ne_zero busy)) (fun _ => rfl)
  | slotted name =>
    cases choice with
    | found boxes doomed => cases advanced
    | _ =>
      cases advanced
      exact same rfl (fun _ => rfl)
  | verified name =>
    cases advanced
    exact frees rfl (fun _ => rfl)
  | failing name slot =>
    cases advanced
    cases slot <;> exact frees rfl (fun _ => rfl)
  | waiting =>
    simp only [advance] at advanced
    split at advanced
    · cases advanced
      exact same rfl (fun _ => rfl)
    · split at advanced <;> cases advanced
      exact same rfl (fun _ => rfl)
  | asks name =>
    simp only [advance] at advanced
    by_cases full : config.execShare <= slots.shares name
    · rw [if_pos full] at advanced
      cases advanced
      exact same rfl (fun _ => rfl)
    · rw [if_neg full] at advanced
      cases advanced
      refine slots_move kept found ?_ ?_ ?_
      · rw [isTask]
        rfl
      · intro other
        rw [isTask]
        by_cases mine : other = name
        · rw [mine]
          simp only [update_self, Task.holdsShare, decide_true, toNat_true, toNat_false, Nat.add_zero]
        · have apart : ¬ name = other := fun equal => mine equal.symm
          simp only [update_of_ne mine, Task.holdsShare, decide_eq_false apart]
      · intro other
        by_cases mine : other = name
        · rw [mine]
          simp only [update_self]
          exact Nat.lt_of_not_le full
        · simp only [update_of_ne mine]
          exact kept.within other
  | works name =>
    simp only [advance] at advanced
    by_cases removes : choice = .fail
    · rw [if_pos removes] at advanced
      cases advanced
      exact same rfl (fun _ => rfl)
    · rw [if_neg removes] at advanced
      cases advanced
      exact frees rfl (fun _ => rfl)
  | returns name =>
    cases advanced
    have held := toNat_le_countP found (·.task.holdsShare name)
    rw [<- kept.shares name, isTask] at held
    simp only [Task.holdsShare, decide_true, toNat_true] at held
    refine slots_move kept found ?_ ?_ ?_
    · rw [isTask]
      rfl
    · intro other
      rw [isTask]
      by_cases mine : other = name
      · rw [mine]
        simp only [update_self, Task.holdsShare, decide_true, toNat_true, toNat_false, Nat.add_zero]
        exact Nat.sub_add_cancel held
      · have apart : ¬ name = other := fun equal => mine equal.symm
        simp only [update_of_ne mine, Task.holdsShare, decide_eq_false apart]
    · intro other
      by_cases mine : other = name
      · rw [mine]
        simp only [update_self]
        exact (Nat.sub_le _ _).trans (kept.within name)
      · simp only [update_of_ne mine]
        exact kept.within other
  | leaving name | passing | stopping | closing saw =>
    cases advanced
    exact same rfl (fun _ => rfl)
  | stopped saw | ended | broken => cases advanced

end Slotted

theorem perform_doomed {work : Work} {more : List Work} (performed : books.perform choice work = some (next, more))
  (fine : WorkFine books jobs work) (isDoomed : name ∈ books.doomed) : name ∈ next.doomed \/ name ∉ next.present := by
  cases work with
  | retire other reconciled =>
    simp only [perform] at performed
    cases retired : books.retire other with
    | none =>
      rw [retired] at performed
      cases performed
      exact .inl isDoomed
    | some after =>
      rw [retired] at performed
      cases performed
      unfold retire at retired
      split at retired <;> cases retired
      exact .inl (mem_insert_of_mem isDoomed)
  | doom other reconciled =>
    cases performed
    exact .inl (mem_insert_of_mem isDoomed)
  | rm other reconciled | list known =>
    cases choice <;> cases performed <;> exact .inl isDoomed
  | forget other =>
    cases performed
    by_cases same : name = other
    · rw [same]
      exact .inr fine.2
    · exact .inl (mem_erase.mpr ⟨same, isDoomed⟩)
  | survey | leftovers =>
    cases choice with
    | found boxes doomed =>
      simp only [perform] at performed
      split at performed <;> cases performed
      exact .inl isDoomed
    | _ => cases performed
  | _ =>
    cases performed
    exact .inl isDoomed

theorem advance_doomed {slots after : Slots} {task : Task}
  (advanced : advance config books slots choice task = some (next, after, moved)) : next.doomed = books.doomed := by
  unfold advance at advanced
  repeat' split at advanced
  all_goals
    cases advanced <;> rfl

structure ManagerKept (config : Config) (state : Manager) : Prop where
  books : BooksKept config state.books state.jobs
  slots : SlotsKept config state.slots state.jobs

theorem slots_raised {job : Job} : job.raised.task.holdsSlot = job.task.holdsSlot /\
  ∀ name, job.raised.task.holdsShare name = job.task.holdsShare name := by
  unfold Job.raised
  cases job.task <;> exact ⟨rfl, fun _ => rfl⟩

theorem kept_step (kept : ManagerKept config state) {index : ℕ} {job : Job} (found : state.jobs[index]? = some job)
  (choice : Choice) : ManagerKept config (state.step config index choice job) := by
  rcases job with ⟨task, works⟩
  cases works with
  | nil =>
    simp only [Manager.step]
    by_cases holds : state.holder = some index
    · rw [if_pos holds]
      exact ⟨kept.books, kept.slots⟩
    · rw [if_neg holds]
      cases advanced : advance config state.books state.slots choice task with
      | none => exact kept
      | some result => exact ⟨kept_advance kept.books found advanced, slots_advance kept.slots found advanced⟩
  | cons work rest =>
    simp only [Manager.step]
    by_cases unheld : state.holder = none
    · rw [if_pos unheld]
      exact ⟨kept.books, kept.slots⟩
    · rw [if_neg unheld]
      by_cases holds : state.holder = some index
      · rw [if_pos holds]
        by_cases raises : choice = .raise /\ work.isCommand
        · rw [if_pos raises]
          exact ⟨kept_raised kept.books found raises.2, slots_same kept.slots found slots_raised.1 slots_raised.2⟩
        · rw [if_neg raises]
          cases performed : state.books.perform choice work with
          | none => exact kept
          | some result =>
            exact ⟨kept_perform kept.books found performed, slots_same kept.slots found rfl fun _ => rfl⟩
      · rw [if_neg holds]
        exact kept

section Begins

variable {config : Config} {state : Manager} (kept : ManagerKept config state)

include kept

theorem kept_join {names : List ℕ} {joined : Job} (named : state.books.named ⊆ names)
  (fresh : ∀ name, joined.task.creates = some name -> name ∉ state.books.named)
  (slots : joined.task.holdsSlot = false /\ ∀ name, joined.task.holdsShare name = false)
  (fine : Goes state.books { state.books with named := names } state.jobs (state.jobs ++ [joined]) none ->
    JobFine { state.books with named := names } (state.jobs ++ [joined]) joined) :
  ManagerKept config { state.join joined with books := { state.books with named := names } } := by
  have goes : Goes state.books { state.books with named := names } state.jobs (state.jobs ++ [joined]) none := by
    refine ⟨named, ?_, ?_, fun _ _ runs => runs, fun _ _ isThere => isThere, fun _ _ mem => mem, fun _ mem => .inl mem,
      fun _ mem => .inl mem, fun stop => ⟨stop, fun _ mem => mem, fun _ mem => mem⟩⟩
    · intro name settled
      refine ⟨named settled.1, ?_⟩
      intro job mem unmade
      rcases mem_snoc.mp mem with old | new
      · exact settled.2 job old unmade
      · rw [new] at unmade
        exact fresh name (creates_of_unmade unmade) settled.1
    · intro name quiet
      refine ⟨named quiet.1, ?_⟩
      intro job mem creates
      rcases mem_snoc.mp mem with old | new
      · exact quiet.2 job old creates
      · rw [new] at creates
        exact fresh name creates quiet.1
  have books := kept.books
  refine ⟨⟨books.capacity, fun name mem => goes.quiet name (books.registered name mem),
    fun name mem => ⟨goes.quiet name (books.gone name mem).1, (books.gone name mem).2⟩,
    fun name mem => goes.settled name (books.present name mem), books.keys,
    fun name mem => goes.settled name (books.doomed name mem), ?_, books.cover, books.logged, ?_, ?_⟩, ⟨?_, ?_, kept.slots.within⟩⟩
  · intro name mem
    rcases books.pending name mem with ⟨job, isJob, isPending⟩
    exact ⟨job, mem_append_left _ isJob, isPending⟩
  · apply books.creations.append
    intro name creates other mem also
    exact fresh name creates (named_of_creates (books.fine other mem).1 also)
  · intro job mem
    rcases mem_snoc.mp mem with old | new
    · exact goes.job (books.fine job old) nofun
    · rw [new]
      exact fine goes
  · change state.slots.free + (state.jobs ++ [joined]).countP (·.task.holdsSlot) = config.maxExecs
    rw [countP_append, countP_singleton, slots.1]
    exact kept.slots.free
  · intro name
    change state.slots.shares name = (state.jobs ++ [joined]).countP (·.task.holdsShare name)
    rw [countP_append, countP_singleton, slots.2 name]
    exact kept.slots.shares name

theorem kept_begin {joined : Job} (creates : joined.task.creates = none)
  (slots : joined.task.holdsSlot = false /\ ∀ name, joined.task.holdsShare name = false)
  (fine : Goes state.books state.books state.jobs (state.jobs ++ [joined]) none -> JobFine state.books (state.jobs ++ [joined]) joined) :
  ManagerKept config (state.join joined) := by
  refine kept_join kept (fun _ mem => mem) ?_ slots fine
  intro _ creating
  rw [creates] at creating
  cases creating

theorem kept_engine {containers : List (ℕ × Bool)} (present : (containers.map Prod.fst).Sublist state.books.present)
  (running : ∀ name, (name, true) ∈ containers -> (name, true) ∈ state.books.containers) :
  ManagerKept config { state with books := { state.books with containers := containers } } := by
  have books := kept.books
  have goes : Goes state.books { state.books with containers := containers } state.jobs state.jobs none :=
    ⟨fun _ mem => mem, fun _ settled => settled, fun _ quiet => quiet, fun name _ runs => running name runs,
      fun _ _ isThere => present.subset isThere, fun _ _ mem => mem, fun _ mem => .inl mem, fun _ mem => .inl mem,
      fun stop => ⟨stop, fun _ mem => mem, fun _ mem => mem⟩⟩
  refine ⟨⟨books.capacity, books.registered, books.gone, fun name mem => books.present name (present.subset mem),
    books.keys.sublist present, books.doomed, books.pending, fun name isOwn isThere => books.cover name isOwn (present.subset isThere),
    books.logged, books.creations, ?_⟩, kept.slots⟩
  intro job mem
  exact goes.job (books.fine job mem) nofun

theorem kept_next {action : Action} (enabled : state.Enabled action) : ManagerKept config (state.next config action) := by
  have known {name : ℕ} (isKnown : name ∈ state.books.sandboxes \/ name ∈ state.books.gone) : Quiet state.books state.jobs name :=
    isKnown.elim (kept.books.registered name) (fun gone => (kept.books.gone name gone).1)
  have single (work : Work) {jobs : List Job} (fine : WorkFine state.books jobs work) :
      ∀ other ∈ [work], WorkFine state.books jobs other := by
    intro other mem
    rw [mem_singleton.mp mem]
    exact fine
  cases action with
  | create name =>
    refine kept_join kept (subset_append_left _ _) ?_ ⟨rfl, fun _ => rfl⟩ ?_
    · intro other creates
      cases creates
      exact enabled
    · exact fun _ => ⟨mem_concat_self, nofun⟩
  | remove name =>
    refine kept_begin kept rfl ⟨rfl, fun _ => rfl⟩ (fun goes => ⟨trivial, single _ ?_⟩)
    exact ⟨goes.quiet name (known enabled), nofun⟩
  | reap => exact kept_begin kept rfl ⟨rfl, fun _ => rfl⟩ (fun _ => ⟨trivial, single .survey trivial⟩)
  | reconcile => exact kept_begin kept rfl ⟨rfl, fun _ => rfl⟩ (fun _ => ⟨trivial, single .known trivial⟩)
  | shutdown => exact kept_begin kept rfl ⟨rfl, fun _ => rfl⟩ (fun _ => ⟨trivial, nofun⟩)
  | operate name =>
    exact kept_begin kept rfl ⟨rfl, fun _ => rfl⟩ (fun goes => ⟨goes.quiet name (known enabled), nofun⟩)
  | step index choice =>
    simp only [Manager.next]
    cases found : state.jobs[index]? with
    | none => exact kept
    | some job => exact kept_step kept found choice
  | stops name =>
    apply kept_engine kept
    · rw [map_map]
      have same : (Prod.fst ∘ fun item : ℕ × Bool => if item.1 = name then (name, false) else item) = Prod.fst := by
        funext item
        simp only [comp_apply]
        split
        · rename_i isName
          exact isName.symm
        · rfl
      rw [same]
      exact List.Sublist.refl _
    · intro _ runs
      rcases mem_map.mp runs with ⟨item, isItem, became⟩
      by_cases isName : item.1 = name
      · rw [if_pos isName] at became
        cases became
      · rw [if_neg isName] at became
        rw [<- became]
        exact isItem
  | vanishes name =>
    exact kept_engine kept (filter_sublist.map _) (fun _ runs => (mem_filter.mp runs).1)

end Begins

theorem managerKept_reachable (reachable : (managerMachine config).Reachable state) : ManagerKept config state := by
  induction reachable with
  | start isStart =>
    rcases isStart with ⟨_, keys, isStart⟩
    rw [isStart]
    refine ⟨⟨Nat.zero_le _, ?_, ?_, ?_, keys, ?_, ?_, ?_, ⟨nodup_nil, ?_⟩, apart_nil _, ?_⟩, ⟨rfl, fun _ => rfl, fun _ => Nat.zero_le _⟩⟩
    · exact fun name mem => nomatch mem
    · exact fun name mem => absurd mem (notMem_empty name)
    · exact fun name isThere => ⟨isThere, fun job mem => nomatch mem⟩
    · exact fun name mem => absurd mem (notMem_empty name)
    · exact fun name mem => absurd mem (notMem_empty name)
    · exact fun name mem => nomatch mem
    · exact fun name mem => nomatch mem
    · exact fun job mem => nomatch mem
  | next _ enabled kept => exact kept_next kept enabled

theorem next_doomed (kept : ManagerKept config state) (action : Action) (isDoomed : name ∈ state.books.doomed) :
  name ∈ (state.next config action).books.doomed \/ name ∉ (state.next config action).books.present := by
  cases action with
  | step index choice =>
    simp only [Manager.next]
    cases found : state.jobs[index]? with
    | none => exact .inl isDoomed
    | some job =>
      simp only [Manager.step]
      split
      · split
        · exact .inl isDoomed
        · cases advanced : advance config state.books state.slots choice job.task with
          | none => exact .inl isDoomed
          | some result =>
            left
            rw [advance_doomed advanced]
            exact isDoomed
      · rename_i work rest isWorks
        have fine : WorkFine state.books state.jobs work := by
          apply (kept.books.fine job (mem_of_getElem? found)).2
          rw [isWorks]
          exact .head _
        split
        · exact .inl isDoomed
        · split
          · split
            · exact .inl isDoomed
            · cases performed : state.books.perform choice work with
              | none => exact .inl isDoomed
              | some result => exact perform_doomed performed fine isDoomed
          · exact .inl isDoomed
  | _ => exact .inl isDoomed

/-- The container that some work removes because `reconcile` found it to be left over. -/
def Work.reconciles : Work -> Option ℕ
  | .retire name true | .doom name true | .rm name true => some name
  | _ => none

theorem removable_of_reconciles {work : Work} (fine : WorkFine books jobs work) (reconciles : work.reconciles = some name) :
  Removable books jobs name := by
  cases work with
  | retire other reconciled | doom other reconciled =>
    cases reconciled <;> cases reconciles
    exact fine.2 rfl
  | rm other reconciled =>
    cases reconciled <;> cases reconciles
    exact fine.2.1 rfl
  | _ => cases reconciles

structure Accounted (config : Config) (state : Manager) : Prop where
  capacity : state.books.sandboxes.length + state.books.pending.card <= config.maxSandboxes
  /-- What this runner made is registered, or counts as being made or removed. -/
  places : ∀ name ∈ state.books.own, name ∈ state.books.present ->
    name ∈ state.books.sandboxes \/ name ∈ state.books.pending ∪ state.books.doomed
  /-- A removal is written down before it is tried ... -/
  tried : ∀ job ∈ state.jobs, ∀ name reconciled, Work.rm name reconciled ∈ job.works ->
    name ∈ state.books.present -> name ∈ state.books.doomed
  /-- ... until the container is gone. -/
  retried : ∀ action, state.Enabled action -> ∀ name ∈ state.books.doomed,
    name ∈ (state.next config action).books.doomed \/ name ∉ (state.next config action).books.present
  reconciled : ∀ job ∈ state.jobs, ∀ work ∈ job.works, ∀ name, work.reconciles = some name ->
    name ∉ state.books.pending /\ (name ∈ state.books.sandboxes -> (name, true) ∉ state.books.containers)
  unregistered : state.books.unregistered.Nodup
  /-- After a shutdown that saw every pending creation end. -/
  stopped : ∀ job ∈ state.jobs, job.task = .stopped true ->
    ∀ name ∈ state.books.own, name ∈ state.books.present -> name ∈ state.books.doomed
  /-- The slots of a sandbox are those that its operations hold. -/
  shares : ∀ name, state.slots.shares name = state.jobs.countP (·.task.holdsShare name) /\
    state.slots.shares name <= config.execShare
  /-- The slots of all sandboxes are free or held. -/
  slots : state.slots.free + state.jobs.countP (·.task.holdsSlot) = config.maxExecs

theorem containers_accounted {config : Config} {state : Manager} (reachable : (managerMachine config).Reachable state) :
  Accounted config state := by
  have kept := managerKept_reachable reachable
  have books := kept.books
  refine ⟨books.capacity, ?_, ?_, fun action _ name isDoomed => next_doomed kept action isDoomed, ?_, books.logged.1, ?_,
    fun name => ⟨kept.slots.shares name, kept.slots.within name⟩, kept.slots.free⟩
  · intro name isOwn isThere
    rcases books.cover name isOwn isThere with isRegistered | isPending | isDoomed
    · exact .inl isRegistered
    · exact .inr (Finset.mem_union_left _ isPending)
    · exact .inr (Finset.mem_union_right _ isDoomed)
  · intro job isJob name reconciled mem
    exact ((books.fine job isJob).2 _ mem).2.2
  · intro job isJob work mem name reconciles
    have removable := removable_of_reconciles ((books.fine job isJob).2 work mem) reconciles
    refine ⟨?_, removable.2⟩
    intro isPending
    rcases books.pending name isPending with ⟨creator, isCreator, pends⟩
    exact removable.1.2 creator isCreator (creates_of_pends pends)
  · intro job isJob isStopped name isOwn isThere
    have fine := (books.fine job isJob).1
    rw [isStopped] at fine
    rcases fine with ⟨_, pending, nothing⟩
    rcases books.cover name isOwn isThere with isRegistered | isPending | isDoomed
    · rw [nothing] at isRegistered
      cases isRegistered
    · rw [pending] at isPending
      exact absurd isPending (notMem_empty name)
    · exact isDoomed

instance decidableEnabled (state : Manager) : ∀ action, Decidable (state.Enabled action)
  | .create name => inferInstanceAs (Decidable (name ∉ state.books.named))
  | .remove name | .operate name => inferInstanceAs (Decidable (name ∈ state.books.sandboxes \/ name ∈ state.books.gone))
  | .reap | .reconcile | .shutdown | .step _ _ | .stops _ | .vanishes _ => inferInstanceAs (Decidable True)

def stoppedRun : List Action :=
  [.create 1, .step 0 .go, .step 0 .go, .step 0 .go, .step 0 .go, .step 0 .go, .step 0 .go, .step 0 .go,
    .operate 1, .step 1 .go, .step 1 .go,
    .remove 1, .step 2 .go, .step 2 .go, .step 2 .go, .step 2 .fail, .step 2 .go, .step 2 .go,
    .reconcile, .step 3 .go, .step 3 .go, .step 3 .go, .step 3 .go, .step 3 .go, .step 3 .go, .step 3 .go,
    .shutdown, .step 4 .go, .step 4 .go,
    .step 3 .go, .step 3 .fail, .step 3 .go, .step 3 .go,
    .step 4 .go, .step 4 .go, .step 4 (.found [] [1]), .step 4 .go, .step 4 .fail, .step 4 .go, .step 4 .go]

def afterStop : Manager := (managerMachine ⟨2, 2, 0⟩).run (.start ⟨2, 2, 0⟩ [(7, true)]) stoppedRun

/-- Two sandboxes are asked for; one removal fails at first, and the runner stops. -/
theorem containers_accounted_stopped : 1 ∈ afterStop.books.present /\ 1 ∈ afterStop.books.doomed /\ afterStop.slots.free = 1 := by
  have admitted : (managerMachine ⟨2, 2, 0⟩).Admits (.start ⟨2, 2, 0⟩ [(7, true)]) stoppedRun := by
    dsimp only [managerMachine]
    decide +kernel
  have started : (managerMachine ⟨2, 2, 0⟩).Reachable (.start ⟨2, 2, 0⟩ [(7, true)]) :=
    .start ⟨[(7, true)], nodup_singleton _, rfl⟩
  have accounted : Accounted ⟨2, 2, 0⟩ afterStop := containers_accounted (started.run stoppedRun admitted)
  have isThere : 1 ∈ afterStop.books.present := by decide +kernel
  have isStopped : (⟨.stopped true, []⟩ : Job) ∈ afterStop.jobs := by decide +kernel
  refine ⟨isThere, accounted.stopped _ isStopped rfl 1 (by decide +kernel) isThere, ?_⟩
  -- One operation is still at work.
  have slots := accounted.slots
  have working : afterStop.jobs.countP (·.task.holdsSlot) = 1 := by decide +kernel
  exact Nat.succ.inj slots

end BananaChat.Runner

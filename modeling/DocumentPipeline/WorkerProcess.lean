import DocumentPipeline.Startup
import DocumentPipeline.Draining

/-! A worker process: `main`, the tasks of its group and the stop event. `main`
waits while the tasks run, and goes on once each of them has returned, raised or
been cancelled. A signal can arrive at any time, also before the tasks exist. -/

namespace DocumentPipeline
open EffectProgram Transition

def taskGroup : List Loop := [.consumer, .recovery, .scheduler]

namespace Worker

def raised (w : Worker) (loop : Loop) : List Exn :=
  match w.task loop with
  | .raise error => [error]
  | _ => []

def ended (w : Worker) (loop : Loop) : Bool :=
  match w.task loop with
  | .ret .returned => true
  | .raise _ => true
  | _ => w.cancelled loop

/-- How `async with asyncio.TaskGroup()` is left. -/
def outcome? (w : Worker) : Option (Except StartupError Unit) :=
  if taskGroup.all w.ended then
    some (match taskGroup.flatMap w.raised with
      | [] => .ok ()
      | errors => .error (.group errors))
  else none

end Worker

structure WorkerProcess where
  main : ProcessProg Int
  shutdown : Bool := false
  worker : Option Worker := none
  log : ProcessLog := []
  seen : Loop → LoopLog := fun _ => []

inductive ProcessLabel
  | signal
  | answer (reply : Except StartupError Unit)
  | spawn
  | task (loop : Loop) (reply : (o : LoopOp) → Except Exn o.Val)
  | join

namespace WorkerProcess

section Steps
variable (env : Env) (sweeps : SweepSettings) (consumerName : String) (passes : Nat)

def step (p : WorkerProcess) : ProcessLabel → Option WorkerProcess
  | .signal => some { p with
      shutdown := true
      worker := p.worker.map fun w => { w with shutdown := true } }
  | .answer reply => match p.main with
    | .call o next =>
      if o ≠ .runTasks ∧ Startup.credible o reply = true then
        some { p with main := next reply, log := p.log ++ [⟨o, reply⟩] }
      else none
    | _ => none
  | .spawn => match p.main, p.worker with
    | .call .runTasks _, none => some { p with
        worker := some { Worker.start env sweeps consumerName passes with shutdown := p.shutdown } }
    | _, _ => none
  | .task loop reply => match p.worker with
    | none => none
    | some w => match w.task loop with
      | .call o _ => (w.step (.answer loop reply)).map fun w' => { p with
          worker := some w'
          seen := Function.update p.seen loop (p.seen loop ++ [⟨o, w.replyTo reply o⟩]) }
      | _ => none
  | .join => match p.main, p.worker.bind Worker.outcome? with
    | .call .runTasks next, some outcome =>
      some { p with main := next outcome, log := p.log ++ [⟨.runTasks, outcome⟩] }
    | _, _ => none

def start (settings : ProcessSettings) : WorkerProcess where
  main := Startup.main settings

end Steps
end WorkerProcess

/-- The states of a worker process, whatever its calls return and whenever it is
told to stop. -/
abbrev ProcessReached (env : Env) (sweeps : SweepSettings) (settings : ProcessSettings)
    (consumerName : String) (passes : Nat) : WorkerProcess → Prop :=
  Reach (WorkerProcess.step env sweeps consumerName passes) (WorkerProcess.start settings)
    fun _ _ _ => True

namespace Worker
variable {w w' : Worker} {loop : Loop} {reply : (o : LoopOp) → Except Exn o.Val}

theorem ended_of_outcome {outcome : Except StartupError Unit} (h : w.outcome? = some outcome)
    (loop : Loop) : w.ended loop = true := by
  have all : taskGroup.all w.ended = true := by
    by_contra running
    rw [outcome?, if_neg running] at h
    cases h
  exact List.all_eq_true.mp all loop (by cases loop <;> decide)

theorem ended_stays (ended : w.ended loop = true) : w.step (.answer loop reply) = none := by
  simp only [Worker.ended] at ended
  simp only [step]
  split
  · rename_i o next waits
    rw [waits] at ended
    simp only at ended
    rw [ended]
    rfl
  · rfl

/-- The group is left without an error when no task has raised, and every task
has then returned. -/
theorem returned_of_outcome (supervised : w.Supervised) (h : w.outcome? = some (.ok ()))
    (loop : Loop) : w.task loop = .ret .returned := by
  have silent : ∀ other, w.raised other = [] := by
    have all : taskGroup.all w.ended = true := by
      by_contra running
      rw [outcome?, if_neg running] at h
      cases h
    rw [outcome?, if_pos all, Option.some.injEq] at h
    split at h
    · rename_i none_
      intro other
      exact List.flatMap_eq_nil_iff.mp none_ other (by cases other <;> decide)
    · cases h
  have unraised : ∀ other error, w.task other ≠ .raise error := fun other error raises => by
    have raised := silent other
    rw [Worker.raised, raises] at raised
    cases raised
  have ended := ended_of_outcome h loop
  have uncancelled : w.cancelled loop = false := by
    by_contra cancelled
    obtain ⟨other, error, raises⟩ := supervised.cancels loop (by simpa using cancelled)
    exact unraised other error raises
  simp only [Worker.ended] at ended
  split at ended
  · assumption
  · rename_i error raises
    exact absurd raises (unraised loop error)
  · rw [uncancelled] at ended
    cases ended

theorem raised_of_outcome {errors : List Exn} (h : w.outcome? = some (.error (.group errors))) :
    errors = taskGroup.flatMap w.raised ∧ ∃ loop error, w.task loop = .raise error := by
  simp only [outcome?] at h
  split at h
  · split at h
    · cases h
    · rename_i other
      cases h
      refine ⟨rfl, ?_⟩
      obtain ⟨error, among⟩ := List.exists_mem_of_ne_nil _ other
      obtain ⟨loop, -, raised⟩ := List.mem_flatMap.mp among
      refine ⟨loop, error, ?_⟩
      simp only [Worker.raised] at raised
      split at raised
      · rename_i error' raises
        rw [List.mem_singleton.mp raised]
        exact raises
      · cases raised
  · cases h

theorem outcome_credible {outcome : Except StartupError Unit} (h : w.outcome? = some outcome) :
    Startup.credible .runTasks outcome = true := by
  simp only [outcome?] at h
  split at h
  · split at h <;> cases h <;> rfl
  · cases h

end Worker

theorem WorkerReached.signalled {env : Env} {sweeps : SweepSettings} {consumerName : String}
    {passes : Nat} {w : Worker} (h : WorkerReached env sweeps consumerName passes w) :
    WorkerReached env sweeps consumerName passes { w with shutdown := true } := by
  have stepped : w.step .signal = some { w with shutdown := true } := rfl
  exact Reach.step h stepped trivial

theorem WorkerReached.begun (env : Env) (sweeps : SweepSettings) (consumerName : String) (passes : Nat)
    (shutdown : Bool) : WorkerReached env sweeps consumerName passes
      { Worker.start env sweeps consumerName passes with shutdown } := by
  cases shutdown with
  | false => exact .start
  | true => exact .signalled .start

/-- What `main`, the tasks and the logs have to do with each other. -/
structure WorkerProcess.Recorded (env : Env) (sweeps : SweepSettings) (settings : ProcessSettings)
    (consumerName : String) (passes : Nat) (p : WorkerProcess) : Prop where
  main : Startup.logs p.main fun r rest => Startup.Exited settings r (p.log ++ rest)
  unseen : p.worker = none → ∀ loop, p.seen loop = []
  reached : ∀ w, p.worker = some w → WorkerReached env sweeps consumerName passes w
  stop : ∀ w, p.worker = some w → w.shutdown = p.shutdown
  tasks : ∀ w, p.worker = some w → ∀ loop, WorkerLoops.logged (w.task loop) fun r rest =>
    r.isOk = true → Drained (p.seen loop ++ rest)
  spawned : ∀ w, p.worker = some w → (∃ next, p.main = .call .runTasks next) ∨
    ∃ outcome, ⟨.runTasks, outcome⟩ ∈ p.log
  joined : ∀ outcome, ⟨.runTasks, outcome⟩ ∈ p.log →
    ∃ w, p.worker = some w ∧ w.outcome? = some outcome

namespace WorkerProcess.Recorded
variable {env : Env} {sweeps : SweepSettings} {settings : ProcessSettings} {consumerName : String}
  {passes : Nat} {p p' : WorkerProcess}

theorem start : Recorded env sweeps settings consumerName passes (start settings) where
  main := Startup.main_logs settings
  unseen _ _ := rfl
  reached _ none_ := by cases none_
  stop _ none_ := by cases none_
  tasks _ none_ := by cases none_
  spawned _ none_ := by cases none_
  joined _ absurd := (List.not_mem_nil absurd).elim

theorem step {label : ProcessLabel} (h : Recorded env sweeps settings consumerName passes p)
    (stepped : p.step env sweeps consumerName passes label = some p') :
    Recorded env sweeps settings consumerName passes p' := by
  cases label with
  | signal =>
    cases stepped
    refine ⟨h.main, fun none_ => h.unseen (Option.map_eq_none_iff.mp none_), fun w found => ?_,
      fun w found => ?_, fun w found => ?_, fun w found => ?_, fun outcome among => ?_⟩
    · obtain ⟨before, was, rfl⟩ := Option.map_eq_some_iff.mp found
      exact WorkerReached.signalled (h.reached before was)
    · obtain ⟨before, was, rfl⟩ := Option.map_eq_some_iff.mp found
      rfl
    · obtain ⟨before, was, rfl⟩ := Option.map_eq_some_iff.mp found
      exact h.tasks before was
    · obtain ⟨before, was, rfl⟩ := Option.map_eq_some_iff.mp found
      exact h.spawned before was
    · obtain ⟨w, was, left⟩ := h.joined outcome among
      exact ⟨_, Option.map_eq_some_iff.mpr ⟨w, was, rfl⟩, left⟩
  | answer reply =>
    simp only [WorkerProcess.step] at stepped
    split at stepped
    · rename_i o next waits
      split at stepped
      · rename_i fits
        cases stepped
        have main := h.main
        rw [waits] at main
        refine ⟨?_, h.unseen, h.reached, h.stop, h.tasks, fun w found => ?_, fun outcome among => ?_⟩
        · refine emits_mono _ (main reply fits.2) fun r rest exited => ?_
          rwa [List.append_assoc]
        · obtain ⟨next', waits'⟩ | ⟨outcome, among⟩ := h.spawned w found
          · cases waits.symm.trans waits'
            exact absurd rfl fits.1
          · exact .inr ⟨outcome, List.mem_append_left _ among⟩
        · obtain earlier | last := List.mem_append.mp among
          · exact h.joined outcome earlier
          · cases List.mem_singleton.mp last
            exact absurd rfl fits.1
      · cases stepped
    · cases stepped
  | spawn =>
    simp only [WorkerProcess.step] at stepped
    split at stepped
    · rename_i next waits unspawned
      cases stepped
      refine ⟨h.main, fun none_ => (by cases none_), fun w found => ?_, fun w found => ?_,
        fun w found loop => ?_, fun w found => .inl ⟨_, waits⟩, fun outcome among => ?_⟩
      · cases found
        exact WorkerReached.begun env sweeps consumerName passes p.shutdown
      · cases found
        rfl
      · cases found
        rw [h.unseen unspawned loop]
        exact WorkerLoops.drains_task env sweeps consumerName passes loop
      · obtain ⟨w, found, -⟩ := h.joined outcome among
        cases unspawned.symm.trans found
    · cases stepped
  | task loop reply =>
    simp only [WorkerProcess.step] at stepped
    split at stepped
    · cases stepped
    · rename_i w found
      split at stepped
      · rename_i o next waits
        obtain ⟨w', moved, rfl⟩ := Option.map_eq_some_iff.mp stepped
        obtain ⟨o', next', waits', fits, task, -, shutdown, -⟩ := Worker.step_answer moved
        cases waits.symm.trans waits'
        have reached := (h.reached w found).step moved trivial
        refine ⟨h.main, fun none_ => (by cases none_), fun _ same => ?_, fun _ same => ?_,
          fun _ same other => ?_, fun _ _ => h.spawned w found, fun outcome among => ?_⟩
        · cases same
          exact reached
        · cases same
          exact shutdown.trans (h.stop w found)
        · cases same
          rw [task]
          have tasks := h.tasks w found other
          by_cases own : other = loop
          · subst own
            simp only [Function.update_self]
            rw [waits] at tasks
            refine emits_mono _ (tasks _ fits) fun r rest drained ok => ?_
            rw [List.append_assoc]
            exact drained ok
          · simp only [Function.update_of_ne own]
            exact tasks
        · obtain ⟨w'', found', left⟩ := h.joined outcome among
          cases found.symm.trans found'
          cases moved.symm.trans (Worker.ended_stays (Worker.ended_of_outcome left loop))
      · cases stepped
  | join =>
    simp only [WorkerProcess.step] at stepped
    split at stepped
    · rename_i next outcome waits left
      cases stepped
      obtain ⟨w, found, left⟩ := Option.bind_eq_some_iff.mp left
      have main := h.main
      rw [waits] at main
      have likely : Startup.credible .runTasks outcome = true := Worker.outcome_credible left
      refine ⟨?_, h.unseen, h.reached, h.stop, h.tasks, fun w' _ => .inr ⟨outcome, ?_⟩,
        fun other among => ?_⟩
      · refine emits_mono _ (main outcome likely) fun r rest exited => ?_
        rwa [List.append_assoc]
      · exact List.mem_append_right _ (List.mem_singleton_self _)
      · obtain earlier | last := List.mem_append.mp among
        · exact h.joined other earlier
        · cases List.mem_singleton.mp last
          exact ⟨w, found, left⟩
    · cases stepped

end WorkerProcess.Recorded

section Exits
variable {env : Env} {sweeps : SweepSettings} {settings : ProcessSettings} {consumerName : String}
  {passes : Nat} {p : WorkerProcess}

theorem ProcessReached.recorded (h : ProcessReached env sweeps settings consumerName passes p) :
    p.Recorded env sweeps settings consumerName passes :=
  Reach.invariant .start (fun _ _ _ _ recorded stepped _ => recorded.step stepped) h

theorem WorkerReached.supervised {w : Worker} (h : WorkerReached env sweeps consumerName passes w) :
    w.Supervised :=
  Reach.invariant Worker.Supervised.start
    (fun _ _ _ _ supervised stepped _ => supervised.step stepped) h

/-- Every exit of a worker. -/
theorem worker_exits (h : ProcessReached env sweeps settings consumerName passes p)
    {r : Except StartupError Int} (exited : p.main.outcome? = some r) :
    Startup.Exited settings r p.log ∧
    (r = .ok 0 → p.shutdown = true ∧ ∃ w, p.worker = some w ∧
      ∀ loop, w.task loop = .ret .returned) ∧
    (∀ errors, r = .error (.group errors) → ∃ w, p.worker = some w ∧
      (∃ loop, (w.ledger loop).ackFailed = true) ∧ errors = taskGroup.flatMap w.raised) ∧
    (r = .ok 1 ∨ (∃ error, r = .error error ∧ error.isGroup = false) → p.worker = none) := by
  have recorded := h.recorded
  have main := recorded.main
  have ended : p.log = p.log ++ [] := (List.append_nil _).symm
  have exits : Startup.Exited settings r p.log := by
    rw [ended]
    cases isMain : p.main with
    | ret code =>
      rw [isMain] at main exited
      cases exited
      exact main
    | raise error =>
      rw [isMain] at main exited
      cases exited
      exact main
    | call o next =>
      rw [isMain] at exited
      cases exited
  have gone : ∀ w, p.worker = some w → ∃ outcome, ⟨.runTasks, outcome⟩ ∈ p.log := fun w found => by
    obtain ⟨next, waits⟩ | ran := recorded.spawned w found
    · rw [waits] at exited
      cases exited
    · exact ran
  refine ⟨exits, fun zero => ?_, fun errors group => ?_, fun early => ?_⟩
  · obtain ⟨w, found, left⟩ := recorded.joined _ (exits.ran.1 zero)
    have supervised := (recorded.reached w found).supervised
    have returned := Worker.returned_of_outcome supervised left
    refine ⟨?_, w, found, returned⟩
    have stopped := supervised.tasks .consumer
    rw [returned .consumer] at stopped
    rw [← recorded.stop w found]
    exact supervised.stop .consumer (stopped.2 rfl)
  · obtain ⟨w, found, left⟩ := recorded.joined _ (exits.ran.2 errors group)
    obtain ⟨same, loop, error, raises⟩ := Worker.raised_of_outcome left
    have supervised := (recorded.reached w found).supervised
    exact ⟨w, found, ⟨loop, (supervised.raised_iff loop).mp ⟨error, raises⟩⟩, same⟩
  · cases found : p.worker with
    | none => rfl
    | some w =>
      obtain ⟨outcome, among⟩ := gone w found
      exact absurd among (exits.idle early outcome)

/-- What a loop has left behind when it has returned, whether or not the others
still run. -/
theorem returned_drained (h : ProcessReached env sweeps settings consumerName passes p) {w : Worker}
    {loop : Loop} (found : p.worker = some w) (returned : w.task loop = .ret .returned) :
    p.shutdown = true ∧ Drained (p.seen loop) := by
  have recorded := h.recorded
  have supervised := (recorded.reached w found).supervised
  have tasks := recorded.tasks w found loop
  have stopped := supervised.tasks loop
  rw [returned] at tasks stopped
  refine ⟨?_, List.append_nil (p.seen loop) ▸ tasks rfl⟩
  rw [← recorded.stop w found]
  exact supervised.stop loop (stopped.2 rfl)

end Exits

section Sample

def sampleSettings : ProcessSettings where
  dbConnectMaxAttempts := 2
  llmProvider := .fake

def sampleReplies : (o : LoopOp) → Except Exn o.Val
  | .shutdownIsSet => .ok false
  | .sleepOrStop _ => .ok ()
  | .process _ => .ok .completed
  | .command (.redis (.xreadgroup _ _)) => .ok [(0, sampleDelivery)]
  | .command (.redis (.xack _)) => .ok ()
  | .command _ => .error (.connection "Connection refused")

/-- The database answers late, the group exists, and the stop event is set while
the consumer handles its first event. -/
def stoppedRun : List ProcessLabel :=
  [.answer (.error (.os "Connection refused"))] ++ List.replicate 3 (.answer (.ok ())) ++
    [.answer (.error (.response "BUSYGROUP Consumer Group name already exists")),
      .answer (.ok ()), .spawn] ++
    List.replicate 3 (.task .consumer sampleReplies) ++ [.signal] ++
    List.replicate 2 (.task .consumer sampleReplies) ++
    [.task .recovery sampleReplies, .task .scheduler sampleReplies]

def exitedRun : List ProcessLabel :=
  stoppedRun ++ [.join, .answer (.error (.other "RuntimeError" ""))] ++
    List.replicate 2 (.answer (.ok ()))

theorem ProcessReached.exists_run (env : Env) (sweeps : SweepSettings) (settings : ProcessSettings)
    (consumerName : String) (passes : Nat) (accept : WorkerProcess → Bool) (labels : List ProcessLabel)
    (run : (runChecked (WorkerProcess.step env sweeps consumerName passes) (fun _ _ _ => true) labels
      (WorkerProcess.start settings)).any accept = true) :
    ∃ p, ProcessReached env sweeps settings consumerName passes p ∧ accept p = true :=
  Reach.exists_of_runChecked _ accept (fun _ _ _ _ => trivial) labels run

theorem worker_exits_stopped : ∃ p, ProcessReached sampleEnv {} sampleSettings "w" 2 p ∧
    p.main.outcome? = some (.ok 0) ∧ Startup.Exited sampleSettings (.ok 0) p.log ∧
      p.shutdown = true := by
  obtain ⟨p, reached, accepted⟩ := ProcessReached.exists_run sampleEnv {} sampleSettings "w" 2
    (fun p => p.main.outcome? = some (.ok 0)) exitedRun (by decide +kernel)
  have exited := of_decide_eq_true accepted
  obtain ⟨exits, stopped, -⟩ := worker_exits reached exited
  exact ⟨p, reached, exited, exits, (stopped rfl).1⟩

def Worker.hasReturned (w : Worker) (loop : Loop) : Bool :=
  match w.task loop with
  | .ret .returned => true
  | _ => false

theorem Worker.task_of_hasReturned {w : Worker} {loop : Loop} (h : w.hasReturned loop = true) :
    w.task loop = .ret .returned := by
  simp only [Worker.hasReturned] at h
  split at h
  · assumption
  · cases h

theorem returned_drained_consumer : ∃ p, ProcessReached sampleEnv {} sampleSettings "w" 2 p ∧
    (p.seen .consumer).handed.length = 1 ∧ Drained (p.seen .consumer) := by
  obtain ⟨p, reached, accepted⟩ := ProcessReached.exists_run sampleEnv {} sampleSettings "w" 2
    (fun p => p.worker.any (fun w => w.hasReturned .consumer) &&
      (p.seen .consumer).handed.length = 1) stoppedRun (by decide +kernel)
  simp only [Bool.and_eq_true, decide_eq_true_eq] at accepted
  cases found : p.worker with
  | none => simp [found] at accepted
  | some w =>
    have returned : w.hasReturned .consumer = true := by simpa [found] using accepted.1
    have returned := Worker.task_of_hasReturned returned
    exact ⟨p, reached, accepted.2, (returned_drained reached found returned).2⟩

end Sample
end DocumentPipeline

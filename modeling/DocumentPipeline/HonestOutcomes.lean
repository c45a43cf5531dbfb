import DocumentPipeline.Events
import DocumentPipeline.DuplicateResults

/-! What the outcome of a delivery says about the stores, under every choice of
faults. An attempt runs against its own calls only as far as its job goes: other
actors do as they like elsewhere. What it finds committed for the job is a
matter of its stage, and an error can come after a commit as well as before. -/

namespace DocumentPipeline
open EffectProgram JobService

structure Holding where
  row : Option ProcessingJob
  result : Option ExtractionResult

def Database.holding (db : Database) (jobId : Nat) : Holding := ⟨db.jobs jobId, db.results jobId⟩

/-- How a delivery begins: what is committed for its job, and the time of the
claims that would be stale by now. -/
structure Outset where
  holding : Holding
  cutoff : Time

def World.outset (env : Env) (proc : Nat) (w : World) (jobId : Nat) : Outset :=
  ⟨w.db.holding jobId, w.clock env proc - seconds env.settings.staleProcessingSeconds⟩

def Redis.holds (r : Redis) (event : DocumentProcessingEvent) : Prop :=
  ∃ due, (.event event, due) ∈ r.retry

structure Redis.Promises (r : Redis) (item : DeliveredEvent) (event : DocumentProcessingEvent) :
    Prop where
  follows : ∃ eventId, event = item.event.nextAttempt eventId
  holds : r.holds event

namespace Holding

/-- There is a result exactly if the job is completed. -/
def Atomic (h : Holding) : Prop :=
  h.result.isSome = true ↔ ∃ row, h.row = some row ∧ row.status = .completed

structure Completed (h : Holding) : Prop where
  row : ∃ row, h.row = some row ∧ row.status = .completed
  result : ∃ result, h.result = some result

structure Taken (start : Holding) (row : ProcessingJob) (h : Holding) : Prop where
  before : ∃ before, start.row = some before ∧ row.retryCount = before.retryCount
  status : row.status = .processing
  row : h.row = some row
  result : h.result = none

def Refused (h : Holding) (cutoff : Time) : Prop :=
  ∀ row, h.row = some row → claimMatches row cutoff = false

theorem Refused.earlier {h : Holding} {cutoff cutoff' : Time} (refused : h.Refused cutoff')
    (le : cutoff ≤ cutoff') : h.Refused cutoff := by
  intro row found
  have unmatched := refused row found
  simp only [claimMatches, Bool.or_eq_false_iff, Bool.and_eq_false_iff] at unmatched ⊢
  refine ⟨unmatched.1, unmatched.2.imp id fun live => ?_⟩
  cases started : row.startedAt with
  | none => rfl
  | some startedAt =>
    simp only [started, decide_eq_false_iff_not, not_lt] at live ⊢
    exact le.trans live

theorem Completed.atomic {h : Holding} (completed : h.Completed) : h.Atomic := by
  obtain ⟨row, ⟨result, is⟩⟩ := completed
  exact ⟨fun _ => row, fun _ => by rw [is]; rfl⟩

theorem atomic_of_open {h : Holding} {row : ProcessingJob} (bare : h.result = none)
    (found : h.row = some row) (open_ : row.status ≠ .completed) : h.Atomic := by
  constructor
  · intro there
    rw [bare] at there
    cases there
  · rintro ⟨other, same, completed⟩
    cases found.symm.trans same
    exact absurd completed open_

theorem Taken.atomic {start h : Holding} {row : ProcessingJob} (taken : Taken start row h) :
    h.Atomic :=
  atomic_of_open taken.result taken.row (by rw [taken.status]; exact fun same => (by cases same))

end Holding

/-- Other actors leave what is committed for the job, and its scheduled events. -/
structure LeavesAlone (jobId : Nat) (w w' : World) : Prop where
  holding : w'.db.holding jobId = w.db.holding jobId
  retries : ∀ event, event.jobId = jobId → w.redis.holds event → w'.redis.holds event
  keyed : w.db.Keyed → w'.db.Keyed
  clock : w.now ≤ w'.now

def among (env : Env) (ctx : Context) (others : World → World → Prop) :
    Protocol Op Op.Val Exn (World × Local) where
  permits _ _ := True
  next s o answer s' := ∃ found choice reply, others s.1 found ∧
    Op.execute env ctx found s.2 o choice = some reply ∧ answer = reply.answer ∧
      s' = (reply.world, reply.loc)

/-- What an attempt has left when `process` has settled it. -/
def Durable.Left (item : DeliveredEvent) (start : Outset) (h : Holding) (r : Redis) : Durable → Prop
  | .skipped => h = start.holding ∧ start.holding.Refused start.cutoff
  | .completed _ => h.Completed
  | .marked _ none => h.result = none ∧ ∃ row message, h.row = some row ∧ row.status = .failed ∧
    row.errorMessage = some message
  | .marked _ (some event) => h.result = none ∧ (∃ before row, start.holding.row = some before ∧
    h.row = some row ∧ row.status = .retrying ∧ row.retryCount = before.retryCount + 1) ∧
      r.Promises item event

/-- What an attempt finds committed, by its stage. -/
def AttemptStage.Finds (env : Env) (item : DeliveredEvent) (start : Outset) (h : Holding)
    (r : Redis) : AttemptStage → Prop
  | .start | .opened | .matched _ => h = start.holding
  | .clocked now => h = start.holding ∧
    start.cutoff ≤ now - seconds env.settings.staleProcessingSeconds
  | .rejected => h = start.holding ∧ start.holding.Refused start.cutoff
  | .owned => ∃ row, Holding.Taken start.holding row h
  | .loaded row | .running row | .completing row _ | .persisting row _ =>
    Holding.Taken start.holding row h
  | .broken | .expired => (∃ row, Holding.Taken start.holding row h) ∨ h.Completed
  | .reloaded row | .drawn row _ | .unscheduled row =>
    Holding.Taken start.holding row h ∨ row.status = .completed
  | .scheduled row event =>
    (Holding.Taken start.holding row h ∨ row.status = .completed) ∧ r.Promises item event
  | .marking row _ none => Holding.Taken start.holding row h
  | .marking row _ (some event) => Holding.Taken start.holding row h ∧ r.Promises item event
  | .durable how | .acking how | .acked how => how.Left item start h r
  | .failed | .dropped => True

section Steps
variable {env : Env} {ctx : Context} {w : World} {loc : Local} {choice : Choice} {name : String}
  {item : DeliveredEvent} {stage : AttemptStage} {start : Outset} {h : Holding} {r r' : Redis}
  {now : Time}

theorem Redis.Promises.later {event : DocumentProcessingEvent} (promised : r.Promises item event)
    (kept : ∀ event, event.jobId = item.event.jobId → r.holds event → r'.holds event) :
    r'.Promises item event := by
  obtain ⟨⟨eventId, rfl⟩, held⟩ := promised
  exact ⟨⟨eventId, rfl⟩, kept _ rfl held⟩

theorem Durable.Left.later {how : Durable} (left : how.Left item start h r)
    (kept : ∀ event, event.jobId = item.event.jobId → r.holds event → r'.holds event) :
    how.Left item start h r' := by
  cases how with
  | marked current event =>
    cases event with
    | none => exact left
    | some event => exact ⟨left.1, left.2.1, left.2.2.later kept⟩
  | _ => exact left

theorem AttemptStage.Finds.later (finds : stage.Finds env item start h r)
    (kept : ∀ event, event.jobId = item.event.jobId → r.holds event → r'.holds event) :
    stage.Finds env item start h r' := by
  cases stage with
  | scheduled row event => exact ⟨finds.1, finds.2.later kept⟩
  | marking row current event =>
    cases event with
    | none => exact finds
    | some event => exact ⟨finds.1, finds.2.later kept⟩
  | durable how => exact Durable.Left.later finds kept
  | acking how => exact Durable.Left.later finds kept
  | acked how => exact Durable.Left.later finds kept
  | _ => exact finds

theorem execute_holding {o : Op} {reply : Reply o} (ran : o.execute env ctx w loc choice = some reply)
    (notCommit : o ≠ .db .commit) (jobId : Nat) :
    reply.world.db.holding jobId = w.db.holding jobId := by
  have same : reply.world.db.jobs = w.db.jobs ∧ reply.world.db.results = w.db.results := by
    cases o with
    | runtime o =>
      obtain ⟨done, did, rfl⟩ := execute_runtime ran
      exact ⟨congrArg Database.jobs (runRuntime_stores did).1,
        congrArg Database.results (runRuntime_stores did).1⟩
    | redis o =>
      obtain ⟨-, rfl⟩ | ⟨error, -, -, rfl⟩ | ⟨error, -, -, rfl⟩ := execute_redis ran
      all_goals exact ⟨congrArg Database.jobs (noteRedis_stores w.redis o _).1,
        congrArg Database.results (noteRedis_stores w.redis o _).1⟩
    | db o =>
      have other : o ≠ .commit := fun is => notCommit (congrArg Op.db is)
      obtain ⟨-, done, did, rfl⟩ | ⟨error, -, -, -, rfl⟩ := execute_db ran other
      · exact ⟨(Database.run_jobs did other).1, (Database.run_jobs did other).2.2⟩
      · exact ⟨rfl, rfl⟩
  rw [Database.holding, same.1, same.2]
  rfl

theorem attempt_keeps {o : Op} {reply : Reply o} (permitted : stage.permits env name item o)
    (ran : o.execute env ctx w loc choice = some reply) (event : DocumentProcessingEvent)
    (_ : event.jobId = item.event.jobId) (held : w.redis.holds event) :
    reply.world.redis.holds event := by
  rw [execute_redisAfter ran]
  obtain kept | ⟨clock, limit, rfl, -⟩ := @Redis.redisAfter_members w o choice _ held
  · exact kept
  · obtain ⟨_, _, _, -, absurd⟩ | ⟨_, -, absurd⟩ := AttemptStage.permits_redis permitted <;> cases absurd

theorem open_of_allowed {row : ProcessingJob} {target : JobStatus}
    (allowed : isTransitionAllowed row.status target = true) : row.status ≠ .completed := by
  intro completed
  rw [completed] at allowed
  cases target <;> cases allowed

theorem claim_refused {jobId : Nat} {consumerName : String} {started cutoff : Time}
    {reply : Reply (.db (.executeClaim jobId consumerName started cutoff))}
    (ran : Op.execute env ctx w loc (.db (.executeClaim jobId consumerName started cutoff)) choice =
      some reply) (refused : reply.answer = .ok none) {row : ProcessingJob}
    (found : w.db.jobs jobId = some row) : claimMatches row cutoff = false := by
  obtain ⟨-, done, did, rfl⟩ | ⟨error, -, -, -, rfl⟩ := execute_db ran fun same => (by cases same)
  · simp only [Database.run, found] at did
    split at did
    · split at did <;> cases did
      cases refused
    · rename_i unmatched
      exact Bool.eq_false_of_not_eq_true unmatched
  · cases refused

theorem utcnow_answer {reply : Reply (.runtime .utcnow)}
    (ran : Op.execute env ctx w loc (.runtime .utcnow) choice = some reply) :
    reply.answer = .ok (w.clock env ctx.proc) := by
  obtain ⟨done, did, rfl⟩ := execute_runtime ran
  cases choice <;> cases did
  rfl

namespace AttemptStage.Finds

theorem runtime {o : RuntimeOp} {reply : Reply (.runtime o)}
    (permitted : stage.permits env name item (.runtime o))
    (ran : Op.execute env ctx w loc (.runtime o) choice = some reply)
    (begun : start.cutoff ≤ w.clock env ctx.proc - seconds env.settings.staleProcessingSeconds)
    (finds : stage.Finds env item start h r) :
    (stage.next item (.runtime o) reply.answer).Finds env item start h r := by
  obtain ⟨rfl, rfl⟩ | ⟨row, rfl, rfl, -⟩ | ⟨row, rfl, rfl, -⟩ | ⟨-, same, -⟩ :=
    permits_runtime permitted
  · rw [utcnow_answer ran]
    exact ⟨finds, begun⟩
  · exact finds
  · rcases reply with ⟨_, _, _ | _⟩ <;> exact finds
  · rw [same]
    exact finds

theorem redis {o : RedisOp} {reply : Reply (.redis o)}
    (permitted : stage.permits env name item (.redis o))
    (ran : Op.execute env ctx w loc (.redis o) choice = some reply)
    (finds : stage.Finds env item start h reply.world.redis) :
    (stage.next item (.redis o) reply.answer).Finds env item start h reply.world.redis := by
  obtain ⟨row, eventId, score, rfl, rfl⟩ | ⟨how, rfl, rfl⟩ := permits_redis permitted
  · obtain ⟨-, rfl⟩ | ⟨error, -, -, rfl⟩ | ⟨error, -, -, rfl⟩ := execute_redis ran
    · exact ⟨finds, ⟨eventId, rfl⟩, score, Redis.zadd_mem w.now ..⟩
    · exact finds
    · exact finds
  · exact finds

theorem flush {row current : ProcessingJob} (flush : stage.flushes row current)
    (answer : Except Exn Unit) (finds : stage.Finds env item start h r) :
    (stage.next item (.db (.updateJob row current)) answer).Finds env item start h r := by
  cases stage <;> first | exact flush.elim | skip
  all_goals
    obtain ⟨rfl, allowed, -⟩ := flush
    cases answer
  case running.error => exact .inl ⟨_, finds⟩
  case running.ok => exact finds
  case loaded.ok => exact finds
  case reloaded.ok => exact finds.resolve_right (open_of_allowed allowed)
  case unscheduled.ok => exact finds.resolve_right (open_of_allowed allowed)
  case scheduled.ok => exact ⟨finds.1.resolve_right (open_of_allowed allowed), finds.2⟩
  all_goals trivial

theorem select {id : Nat} {reply : Reply (.db (.selectJob id))}
    (permitted : stage.permits env name item (.db (.selectJob id)))
    (ran : Op.execute env ctx w loc (.db (.selectJob id)) choice = some reply)
    (finds : stage.Finds env item start (w.db.holding item.event.jobId) r) :
    (stage.next item (.db (.selectJob id)) reply.answer).Finds env item start
      (w.db.holding item.event.jobId) r := by
  obtain ⟨known, rfl⟩ := permits_selectJob permitted
  rcases answer : reply.answer with error | _ | ⟨row, document⟩
  · obtain rfl | rfl := known <;> trivial
  · obtain rfl | rfl := known <;> trivial
  · have read := (execute_selectJob ran answer).1
    obtain rfl | rfl := known
    · obtain ⟨held, taken⟩ := finds
      cases taken.row.symm.trans read
      exact taken
    · obtain ⟨held, taken⟩ | completed := finds
      · cases taken.row.symm.trans read
        exact .inl taken
      · obtain ⟨other, found, status⟩ := completed.row
        cases found.symm.trans read
        exact .inr status

theorem rollback (permitted : stage.permits env name item (.db .rollback)) (answer : Except Exn Unit)
    (finds : stage.Finds env item start h r) :
    (stage.next item (.db .rollback) answer).Finds env item start h r := by
  obtain rfl | ⟨row, rfl⟩ | rfl | rfl := permits_rollback permitted
  · cases answer with
    | error error => trivial
    | ok _ => exact finds
  · cases answer <;> exact .inl ⟨_, finds⟩
  · cases answer <;> exact finds
  · cases answer <;> exact finds

/-- A call other than a commit leads to a stage that finds the same committed. -/
theorem quiet {o : Op} {reply : Reply o} (permitted : stage.permits env name item o)
    (ran : o.execute env ctx w loc choice = some reply) (notCommit : o ≠ .db .commit)
    (begun : start.cutoff ≤ w.clock env ctx.proc - seconds env.settings.staleProcessingSeconds)
    (finds : stage.Finds env item start (w.db.holding item.event.jobId) w.redis) :
    (stage.next item o reply.answer).Finds env item start (w.db.holding item.event.jobId)
      reply.world.redis := by
  have finds := finds.later (attempt_keeps permitted ran)
  cases o with
  | runtime o => exact finds.runtime permitted ran begun
  | redis o => exact finds.redis permitted ran
  | db o =>
    cases o with
    | commit => exact absurd rfl notCommit
    | openSession =>
      obtain rfl := permits_openSession permitted
      exact finds
    | closeSession =>
      obtain unsettled | ⟨how, rfl⟩ := permits_closeSession permitted
      · cases stage <;> first | exact trivial | cases unsettled
      · exact finds
    | executeClaim jobId consumer started cutoff =>
      obtain ⟨rfl, rfl, rfl, rfl⟩ := permits_executeClaim permitted
      obtain ⟨same, live⟩ := finds
      rcases answer : reply.answer with error | _ | _
      · trivial
      · refine ⟨same, Holding.Refused.earlier (fun row found => claim_refused ran answer ?_) live⟩
        exact (congrArg Holding.row same).trans found
      · exact same
    | selectJob id => exact finds.select permitted ran
    | updateJob row current => exact finds.flush (permits_updateJob permitted) reply.answer
    | insertResult result =>
      obtain ⟨row, current, rfl, -⟩ := permits_insertResult permitted
      rcases reply with ⟨_, _, _ | _⟩
      · exact .inl ⟨_, finds⟩
      · exact finds
    | rollback => exact finds.rollback permitted reply.answer
    | selectDocument _ => cases stage <;> exact permitted.elim
    | insertDocument _ _ => cases stage <;> exact permitted.elim
    | insertJob _ => cases stage <;> exact permitted.elim

end AttemptStage.Finds

theorem apply_holding {write : Write} (pending : loc.tx.write = some write)
    (owner : write.row.id = item.event.jobId) (t : Nat) :
    ((w.db.apply loc.tx).release t).holding item.event.jobId =
      ⟨some write.row, loc.tx.result.elim (w.db.results item.event.jobId) fun result =>
        if result.jobId = item.event.jobId then some result else w.db.results item.event.jobId⟩ := by
  simp only [Database.holding, Database.release, Database.apply, pending, owner,
    Function.update_self, Holding.mk.injEq, true_and]
  cases loc.tx.result with
  | none => rfl
  | some result =>
    simp only [Option.elim_some, Function.update_apply]
    by_cases own : result.jobId = item.event.jobId
    · rw [if_pos own, if_pos own.symm]
    · rw [if_neg own, if_neg (Ne.symm own)]

theorem commit_applied {reply : Reply (.db .commit)}
    (ran : Op.execute env ctx w loc (.db .commit) choice = some reply) :
    reply.world.db = (w.db.apply loc.tx).release ctx.thread ∨
      reply.world.db = w.db.release ctx.thread ∧ ∃ error, reply.answer = .error error := by
  obtain ⟨-, rfl⟩ | ⟨error, -, -, rfl⟩ | ⟨error, -, -, rfl⟩ := execute_commit ran
  · exact .inl rfl
  · exact .inr ⟨rfl, error, rfl⟩
  · exact .inl rfl

theorem claim_taken {base row : ProcessingJob} (writes : (AttemptStage.matched now).Writes env name item
      (some (.claim base row))) (found : w.db.jobs item.event.jobId = some base)
    (atomic : (w.db.holding item.event.jobId).Atomic) :
    Holding.Taken (w.db.holding item.event.jobId) row
      ⟨some row, w.db.results item.event.jobId⟩ := by
  obtain ⟨keyed, rfl, matched⟩ := writes
  refine ⟨⟨base, found, rfl⟩, rfl, rfl, Option.not_isSome_iff_eq_none.mp fun there => ?_⟩
  obtain ⟨row, isRow, completed⟩ := atomic.mp there
  cases isRow.symm.trans found
  obtain claimable | processing := claimMatches_status matched
  · rw [completed] at claimable
    revert claimable
    decide
  · cases completed.symm.trans processing

theorem result_kept (facts : AttemptLocal env name item stage loc)
    (unstored : ∀ row current, stage ≠ .persisting row current) : loc.tx.result = none := by
  have results := facts.result
  cases result : loc.tx.result with
  | none => rfl
  | some stored =>
    rw [result] at results
    cases stage <;> first | exact results.elim | exact absurd rfl (unstored _ _)

theorem persisted_completed {held current : ProcessingJob}
    (sound : (AttemptStage.persisting held current).Sound item) (base : ProcessingJob)
    (result : ExtractionResult) :
    Holding.Completed ⟨some (held.flushed current base), some result⟩ := by
  obtain ⟨-, allowed, now, rfl⟩ := sound
  exact ⟨⟨_, rfl, ProcessingJob.flushed_status (allowed_ne allowed) base⟩, result, rfl⟩

theorem marked_left {held current base : ProcessingJob} {event : Option DocumentProcessingEvent}
    (sound : (AttemptStage.marking held current event).Sound item) (replaced : h.row = some base)
    (finds : (AttemptStage.marking held current event).Finds env item start h r) :
    Holding.Atomic ⟨some (held.flushed current base), h.result⟩ ∧
      (Durable.marked current event).Left item start ⟨some (held.flushed current base), h.result⟩
        r := by
  cases event with
  | none =>
    obtain ⟨-, -, message, now, rfl⟩ := sound
    have taken : Holding.Taken start.holding held h := finds
    cases taken.row.symm.trans replaced
    have flushed : held.flushed (failedRow held message now) held = failedRow held message now :=
      ProcessingJob.flushed_self rfl rfl rfl rfl
    have failed : (failedRow held message now).status = .failed := rfl
    rw [flushed]
    refine ⟨Holding.atomic_of_open taken.result rfl ?_, taken.result, _, _, rfl, failed, rfl⟩
    rw [failed]
    exact fun same => (by cases same)
  | some event =>
    obtain ⟨-, -, -, ⟨message, rfl⟩, -⟩ := sound
    obtain ⟨taken, promised⟩ := finds
    cases taken.row.symm.trans replaced
    obtain ⟨before, was, count⟩ := taken.before
    have flushed : held.flushed (retryingRow held message) held = retryingRow held message :=
      ProcessingJob.flushed_self rfl rfl rfl rfl
    have retrying : (retryingRow held message).status = .retrying := rfl
    have counted : (retryingRow held message).retryCount = before.retryCount + 1 :=
      congrArg (· + 1) count
    rw [flushed]
    refine ⟨Holding.atomic_of_open taken.result rfl ?_, taken.result,
      ⟨before, _, was, rfl, retrying, counted⟩, promised⟩
    rw [retrying]
    exact fun same => (by cases same)

/-- What an applied commit leaves is what the next stage finds, whatever the
client has seen of it. -/
theorem commit_finds (facts : AttemptLocal env name item stage loc)
    (based : ∀ write, loc.tx.write = some write → write.Based w.db.jobs)
    (permitted : stage.permits env name item (.db .commit))
    (atomic : (w.db.holding item.event.jobId).Atomic)
    (finds : stage.Finds env item start (w.db.holding item.event.jobId) r)
    (answer : Except Exn Unit) (t : Nat) :
    (((w.db.apply loc.tx).release t).holding item.event.jobId).Atomic ∧
      (stage.next item (.db .commit) answer).Finds env item start
        (((w.db.apply loc.tx).release t).holding item.event.jobId) r := by
  have writes := facts.write
  have sound := facts.sound
  have results := facts.result
  cases pending : loc.tx.write with
  | none =>
    rw [pending] at writes
    obtain ⟨now, rfl⟩ | ⟨held, current, rfl⟩ | ⟨held, current, event, rfl⟩ :=
      AttemptStage.permits_commit permitted <;> exact writes.elim
  | some write =>
    have owner := facts.writes_own pending
    have replaced := based write pending
    rw [apply_holding pending owner]
    rw [pending] at writes
    obtain ⟨now, rfl⟩ | ⟨held, current, rfl⟩ | ⟨held, current, event, rfl⟩ :=
      AttemptStage.permits_commit permitted
    · rw [result_kept facts fun _ _ same => (by cases same)]
      cases write with
      | claim base row =>
        have taken := claim_taken writes (owner ▸ replaced) atomic
        rw [show w.db.holding item.event.jobId = start.holding from finds] at taken
        refine ⟨taken.atomic, ?_⟩
        cases answer with
        | error error => trivial
        | ok _ => exact ⟨_, taken⟩
      | _ => exact writes.elim
    · cases write with
      | update seen base row =>
        obtain ⟨rfl, -, rfl⟩ := writes
        cases stored : loc.tx.result with
        | none =>
          rw [stored] at results
          exact results.elim
        | some result =>
          rw [stored] at results
          have completed := persisted_completed sound base result
          rw [Option.elim_some, if_pos (show result.jobId = item.event.jobId from results)]
          refine ⟨completed.atomic, ?_⟩
          cases answer with
          | error error => exact .inr completed
          | ok _ => exact completed
      | _ => exact writes.elim
    · rw [result_kept facts fun _ _ same => (by cases same)]
      cases write with
      | update seen base row =>
        obtain ⟨rfl, -, rfl⟩ := writes
        have found : (w.db.holding item.event.jobId).row = some base := owner ▸ replaced
        obtain ⟨kept, left⟩ := marked_left sound found finds
        refine ⟨kept, ?_⟩
        cases answer with
        | error error => trivial
        | ok _ => exact left
      | _ => exact writes.elim

structure Undisturbed (env : Env) (name : String) (item : DeliveredEvent) (proc : Nat)
    (start : Outset) (stage : AttemptStage) (s : World × Local) : Prop where
  facts : AttemptLocal env name item stage s.2
  keyed : s.1.db.Keyed
  based : ∀ write, s.2.tx.write = some write → write.Based s.1.db.jobs
  begun : start.cutoff ≤ s.1.clock env proc - seconds env.settings.staleProcessingSeconds
  atomic : (s.1.db.holding item.event.jobId).Atomic
  finds : stage.Finds env item start (s.1.db.holding item.event.jobId) s.1.redis

namespace Undisturbed

theorem meanwhile {found : World} {proc : Nat}
    (stands : Undisturbed env name item proc start stage (w, loc))
    (alone : LeavesAlone item.event.jobId w found) :
    Undisturbed env name item proc start stage (found, loc) where
  facts := stands.facts
  keyed := alone.keyed stands.keyed
  based write pending := by
    have same : found.db.jobs write.row.id = w.db.jobs write.row.id := by
      rw [stands.facts.writes_own pending]
      exact congrArg Holding.row alone.holding
    have based := stands.based write pending
    cases write <;> exact same.trans based
  begun :=
    stands.begun.trans (Int.sub_le_sub_right (Int.add_le_add_right alone.clock _) _)
  atomic := by
    rw [alone.holding]
    exact stands.atomic
  finds := by
    rw [alone.holding]
    exact stands.finds.later alone.retries

/-- A commit is applied or not, and a session that sees an error learns nothing. -/
theorem commit {reply : Reply (.db .commit)}
    (stands : Undisturbed env name item ctx.proc start stage (w, loc))
    (permitted : stage.permits env name item (.db .commit))
    (ran : Op.execute env ctx w loc (.db .commit) choice = some reply) :
    (reply.world.db.holding item.event.jobId).Atomic ∧
      (stage.next item (.db .commit) reply.answer).Finds env item start
        (reply.world.db.holding item.event.jobId) reply.world.redis := by
  have finds := stands.finds.later (attempt_keeps permitted ran)
  obtain applied | ⟨undone, error, failed⟩ := commit_applied ran
  · rw [applied]
    exact commit_finds stands.facts stands.based permitted stands.atomic finds reply.answer ctx.thread
  · rw [undone, failed]
    refine ⟨stands.atomic, ?_⟩
    obtain ⟨now, rfl⟩ | ⟨held, current, rfl⟩ | ⟨held, current, event, rfl⟩ :=
      AttemptStage.permits_commit permitted
    · trivial
    · exact .inl ⟨held, finds⟩
    · trivial

theorem step {o : Op} {reply : Reply o}
    (stands : Undisturbed env name item ctx.proc start stage (w, loc))
    (permitted : stage.permits env name item o) (ran : o.execute env ctx w loc choice = some reply) :
    Undisturbed env name item ctx.proc start (stage.next item o reply.answer)
      (reply.world, reply.loc) := by
  have both : (reply.world.db.holding item.event.jobId).Atomic ∧
      (stage.next item o reply.answer).Finds env item start
        (reply.world.db.holding item.event.jobId) reply.world.redis := by
    by_cases isCommit : o = .db .commit
    · subst isCommit
      exact stands.commit permitted ran
    · rw [execute_holding ran isCommit]
      exact ⟨stands.atomic, stands.finds.quiet permitted ran isCommit stands.begun⟩
  refine ⟨stands.facts.step stands.keyed permitted ran, execute_keyed stands.keyed ran,
    fun write => execute_rebased ran stands.keyed stands.based, ?_, both.1, both.2⟩
  have begun := stands.begun
  simp only [World.clock, execute_now ran] at begun ⊢
  exact begun

end Undisturbed
end Steps

/-- What the outcome of a delivery says of its job. -/
def ProcessingOutcome.Means (item : DeliveredEvent) (start : Outset) (h : Holding) (r : Redis) :
    ProcessingOutcome → Prop
  | .completed => h.Completed
  | .retryScheduled => (∃ before row, start.holding.row = some before ∧ h.row = some row ∧
    row.status = .retrying ∧ row.retryCount = before.retryCount + 1) ∧
      ∃ event, r.Promises item event
  | .failed | .deadLettered => ∃ row message, h.row = some row ∧ row.status = .failed ∧
    row.errorMessage = some message
  | .skipped => h = start.holding ∧ start.holding.Refused start.cutoff

theorem Durable.Left.means {item : DeliveredEvent} {start : Outset} {h : Holding} {r : Redis}
    {how : Durable} {outcome : ProcessingOutcome} (left : how.Left item start h r)
    (reported : how.reports outcome) : outcome.Means item start h r := by
  cases how with
  | skipped =>
    cases outcome <;> first | exact reported.elim | exact left
  | completed current =>
    cases outcome <;> first | exact reported.elim | exact left
  | marked current event =>
    cases event <;> cases outcome <;> first | exact reported.elim | skip
    · exact left.2
    · exact left.2
    · exact ⟨left.2.1, _, left.2.2⟩

/-- Whatever fails while a delivery is processed, its job has a result exactly
while it is completed, and a returned outcome is the truth. -/
theorem process_honest {env : Env} {ctx : Context} {name : String} {item : DeliveredEvent}
    {w : World} {p : Prog ProcessingOutcome} {s : World × Local} (keyed : w.db.Keyed)
    (atomic : (w.db.holding item.event.jobId).Atomic)
    (run : (Processor.process env name item).Run
      (among env ctx (LeavesAlone item.event.jobId)) (w, {}) p s) :
    (s.1.db.holding item.event.jobId).Atomic ∧ ∀ outcome, p = .ret outcome →
      outcome.Means item (w.outset env ctx.proc item.event.jobId)
        (s.1.db.holding item.event.jobId) s.1.redis := by
  have first : Undisturbed env name item ctx.proc (w.outset env ctx.proc item.event.jobId) .start
      (w, {}) :=
    ⟨AttemptLocal.start ⟨rfl, rfl, rfl⟩, keyed, fun _ pending => (by cases pending), le_rfl, atomic,
      rfl⟩
  obtain ⟨stage, follows, stands⟩ := run.staged (by
    rintro stage ⟨w', loc⟩ o answer _ stands permitted ⟨found, choice, reply, alone, ran, rfl, rfl⟩
    have met := stands.meanwhile alone
    exact ⟨execute_answers met.keyed ran, met.step permitted ran⟩)
    (process_follows env name item) first
  refine ⟨stands.atomic, ?_⟩
  rintro outcome rfl
  obtain ⟨how, rfl, reported⟩ := follows
  exact Durable.Left.means stands.finds reported

section Throttled

theorem LeavesAlone.rfl {jobId : Nat} {w : World} : LeavesAlone jobId w w where
  holding := Eq.refl _
  retries _ _ held := held
  keyed keyed := keyed
  clock := le_rfl

def throttled (s : World × Local) (o : Op) : Option ((World × Local) × Except Exn o.Val) :=
  let choice := match o with
    | .runtime (.extract ..) => .fails (.app { kind := .llmRateLimit, message := "rate limited" })
    | .runtime (.uniform low _) => .drawn low
    | _ => .ok
  (Op.execute sampleEnv ⟨0, 0, some staleDelivery⟩ s.1 s.2 o choice).map fun reply =>
    ((reply.world, reply.loc), reply.answer)

theorem throttled_next (s : World × Local) (o : Op) (s' : World × Local) (answer : Except Exn o.Val)
    (answered : throttled s o = some (s', answer)) :
    (among sampleEnv ⟨0, 0, some staleDelivery⟩ (LeavesAlone staleDelivery.event.jobId)).next
      s o answer s' := by
  obtain ⟨reply, ran, same⟩ := Option.map_eq_some_iff.mp answered
  obtain ⟨rfl, rfl⟩ := Prod.mk.inj same
  exact ⟨s.1, _, reply, LeavesAlone.rfl, ran, rfl, rfl⟩

theorem staleWorld_keyed : staleWorld.db.Keyed := by
  intro jobId row found
  by_cases own : jobId = 1
  · subst own
    cases found
    rfl
  · have absent : Function.update (fun _ => none) 1 (some staleRow) jobId = none :=
      Function.update_of_ne own _ _
    cases absent.symm.trans found

theorem process_honest_throttled : ∃ s : World × Local,
    (Processor.process sampleEnv "b" staleDelivery).Run
      (among sampleEnv ⟨0, 0, some staleDelivery⟩ (LeavesAlone staleDelivery.event.jobId))
      (staleWorld, {}) (.ret .retryScheduled) s ∧
        (s.1.db.holding staleDelivery.event.jobId).Atomic ∧
        ProcessingOutcome.retryScheduled.Means staleDelivery
          (staleWorld.outset sampleEnv 0 staleDelivery.event.jobId)
          (s.1.db.holding staleDelivery.event.jobId) s.1.redis := by
  have ran : ((Processor.process sampleEnv "b" staleDelivery).runWith throttled
      (staleWorld, {})).any (fun x => x.2.toOption = some .retryScheduled) = true := by
    decide +kernel
  obtain ⟨⟨s, answer⟩, run, seen⟩ := (Option.any_eq_true _ _).mp ran
  cases answer with
  | error error => cases seen
  | ok outcome =>
    cases Option.some.inj (of_decide_eq_true seen)
    have run := Program.run_of_runWith throttled_next run
    have open_ : (staleWorld.db.holding staleDelivery.event.jobId).Atomic :=
      Holding.atomic_of_open rfl rfl fun same => (by cases same)
    obtain ⟨kept, honest⟩ := process_honest staleWorld_keyed open_ run
    exact ⟨s, run, kept, honest _ rfl⟩

end Throttled

end DocumentPipeline

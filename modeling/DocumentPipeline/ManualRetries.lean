import DocumentPipeline.Ownership
import DocumentPipeline.Retrying

/-! How often a failure is answered by a manual retry. `retry_job` checks the
status it has read and writes by primary key, so two requests that have both
read `failed` are both accepted. Where each write of a request still finds the
status it stands for, a failure is answered at most once. -/

namespace DocumentPipeline
open EffectProgram Transition JobService Queue

/-- A reset that finds its row failed, or a failure mark of a request that finds
it queued. -/
def Write.lands : Write → Bool
  | .update _ base row => base.status = if row.status = .queued then .failed else .queued
  | _ => true

def requestsLand (s : System) : Label → Bool
  | .act t choice => match s.call? t with
    | none => true
    | some (th, _) => match th.control with
      | .serving _ _ => (s.commits (.act t choice)).all Write.lands
      | _ => true
  | _ => true

abbrev landing : Guard := fun s label _ => requestsLand s label = true

def Observation.marks? (jobId : Nat) : Observation → Option JobStatus
  | .wrote _ id _ after => if id = jobId then some after else none
  | _ => none

def World.marks (w : World) (jobId : Nat) : List JobStatus := w.history.filterMap (·.marks? jobId)

def World.resetsSinceFailure (w : World) (jobId : Nat) : Nat :=
  ((w.marks jobId).takeWhile (· ≠ .failed)).count .queued

def Write.marks (jobId : Nat) : Write → List JobStatus
  | .update _ _ row => if row.id = jobId then [row.status] else []
  | _ => []

section Marks
variable {env : Env} {x : Staged} {t : Nat} {choice : Choice}

theorem observes_marks (ctx : Context) (w : World) (loc : Local) (o : Op) (jobId : Nat) :
    (o.observes ctx w loc choice).filterMap (·.marks? jobId) =
      (loc.commits o choice).elim [] (·.marks jobId) := by
  have faults : (choice.faults ctx).filterMap (·.marks? jobId) = [] := by cases choice <;> rfl
  cases o with
  | runtime o => cases o <;> first | rfl | (simp only [Op.observes]; cases ctx.item <;> rfl)
  | db o =>
    simp only [Op.observes, List.filterMap_append, faults, List.nil_append]
    cases loc.commits (.db o) choice with
    | none => rfl
    | some write =>
      cases write with
      | update loaded base row =>
        simp only [Option.map_some, Option.toList_some, Write.observes, List.filterMap_cons,
          Observation.marks?, Option.elim_some, Write.marks]
        split <;> simp_all
      | _ => rfl
  | redis o =>
    refine List.filterMap_eq_nil_iff.mpr fun observation mem => ?_
    obtain fault | mem := List.mem_append.mp mem
    · rw [mem_faults fault]
      rfl
    · obtain ⟨fields, event, -, -, rfl | ⟨-, rfl⟩⟩ | ⟨event, score, -, -, rfl⟩ |
        ⟨clock, limit, event, due, -, -, rfl⟩ | ⟨id, rfl⟩ := mem_redis_observes mem <;> rfl

theorem announce_marks (t : Nat) (reached : Control) (jobId : Nat) :
    (reached.announce t).filterMap (·.marks? jobId) = [] := by
  refine List.filterMap_eq_nil_iff.mpr fun observation mem => ?_
  obtain ⟨item, rfl⟩ | ⟨answer, rfl⟩ := mem_announce mem <;> rfl

theorem marks_call (call : Call env x t choice) (jobId : Nat) : call.world'.marks jobId =
    (call.thread.loc.commits call.o choice).elim [] (·.marks jobId) ++ x.1.world.marks jobId := by
  simp only [World.marks, call.history, List.filterMap_append, announce_marks, observes_marks,
    List.nil_append]

theorem AttemptCall.marks {call : Call env x t choice} {item : DeliveredEvent} {stage : AttemptStage}
    (is : AttemptCall call item stage) {loaded base row : ProcessingJob}
    (pending : call.thread.loc.tx.write = some (.update loaded base row)) : row.status ≠ .queued := by
  have writes := is.facts.write
  have sound := is.facts.sound
  rw [pending] at writes
  cases stage <;> first | exact writes.elim | skip
  · obtain ⟨rfl, -, rfl⟩ := writes
    obtain ⟨-, allowed, now, rfl⟩ := sound
    rw [ProcessingJob.flushed_status (allowed_ne allowed)]
    nofun
  · obtain ⟨rfl, -, rfl⟩ := writes
    obtain ⟨-, allowed, now, rfl⟩ := sound
    rw [ProcessingJob.flushed_status (allowed_ne allowed)]
    nofun
  · obtain ⟨rfl, -, rfl⟩ := writes
    rename_i event
    cases event with
    | none =>
      obtain ⟨-, allowed, message, now, rfl⟩ := sound
      rw [ProcessingJob.flushed_status (allowed_ne allowed)]
      nofun
    | some event =>
      obtain ⟨-, allowed, -, ⟨message, rfl⟩, -⟩ := sound
      rw [ProcessingJob.flushed_status (allowed_ne allowed)]
      nofun

theorem reset_lands (consistent : Consistent env x) (call : Call env x t choice)
    (lands : requestsLand x.1 (.act t choice) = true) {loaded base row : ProcessingJob}
    (committed : call.thread.loc.commits call.o choice = some (.update loaded base row))
    (reset : row.status = .queued) : base.status = .failed := by
  have pending := (commits_write committed).2
  obtain ⟨item, stage, is⟩ | ⟨request, stage, is⟩ | ⟨task, stage, is⟩ := consistent.kind call
  · exact absurd reset (is.marks pending)
  · obtain ⟨p, p', control, -⟩ := is.control
    simpa only [requestsLand, call.call?_eq, control, call.commits_eq, committed, Option.all_some,
      Write.lands, reset, if_true, decide_eq_true_eq] using lands
  · rw [is.facts.tx] at pending
    cases pending

end Marks

/-- A job that has failed has not been reset since, and otherwise once at most. -/
structure Accounted (w : World) : Prop where
  once : ∀ jobId, w.resetsSinceFailure jobId ≤ 1
  unanswered : ∀ jobId row, w.db.jobs jobId = some row → row.status = .failed →
    w.resetsSinceFailure jobId = 0

namespace Accounted
variable {env : Env} {x : Staged} {t : Nat} {choice : Choice}

theorem act (accounted : Accounted x.1.world) (consistent : Consistent env x) (locked : Locked x)
    (call : Call env x t choice) (lands : requestsLand x.1 (.act t choice) = true) :
    Accounted call.world' := by
  have marks := fun jobId => marks_call call jobId
  have jobs : call.world'.db.jobs = _ := execute_jobs call.ran
  cases committed : call.thread.loc.commits call.o choice with
  | none =>
    rw [committed] at marks jobs
    refine ⟨fun jobId => ?_, fun jobId row found failed => ?_⟩
    · simpa only [World.resetsSinceFailure, marks, Option.elim_none, List.nil_append] using
        accounted.once jobId
    · rw [jobs] at found
      simpa only [World.resetsSinceFailure, marks, Option.elim_none, List.nil_append] using
        accounted.unanswered jobId row found failed
  | some write =>
    rw [committed] at marks jobs
    have pending := (commits_write committed).2
    have lawful := consistent.lawful call.found pending
    have based := locked.based t _ write call.found pending
    -- a job other than the one written to, or one written to by a claim or an insert
    have same : ∀ {jobId}, write.marks jobId = [] →
        call.world'.resetsSinceFailure jobId = x.1.world.resetsSinceFailure jobId := fun none_ => by
      simp only [World.resetsSinceFailure, marks, Option.elim_some, none_, List.nil_append]
    have other : ∀ {jobId}, jobId ≠ write.row.id → write.marks jobId = [] := fun apart => by
      cases write with
      | update loaded base row => exact if_neg (Ne.symm apart)
      | _ => rfl
    have unmoved : ∀ {jobId row}, jobId ≠ write.row.id → call.world'.db.jobs jobId = some row →
        x.1.world.db.jobs jobId = some row := fun apart found => by
      rw [jobs] at found
      exact (Function.update_of_ne apart _ _).symm.trans found
    have written : call.world'.db.jobs write.row.id = some write.row := by
      rw [jobs]
      exact Function.update_self ..
    cases write with
    | insert row =>
      refine ⟨fun jobId => same rfl ▸ accounted.once jobId, fun jobId row' found failed => ?_⟩
      by_cases own : jobId = row.id
      · subst own
        cases written.symm.trans found
        cases failed.symm.trans lawful
      · exact same rfl ▸ accounted.unanswered jobId row' (unmoved own found) failed
    | claim base row =>
      refine ⟨fun jobId => same rfl ▸ accounted.once jobId, fun jobId row' found failed => ?_⟩
      by_cases own : jobId = row.id
      · subst own
        cases written.symm.trans found
        cases failed.symm.trans lawful.1
      · exact same rfl ▸ accounted.unanswered jobId row' (unmoved own found) failed
    | update loaded base row =>
      have after : call.world'.resetsSinceFailure row.id =
          ((row.status :: x.1.world.marks row.id).takeWhile (· ≠ .failed)).count .queued := by
        simp only [World.resetsSinceFailure, marks, Option.elim_some, Write.marks, if_true,
          List.singleton_append]
      have once := accounted.once row.id
      refine ⟨fun jobId => ?_, fun jobId row' found failed => ?_⟩
      · by_cases own : jobId = row.id
        · subst own
          rw [after]
          cases reset : row.status with
          | failed => exact Nat.zero_le _
          | queued =>
            have before := accounted.unanswered row.id base based
              (reset_lands consistent call lands committed reset)
            change (.queued :: (x.1.world.marks row.id).takeWhile (· ≠ .failed)).count .queued ≤ 1
            rw [List.count_cons_self]
            exact (congrArg (· + 1) before).le
          | _ => simpa [World.resetsSinceFailure] using once
        · exact same (other own) ▸ accounted.once jobId
      · by_cases own : jobId = row.id
        · subst own
          cases written.symm.trans found
          rw [after, show row.status = .failed from failed]
          rfl
        · exact same (other own) ▸ accounted.unanswered jobId row' (unmoved own found) failed

end Accounted

theorem StagedRun.accounted {env : Env} {x : Staged} (h : StagedRun env landing x) :
    Accounted x.1.world := by
  refine Reach.invariant (I := fun x => Accounted x.1.world)
    ⟨fun _ => Nat.zero_le _, fun _ _ found => by cases found⟩
    (fun x label x' reached accounted stepped lands => ?_) h
  obtain ⟨t, choice, call, rfl, rfl⟩ | noCall := (move_of_step stepped).call_or
  · exact accounted.act (StagedRun.consistent reached) (StagedRun.locked reached) call lands
  · have rests := (move_of_step stepped).rests noCall
    have same : ∀ jobId, x'.1.world.resetsSinceFailure jobId = x.1.world.resetsSinceFailure jobId :=
      fun jobId => by simp only [World.resetsSinceFailure, World.marks, rests.history]
    exact ⟨fun jobId => same jobId ▸ accounted.once jobId, fun jobId row found failed =>
      same jobId ▸ accounted.unanswered jobId row (rests.jobs ▸ found) failed⟩

def Observation.wroteBy? (t : Nat) : Observation → Option (Nat × JobStatus × JobStatus)
  | .wrote thread jobId before after => if thread = t then some (jobId, before, after) else none
  | _ => none

def Observation.publishedBy? (t : Nat) : Observation → Option DocumentProcessingEvent
  | .published thread event => if thread = t then some event else none
  | _ => none

def World.wroteBy (w : World) (t : Nat) : List (Nat × JobStatus × JobStatus) :=
  w.history.filterMap (·.wroteBy? t)

def World.publishedBy (w : World) (t : Nat) : List DocumentProcessingEvent :=
  w.history.filterMap (·.publishedBy? t)

def Write.moved : Write → List (Nat × JobStatus × JobStatus)
  | .update _ base row => [(row.id, base.status, row.status)]
  | _ => []

section Traces
variable {env : Env} {x : Staged} {t : Nat} {choice : Choice}

theorem observes_wroteBy (ctx : Context) (w : World) (loc : Local) (o : Op) (t' : Nat) :
    (o.observes ctx w loc choice).filterMap (·.wroteBy? t') =
      if ctx.thread = t' then (loc.commits o choice).elim [] Write.moved else [] := by
  have faults : (choice.faults ctx).filterMap (·.wroteBy? t') = [] := by cases choice <;> rfl
  have nothing : (if ctx.thread = t' then ([] : List (Nat × JobStatus × JobStatus)) else []) = [] :=
    ite_self _
  cases o with
  | runtime o =>
    refine Eq.trans ?_ nothing.symm
    cases o <;> first | rfl | (simp only [Op.observes]; cases ctx.item <;> rfl)
  | db o =>
    simp only [Op.observes, List.filterMap_append, faults, List.nil_append]
    cases loc.commits (.db o) choice with
    | none => exact nothing.symm
    | some write =>
      cases write with
      | update loaded base row =>
        simp only [Option.map_some, Option.toList_some, Write.observes, List.filterMap_cons,
          Observation.wroteBy?, Option.elim_some, Write.moved]
        split <;> simp_all
      | _ => exact nothing.symm
  | redis o =>
    refine Eq.trans (List.filterMap_eq_nil_iff.mpr fun observation mem => ?_) nothing.symm
    obtain fault | mem := List.mem_append.mp mem
    · rw [mem_faults fault]
      rfl
    · obtain ⟨fields, event, -, -, rfl | ⟨-, rfl⟩⟩ | ⟨event, score, -, -, rfl⟩ |
        ⟨clock, limit, event, due, -, -, rfl⟩ | ⟨id, rfl⟩ := mem_redis_observes mem <;> rfl

theorem observes_publishedBy (ctx : Context) (w : World) (loc : Local) (o : Op) (t' : Nat) :
    (o.observes ctx w loc choice).filterMap (·.publishedBy? t') =
      if ctx.thread = t' then o.publishes choice else [] := by
  have faults : (choice.faults ctx).filterMap (·.publishedBy? t') = [] := by cases choice <;> rfl
  have nothing : (if ctx.thread = t' then ([] : List DocumentProcessingEvent) else []) = [] :=
    ite_self _
  cases o with
  | runtime o =>
    refine Eq.trans ?_ nothing.symm
    cases o <;> first | rfl | (simp only [Op.observes]; cases ctx.item <;> rfl)
  | db o =>
    refine Eq.trans ?_ nothing.symm
    simp only [Op.observes, List.filterMap_append, faults]
    cases loc.commits (.db o) choice with
    | none => rfl
    | some write => cases write <;> rfl
  | redis o =>
    simp only [Op.observes, List.filterMap_append, faults, List.nil_append]
    cases o with
    | xadd fields =>
      by_cases own : ctx.thread = t'
      · cases choice <;> simp [RedisOp.observes, Choice.applied, Op.publishes, Observation.publishedBy?,
          List.filterMap_map, own]
      · cases choice <;> simp [RedisOp.observes, Choice.applied, Observation.publishedBy?,
          List.filterMap_map, own]
    | _ =>
      refine Eq.trans (List.filterMap_eq_nil_iff.mpr fun observation mem => ?_) nothing.symm
      obtain ⟨fields, event, absurd, -⟩ | ⟨event, score, -, -, rfl⟩ |
        ⟨clock, limit, event, due, -, -, rfl⟩ | ⟨id, rfl⟩ := mem_redis_observes mem <;>
        first | rfl | cases absurd

theorem wroteBy_call (call : Call env x t choice) (t' : Nat) : call.world'.wroteBy t' =
    (if t = t' then (call.thread.loc.commits call.o choice).elim [] Write.moved else []) ++
      x.1.world.wroteBy t' := by
  have announced : (call.reached.announce t).filterMap (·.wroteBy? t') = [] :=
    List.filterMap_eq_nil_iff.mpr fun observation mem => by
      obtain ⟨item, rfl⟩ | ⟨answer, rfl⟩ := mem_announce mem <;> rfl
  simp only [World.wroteBy, call.history, List.filterMap_append, announced, observes_wroteBy,
    List.nil_append, System.context]

theorem publishedBy_call (call : Call env x t choice) (t' : Nat) : call.world'.publishedBy t' =
    (if t = t' then call.o.publishes choice else []) ++ x.1.world.publishedBy t' := by
  have announced : (call.reached.announce t).filterMap (·.publishedBy? t') = [] :=
    List.filterMap_eq_nil_iff.mpr fun observation mem => by
      obtain ⟨item, rfl⟩ | ⟨answer, rfl⟩ := mem_announce mem <;> rfl
  simp only [World.publishedBy, call.history, List.filterMap_append, announced, observes_publishedBy,
    List.nil_append, System.context]

theorem Call.faultless (call : Call env x t choice) (faultless : .faulted t ∉ call.world'.history)
    (store : ∀ o, call.o ≠ .runtime o) : ∀ error, choice ≠ .fails error ∧ choice ≠ .lost error := by
  intro error
  refine not_or.mp fun failed => faultless (call.mem_history.mpr (.inr (.inl ?_)))
  have faults : .faulted t ∈ choice.faults (System.context t call.thread) := by
    obtain rfl | rfl := failed <;> exact List.mem_cons_self
  cases isOp : call.o with
  | runtime o => exact absurd isOp (store o)
  | db o => exact List.mem_append_left _ faults
  | redis o => exact List.mem_append_left _ faults

/-- What a retry request without a fault has committed and published by its
stage: nothing, then the reset of the failed job, then its event. -/
def RequestStage.Leaves (jobId : Nat) (jobs : Nat → Option ProcessingJob)
    (wrote : List (Nat × JobStatus × JobStatus)) (published : List DocumentProcessingEvent) :
    RequestStage → Prop
  | .start | .opened | .absent | .resetting _ _ | .closing .absent | .closing (.rejected _)
  | .closed .absent | .closed (.rejected _) => wrote = [] ∧ published = []
  | .loaded row => wrote = [] ∧ published = [] ∧ (jobs row.id).isSome = true
  | .committed _ | .announcing _ _ => wrote = [(jobId, .failed, .queued)] ∧ published = []
  | .published _ | .answered _ => wrote = [(jobId, .failed, .queued)] ∧
    ∃ event, event.jobId = jobId ∧ published = [event]
  | _ => False

theorem RequestStage.Leaves.keep {jobId : Nat} {jobs jobs' : Nat → Option ProcessingJob}
    {wrote : List (Nat × JobStatus × JobStatus)} {published : List DocumentProcessingEvent}
    {stage : RequestStage} (h : stage.Leaves jobId jobs wrote published)
    (kept : ∀ id, (jobs id).isSome = true → (jobs' id).isSome = true) :
    stage.Leaves jobId jobs' wrote published := by
  cases stage with
  | loaded row => exact ⟨h.1, h.2.1, kept _ h.2.2⟩
  | closing why => cases why <;> exact h
  | closed why => cases why <;> exact h
  | _ => exact h

theorem rows_stay (call : Call env x t choice) (id : Nat) (there : (x.1.world.db.jobs id).isSome = true) :
    (call.world'.db.jobs id).isSome = true := by
  have jobs : call.world'.db.jobs = _ := execute_jobs call.ran
  rw [jobs]
  split
  · exact there
  · rename_i write _
    by_cases own : id = write.row.id
    · subst own
      rw [Function.update_self]
      rfl
    · rwa [Function.update_of_ne own]

theorem RequestCall.resets {call : Call env x t choice} {jobId : Nat} {held current : ProcessingJob}
    (is : RequestCall call (.retry jobId) (.resetting held current)) (consistent : Consistent env x)
    (lands : requestsLand x.1 (.act t choice) = true) (isCommit : call.o = .db .commit)
    (applied : ∀ error, choice ≠ .fails error) :
    (call.thread.loc.commits call.o choice).elim [] Write.moved = [(jobId, .failed, .queued)] := by
  have writes := is.facts.write
  obtain ⟨keyed, allowed, now, rfl⟩ := is.facts.sound
  cases pending : call.thread.loc.tx.write with
  | none =>
    rw [pending] at writes
    exact writes.elim
  | some write =>
    rw [pending] at writes
    cases write with
    | update loaded base row =>
      obtain ⟨rfl, same, rfl⟩ := writes
      have committed : call.thread.loc.commits call.o choice =
          some (.update loaded base (loaded.flushed (requeuedRow loaded now) base)) := by
        rw [isCommit]
        cases choice <;> first | exact pending | exact absurd rfl (applied _)
      have reset : (loaded.flushed (requeuedRow loaded now) base).status = .queued :=
        ProcessingJob.flushed_status (allowed_ne allowed) base
      have failed := reset_lands consistent call lands committed reset
      cases keyed
      rw [committed]
      simp only [Option.elim_some, Write.moved, reset, failed, ProcessingJob.flushed_id, same]
    | insert row => exact writes.elim
    | claim base row => exact writes.elim

theorem RequestCall.leaves {call : Call env x t choice} {jobId : Nat} {stage : RequestStage}
    (is : RequestCall call (.retry jobId) stage) (consistent : Consistent env x)
    (lands : requestsLand x.1 (.act t choice) = true) (faultless : .faulted t ∉ call.world'.history)
    (leaves : stage.Leaves jobId x.1.world.db.jobs (x.1.world.wroteBy t) (x.1.world.publishedBy t)) :
    (stage.next call.o call.reply.answer).Leaves jobId call.world'.db.jobs (call.world'.wroteBy t)
      (call.world'.publishedBy t) := by
  have permitted := is.permitted
  have sound := is.facts.sound
  have resets := fun held current (resetting : stage = .resetting held current) =>
    (resetting ▸ is).resets consistent lands
  have working := call.faultless faultless
  have keyed := consistent.keyed
  refine RequestStage.Leaves.keep ?_ (rows_stay call)
  rw [wroteBy_call call t, publishedBy_call call t, if_pos rfl, if_pos rfl]
  clear is faultless
  obtain ⟨thread, o, next, reply, found, waits, ran⟩ := call
  dsimp only at permitted resets working ⊢
  cases stage <;> first | exact leaves.elim | skip
  all_goals rcases o with o | o | o <;> cases o <;> first | exact permitted.elim | exact Bool.noConfusion permitted | skip
  case start.db.openSession => exact leaves
  case opened.runtime.uuid4 => exact leaves
  case opened.runtime.utcnow => exact leaves
  case opened.db.selectJob id =>
    obtain ⟨-, done, did, rfl⟩ | ⟨error, rfl, -⟩ := execute_db ran fun same => (by cases same)
    · cases did
      dsimp only
      cases there : x.1.world.db.jobs id with
      | none => exact leaves
      | some row =>
        rw [Option.bind_some]
        cases x.1.world.db.documents row.documentId with
        | none => exact leaves
        | some document => exact ⟨leaves.1, leaves.2, by rw [keyed id row there, there]; rfl⟩
    · exact absurd rfl (working (fun _ same => by cases same) error).1
  case absent.db.rollback =>
    obtain ⟨-, done, did, rfl⟩ | ⟨error, rfl, -⟩ := execute_db ran fun same => (by cases same)
    · cases did
      exact leaves
    · exact absurd rfl (working (fun _ same => by cases same) error).1
  case loaded.runtime.utcnow => exact leaves
  case loaded.db.rollback =>
    obtain ⟨-, done, did, rfl⟩ | ⟨error, rfl, -⟩ := execute_db ran fun same => (by cases same)
    · cases did
      exact ⟨leaves.1, leaves.2.1⟩
    · exact absurd rfl (working (fun _ same => by cases same) error).1
  case loaded.db.updateJob row held current =>
    obtain ⟨-, done, did, rfl⟩ | ⟨error, rfl, -⟩ := execute_db ran fun same => (by cases same)
    · obtain ⟨wrote, published, there⟩ := leaves
      obtain ⟨rfl, -⟩ := permitted
      obtain ⟨stored, isStored⟩ := Option.isSome_iff_exists.mp there
      simp only [Database.run, isStored] at did
      split at did <;> cases did
      exact ⟨wrote, published⟩
    · exact absurd rfl (working (fun _ same => by cases same) error).1
  case resetting.db.commit held current =>
    have applied := resets held current rfl rfl fun error => (working (fun _ same => by cases same) error).1
    rw [applied]
    obtain ⟨-, rfl⟩ | ⟨error, rfl, -⟩ | ⟨error, rfl, -⟩ := execute_commit ran
    · exact ⟨congrArg _ leaves.1, leaves.2⟩
    · exact absurd rfl (working (fun _ same => by cases same) error).1
    · exact absurd rfl (working (fun _ same => by cases same) error).2
  case committed.runtime.uuid4 row =>
    obtain ⟨done, did, rfl⟩ := execute_runtime ran
    cases choice <;> cases did
    exact leaves
  case announcing.redis.xadd row eventId fields =>
    obtain ⟨rfl, rfl⟩ | ⟨error, rfl, -⟩ | ⟨error, rfl, -⟩ := execute_redis ran
    · obtain ⟨event, rfl, fresh⟩ := permitted
      exact ⟨leaves.1, event, fresh.jobId.trans (sound jobId rfl).1, congrArg _ leaves.2⟩
    · exact absurd rfl (working (fun _ same => by cases same) error).1
    · exact absurd rfl (working (fun _ same => by cases same) error).2
  case published.db.closeSession => exact leaves
  case closing.db.closeSession why =>
    cases why <;> exact leaves

end Traces

structure Traced (x : Staged) : Prop where
  unborn : ∀ t : Nat, x.1.threads[t]? = none →
    x.1.world.wroteBy t = [] ∧ x.1.world.publishedBy t = []
  serving : ∀ (t : Nat) (th : Thread) (jobId : Nat) (p : Prog Routes.ApiResponse)
    (stage : RequestStage), x.1.threads[t]? = some th → th.control = .serving (.retry jobId) p →
      x.2 t = .request stage → .faulted t ∉ x.1.world.history →
        stage.Leaves jobId x.1.world.db.jobs (x.1.world.wroteBy t) (x.1.world.publishedBy t)

namespace Traced
variable {env : Env} {x : Staged} {t : Nat} {choice : Choice}

theorem other_lists (call : Call env x t choice) {t' : Nat} (other : t' ≠ t) :
    call.world'.wroteBy t' = x.1.world.wroteBy t' ∧
      call.world'.publishedBy t' = x.1.world.publishedBy t' := by
  rw [wroteBy_call, publishedBy_call, if_neg (Ne.symm other), if_neg (Ne.symm other)]
  exact ⟨rfl, rfl⟩

theorem act (traced : Traced x) (consistent : Consistent env x) (call : Call env x t choice)
    (lands : requestsLand x.1 (.act t choice) = true) : Traced call.result where
  unborn t' absent := by
    have before := (Move.act call).remains absent |>.1
    have other : t' ≠ t := by
      rintro rfl
      cases before.symm.trans call.found
    obtain ⟨wrote, published⟩ := other_lists call other
    rw [show call.result.1.world = call.world' from rfl, wrote, published]
    exact traced.unborn t' before
  serving t' th jobId p stage found serves staged faultless := by
    have earlier : .faulted t' ∉ x.1.world.history := fun mem =>
      faultless (call.mem_history.mpr (.inr (.inr mem)))
    obtain ⟨rfl, rfl⟩ | ⟨other, isFound⟩ := call.threads_result found
    · have reached := Control.settle_serving serves
      rw [call.own_stage] at staged
      obtain ⟨item, stage', is⟩ | ⟨request, stage', is⟩ | ⟨task, stage', is⟩ := consistent.kind call
      · obtain ⟨loop, rest, q, q', -, handles⟩ := is.control
        cases handles.symm.trans reached
      · obtain ⟨q, q', control, same⟩ := is.control
        cases same.symm.trans reached
        obtain ⟨goes, -⟩ | ⟨-, -, stopped⟩ := is.goes
        · cases goes.symm.trans staged
          exact is.leaves consistent lands faultless
            (traced.serving t' _ jobId q stage' call.found control is.staged earlier)
        · cases stopped.symm.trans serves
      · have runs := is.control.2.1
        rw [reached] at runs
        cases runs
    · obtain ⟨wrote, published⟩ := other_lists call other
      rw [call.other_stage other] at staged
      rw [show call.result.1.world = call.world' from rfl, wrote, published]
      exact (traced.serving t' th jobId p stage isFound serves staged earlier).keep
        (rows_stay call)

theorem undisturbed {x' : Staged} {label : Label} (traced : Traced x) (move : Move env x label x')
    (noCall : ∀ t choice, label ≠ .act t choice) : Traced x' := by
  have rests := move.rests noCall
  have lists (t : Nat) : x'.1.world.wroteBy t = x.1.world.wroteBy t ∧
      x'.1.world.publishedBy t = x.1.world.publishedBy t := by
    simp only [World.wroteBy, World.publishedBy, rests.history, and_self]
  refine ⟨fun t absent => ?_, fun t th jobId p stage found serves staged faultless => ?_⟩
  · rw [(lists t).1, (lists t).2]
    exact traced.unborn t (move.remains absent).1
  · rw [(lists t).1, (lists t).2, rests.jobs]
    rw [rests.history] at faultless
    obtain ⟨isFound, same⟩ | ⟨-, loop, control, -, -⟩ | ⟨unborn, request, control, -, first⟩ |
      ⟨before, loop, -, -, rfl, -⟩ | ⟨choice, call, labelled, -⟩ | ⟨before, -, -, rfl, -⟩ :=
      move.thread found
    · exact traced.serving t th jobId p stage isFound serves (same.symm.trans staged) faultless
    · cases control.symm.trans serves
    · cases first.symm.trans staged
      exact traced.unborn t unborn
    · cases loop <;> cases serves
    · exact absurd labelled (noCall t choice)
    · cases serves

end Traced

theorem StagedRun.traced {env : Env} {x : Staged} (h : StagedRun env landing x) : Traced x := by
  refine Reach.invariant (I := Traced) ⟨fun _ _ => ⟨rfl, rfl⟩, fun _ _ _ _ _ found => by cases found⟩
    (fun x label x' reached traced stepped lands => ?_) h
  obtain ⟨t, choice, call, rfl, rfl⟩ | noCall := (move_of_step stepped).call_or
  · exact traced.act (StagedRun.consistent reached) call lands
  · exact traced.undisturbed (move_of_step stepped) noCall

theorem Write.offWindow_of_lands {write : Write} (lands : write.lands = true) :
    write.offWindow = true := by
  cases write with
  | update loaded base row =>
    simp only [Write.lands, decide_eq_true_eq] at lands
    simp only [offWindow, Bool.or_eq_true, decide_eq_true_eq]
    split at lands
    · exact .inr lands
    · exact .inl lands
  | _ => rfl

theorem apiOffWindow_of_lands {s : System} {label : Label} (lands : requestsLand s label = true) :
    apiOffWindow s label = true := by
  cases label with
  | act t choice =>
    simp only [apiOffWindow]
    simp only [requestsLand] at lands
    cases called : s.call? t with
    | none => rfl
    | some call =>
      simp only [called] at lands
      simp only
      cases control : call.1.control with
      | serving request p =>
        simp only [control] at lands
        cases committed : s.commits (.act t choice) with
        | none => rfl
        | some write =>
          rw [committed] at lands
          exact Write.offWindow_of_lands lands
      | _ => rfl
  | _ => rfl

/-- The steps of `landing` in which attempts end before their claims turn stale. -/
abbrev landingTimely (env : Env) : Guard := fun s label s' =>
  requestsLand s label = true ∧ Timely env s'

theorem StagedRun.owned_landing {env : Env} (agree : ClocksAgree env) {x : Staged}
    (h : StagedRun env (landingTimely env) x) : Owned env x :=
  h.invariant (I := Owned env) (.init agree)
    fun _ _ _ (reached : StagedRun env (landingTimely env) _) owned stepped guarded =>
      owned.step reached.consistent reached.locked (move_of_step stepped)
        (apiOffWindow_of_lands guarded.1) guarded.2

/-- The step in which the thread answers its retry request for the job. -/
structure AnswersRetry (env : Env) (s : System) (t jobId : Nat)
    (answer : Except Exn Routes.ApiResponse) (s' : System) : Prop where
  serving : ∃ th p, s.threads[t]? = some th ∧ th.control = .serving (.retry jobId) p
  step : ∃ choice, s.step env (.act t choice) = some s' ∧ requestsLand s (.act t choice) = true
  pending : .answered t answer ∉ s.world.history
  answered : .answered t answer ∈ s'.world.history

/-- What the request has done by then: its own reset and its own event, or nothing. -/
def RetryDone (w : World) (t jobId : Nat) : Except Exn Routes.ApiResponse → Prop
  | .ok _ => w.wroteBy t = [(jobId, .failed, .queued)] ∧
    ∃ event, event.jobId = jobId ∧ w.publishedBy t = [event]
  | .error error => w.wroteBy t = [] ∧ w.publishedBy t = [] ∧
    (error = jobNotFound jobId ∨ ∃ status, status ≠ .failed ∧ error = invalidTransition status .queued)

theorem not_observes_answered {ctx : Context} {w : World} {loc : Local} {o : Op} {choice : Choice}
    {t : Nat} (answer : Except Exn Routes.ApiResponse) :
    .answered t answer ∉ o.observes ctx w loc choice := by
  intro mem
  obtain fault | ⟨write, -, committed⟩ | ⟨op, -, mem⟩ | ⟨-, item, -, entered⟩ := mem_observes mem
  · cases fault
  · cases write <;> cases committed
  · obtain ⟨fields, event, -, -, same | ⟨-, same⟩⟩ | ⟨event, score, -, -, same⟩ |
      ⟨clock, limit, event, due, -, -, same⟩ | ⟨id, same⟩ := mem_redis_observes mem <;> cases same
  · cases entered

theorem Traced.done {env : Env} {x : Staged} (traced : Traced x) (consistent : Consistent env x)
    {t jobId : Nat} {answer : Except Exn Routes.ApiResponse} {s' : System}
    (answers : AnswersRetry env x.1 t jobId answer s') (faultless : .faulted t ∉ s'.world.history) :
    RetryDone s'.world t jobId answer := by
  obtain ⟨⟨th, p, found, serves⟩, ⟨choice, stepped, lands⟩, pending, answered⟩ := answers
  obtain ⟨call, result⟩ := (move_of_step (stagedStep_of_step x.2 stepped)).call
  obtain rfl : s' = call.result.1 := congrArg Prod.fst result
  cases call.found.symm.trans found
  have announced : .answered t answer ∈ call.reached.announce t := by
    obtain announced | observed | earlier := call.mem_history.mp answered
    · exact announced
    · exact absurd observed (not_observes_answered answer)
    · exact absurd earlier pending
  have earlier : .faulted t ∉ x.1.world.history := fun mem =>
    faultless (call.mem_history.mpr (.inr (.inr mem)))
  obtain ⟨item, stage, is⟩ | ⟨request, stage, is⟩ | ⟨task, stage, is⟩ := consistent.kind call
  · obtain ⟨loop, rest, q, q', control, -⟩ := is.control
    cases control.symm.trans serves
  · obtain ⟨q, q', control, reached⟩ := is.control
    cases control.symm.trans serves
    have leaves := is.leaves consistent lands faultless
      (traced.serving t _ jobId p stage call.found serves is.staged earlier)
    have conforms := consistent.reached_conforms call
    rw [serves, is.staged, reached] at conforms
    rw [reached] at announced
    cases q' with
    | call o next => cases announced
    | ret response =>
      obtain ⟨row, ended⟩ := conforms
      cases List.mem_singleton.mp announced
      rw [ended] at leaves
      exact leaves
    | raise error =>
      obtain ⟨why, ended, raises⟩ := conforms
      cases List.mem_singleton.mp announced
      rw [ended] at leaves
      cases why with
      | absent => exact ⟨leaves.1, leaves.2, .inl raises⟩
      | rejected status => exact ⟨leaves.1, leaves.2, .inr ⟨status, raises⟩⟩
      | faulted => exact leaves.elim
  · have runs := is.control.1
    rw [serves] at runs
    cases runs

/-- Where every write of a request finds the row as the request left or read it,
a failure is answered by one reset at most, a request without a fault is accepted
with its own reset and event or refused with nothing done, and, among timely
attempts, no job has two attempts at work. -/
theorem retry_accepted_once {env : Env} {s : System} (h : Reached env landing s) :
    (∀ jobId, s.world.resetsSinceFailure jobId ≤ 1) ∧
    (∀ t jobId answer s', AnswersRetry env s t jobId answer s' → .faulted t ∉ s'.world.history →
      RetryDone s'.world t jobId answer) ∧
    (ClocksAgree env → Reached env (landingTimely env) s →
      ∀ (t t' : Nat) (th th' : Thread) (win win' : Window), s.threads[t]? = some th →
        s.threads[t']? = some th' → th.loc.window = some win → th'.loc.window = some win' →
          win.jobId = win'.jobId → t = t') := by
  obtain ⟨g, staged⟩ := h.staged
  refine ⟨(StagedRun.accounted staged).once, fun t jobId answer s' answers faultless => ?_,
    fun agree timely => ?_⟩
  · exact staged.traced.done staged.consistent answers faultless
  · obtain ⟨g', staged'⟩ := timely.staged
    exact (staged'.owned_landing agree).unique

section Sample

def sampleRejection : Choice := .fails (.app { kind := .llmAuthentication, message := "" })

def rejectedRun : List Label :=
  [.receive 0 sampleUpload] ++ Label.oks 0 14 ++ [.startWorker 1 "w", .iterate 1] ++
    Label.oks 1 8 ++ [.act 1 sampleRejection] ++ Label.oks 1 7

theorem retry_accepted_once_rejected : ∃ s, Reached sampleEnv landing s ∧
    s.world.resetsSinceFailure 2 = 1 ∧ ∀ jobId, s.world.resetsSinceFailure jobId ≤ 1 := by
  obtain ⟨s, reached, accepted⟩ := Reached.exists_run sampleEnv landing
    (fun s label _ => requestsLand s label) (fun s => s.world.resetsSinceFailure 2 = 1)
    (fun _ _ _ lands => lands) (rejectedRun ++ [.receive 0 (.retry 2)] ++ Label.oks 4 8)
    (by decide +kernel)
  exact ⟨s, reached, of_decide_eq_true accepted, (retry_accepted_once reached).1⟩

def doubleRetryRun : List Label :=
  rejectedRun ++ [.receive 0 (.retry 2), .receive 0 (.retry 2)] ++ Label.oks 4 2 ++ Label.oks 5 2 ++
    Label.oks 4 6 ++ Label.oks 5 6

theorem retry_accepted_twice : ¬∀ env s, Reached env flawlessRun s → ∀ jobId,
    s.world.resetsSinceFailure jobId ≤ 1 := by
  intro once
  obtain ⟨s, reached, accepted⟩ := Reached.exists_run sampleEnv flawlessRun
    (fun s label _ => flawless s label) (fun s => s.world.resetsSinceFailure 2 = 2)
    (fun _ _ _ guarded => guarded) doubleRetryRun (by decide +kernel)
  have twice : s.world.resetsSinceFailure 2 = 2 := of_decide_eq_true accepted
  have bound := once sampleEnv s reached 2
  omega

end Sample

end DocumentPipeline

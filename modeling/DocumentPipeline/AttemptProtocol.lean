import DocumentPipeline.Processor

/-! The order in which an attempt issues its calls. A stage is what `handle`
has done so far; `permits` lists the calls it may issue there, with the rows
and events it issues them on. `handle_follows` proves that the code keeps to
the protocol, so a property of every attempt is proved of the stages. -/

namespace DocumentPipeline
open EffectProgram JobService

/-- How an attempt left its row when `process` returns. -/
inductive Durable
  | skipped
  | completed (current : ProcessingJob)
  | marked (current : ProcessingJob) (event : Option DocumentProcessingEvent)

inductive AttemptStage
  | start
  | opened
  | clocked (now : Time)
  | matched (now : Time)
  | rejected
  | owned
  | loaded (row : ProcessingJob)
  | running (row : ProcessingJob)
  | completing (row current : ProcessingJob)
  | persisting (row current : ProcessingJob)
  | broken
  | expired
  | reloaded (row : ProcessingJob)
  | drawn (row : ProcessingJob) (eventId : Nat)
  | scheduled (row : ProcessingJob) (event : DocumentProcessingEvent)
  | unscheduled (row : ProcessingJob)
  | marking (row current : ProcessingJob) (event : Option DocumentProcessingEvent)
  | failed
  | durable (how : Durable)
  | acking (how : Durable)
  | acked (how : Durable)
  | dropped

namespace AttemptStage

/-- The session is open and nothing durable has been recorded. -/
def unsettled : AttemptStage → Bool
  | .start | .durable _ | .acking _ | .acked _ | .dropped => false
  | _ => true

/-- The stages in which an exception reaches `_handle_failure`. -/
def recoverable : AttemptStage → Bool
  | .running _ | .broken | .expired => true
  | _ => false

def finished : AttemptStage → Bool
  | .acked _ | .dropped => true
  | _ => false

/-- The row a stage flushes and the mark it flushes, by the status it moves to. -/
def flushes (row current : ProcessingJob) : AttemptStage → Prop
  | .loaded held | .reloaded held | .unscheduled held => row = held ∧
    isTransitionAllowed row.status .failed = true ∧
      ∃ message now, current = failedRow row message now
  | .running held => row = held ∧
    isTransitionAllowed row.status .completed = true ∧ ∃ now, current = completedRow row now
  | .scheduled held _ => row = held ∧
    isTransitionAllowed row.status .retrying = true ∧ ∃ message, current = retryingRow row message
  | _ => False

def permits (env : Env) (name : String) (item : DeliveredEvent) : AttemptStage → Op → Prop
  | .start, .db .openSession => True
  | .opened, .runtime .utcnow => True
  | .clocked now, .db (.executeClaim jobId consumerName started staleCutoff) =>
    jobId = item.event.jobId ∧ consumerName = name ∧ started = now ∧
      staleCutoff = now - seconds env.settings.staleProcessingSeconds
  | .matched _, .db .commit => True
  | .rejected, .db .rollback => True
  | .owned, .db (.selectJob jobId) => jobId = item.event.jobId
  | .loaded _, .runtime .utcnow => True
  | .loaded _, .runtime .enterRun => (item.deliveryCount : Int) ≤ env.settings.maxDeliveryCount
  | .running _, .runtime (.readBytes _) => True
  | .running _, .runtime (.classify _) => True
  | .running _, .runtime (.extract _ _) => True
  | .running _, .runtime .utcnow => True
  | .running _, .db .rollback => True
  | .completing row _, .db (.insertResult result) => result.jobId = row.id
  | .persisting _ _, .db .commit => True
  | .broken, .db .rollback => True
  | .expired, .db .rollback => True
  | .expired, .db (.selectJob jobId) => jobId = item.event.jobId
  | .reloaded _, .runtime (.uniform _ _) => True
  | .reloaded row, .runtime .uuid4 => row.retryCount < row.maxRetries
  | .reloaded _, .runtime .utcnow => True
  | .drawn _ _, .runtime .utcnow => True
  | .drawn _ eventId, .redis (.zadd member _) => member = .event (item.event.nextAttempt eventId)
  | .unscheduled _, .runtime .utcnow => True
  | .marking _ _ _, .db .commit => True
  | .durable _, .db .closeSession => True
  | .acking _, .redis (.xack messageId) => messageId = item.messageId
  | stage, .db (.updateJob row current) => stage.flushes row current
  | stage, .db .closeSession => stage.unsettled = true
  | _, _ => False

/-- The stage a reply leads to; a raised error leaves the attempt `broken`
where `_handle_failure` takes over and `failed` where it leaves `process`. -/
def next (item : DeliveredEvent) : AttemptStage → (o : Op) → Except Exn o.Val → AttemptStage
  | .start, .db .openSession, _ => .opened
  | .opened, .runtime .utcnow, .ok now => .clocked now
  | .clocked now, .db (.executeClaim ..), .ok (some _) => .matched now
  | .clocked _, .db (.executeClaim ..), .ok none => .rejected
  | .matched _, .db .commit, .ok _ => .owned
  | .rejected, .db .rollback, .ok _ => .durable .skipped
  | .owned, .db (.selectJob _), .ok (some (row, _)) => .loaded row
  | .loaded row, .runtime .enterRun, _ => .running row
  | .loaded held, .db (.updateJob _ current), .ok _ => .marking held current none
  | .running held, .db (.updateJob _ current), .ok _ => .completing held current
  | .running _, .db (.updateJob _ _), .error _ => .broken
  | .running _, .db .rollback, .ok _ => .expired
  | .running _, .db .rollback, .error _ => .broken
  | .completing row current, .db (.insertResult _), .ok _ => .persisting row current
  | .completing _ _, .db (.insertResult _), .error _ => .broken
  | .persisting _ current, .db .commit, .ok _ => .durable (.completed current)
  | .persisting _ _, .db .commit, .error _ => .broken
  | .broken, .db .rollback, .ok _ => .expired
  | .broken, .db .rollback, .error _ => .broken
  | .expired, .db .rollback, .ok _ => .expired
  | .expired, .db .rollback, .error _ => .broken
  | .expired, .db (.selectJob _), .ok (some (row, _)) => .reloaded row
  | .reloaded row, .runtime .uuid4, .ok eventId => .drawn row eventId
  | .reloaded held, .db (.updateJob _ current), .ok _ => .marking held current none
  | .drawn row eventId, .redis (.zadd _ _), .ok _ => .scheduled row (item.event.nextAttempt eventId)
  | .drawn row _, .redis (.zadd _ _), .error _ => .unscheduled row
  | .unscheduled held, .db (.updateJob _ current), .ok _ => .marking held current none
  | .scheduled held event, .db (.updateJob _ current), .ok _ => .marking held current (some event)
  | .marking _ current event, .db .commit, .ok _ => .durable (.marked current event)
  | .durable how, .db .closeSession, _ => .acking how
  | .acking how, .redis (.xack _), _ => .acked how
  | _, .db .closeSession, _ => .dropped
  | stage, .runtime _, _ => stage
  | _, _, _ => .failed

def Sound (item : DeliveredEvent) : AttemptStage → Prop
  | .loaded row | .running row | .reloaded row | .unscheduled row => row.id = item.event.jobId
  | .drawn row _ => row.id = item.event.jobId ∧ row.retryCount < row.maxRetries
  | .scheduled row event => row.id = item.event.jobId ∧ row.retryCount < row.maxRetries ∧
    ∃ eventId, event = item.event.nextAttempt eventId
  | .completing row current | .persisting row current => row.id = item.event.jobId ∧
    isTransitionAllowed row.status .completed = true ∧ ∃ now, current = completedRow row now
  | .marking row current none => row.id = item.event.jobId ∧
    isTransitionAllowed row.status .failed = true ∧
      ∃ message now, current = failedRow row message now
  | .marking row current (some event) => row.id = item.event.jobId ∧
    isTransitionAllowed row.status .retrying = true ∧ row.retryCount < row.maxRetries ∧
      (∃ message, current = retryingRow row message) ∧
        ∃ eventId, event = item.event.nextAttempt eventId
  | _ => True

section Inversion
variable {env : Env} {name : String} {item : DeliveredEvent} {stage : AttemptStage}

theorem permits_openSession (h : stage.permits env name item (.db .openSession)) :
    stage = .start := by
  cases stage <;> first | rfl | exact h.elim

theorem permits_closeSession (h : stage.permits env name item (.db .closeSession)) :
    stage.unsettled = true ∨ ∃ how, stage = .durable how := by
  cases stage <;> first | exact .inr ⟨_, rfl⟩ | exact .inl h

theorem permits_executeClaim {jobId : Nat} {consumerName : String} {now staleCutoff : Time}
    (h : stage.permits env name item (.db (.executeClaim jobId consumerName now staleCutoff))) :
    stage = .clocked now ∧ jobId = item.event.jobId ∧ consumerName = name ∧
      staleCutoff = now - seconds env.settings.staleProcessingSeconds := by
  cases stage <;> first | exact h.elim | skip
  obtain ⟨rfl, rfl, rfl, rfl⟩ := h
  exact ⟨rfl, rfl, rfl, rfl⟩

theorem permits_selectJob {jobId : Nat} (h : stage.permits env name item (.db (.selectJob jobId))) :
    (stage = .owned ∨ stage = .expired) ∧ jobId = item.event.jobId := by
  cases stage <;> first | exact h.elim | exact ⟨.inl rfl, h⟩ | exact ⟨.inr rfl, h⟩

theorem permits_updateJob {row current : ProcessingJob}
    (h : stage.permits env name item (.db (.updateJob row current))) :
    stage.flushes row current := by
  cases stage <;> exact h

theorem permits_insertResult {result : ExtractionResult}
    (h : stage.permits env name item (.db (.insertResult result))) :
    ∃ row current, stage = .completing row current ∧ result.jobId = row.id := by
  cases stage <;> first | exact h.elim | exact ⟨_, _, rfl, h⟩

theorem permits_commit (h : stage.permits env name item (.db .commit)) :
    (∃ now, stage = .matched now) ∨ (∃ row current, stage = .persisting row current) ∨
      ∃ row current event, stage = .marking row current event := by
  cases stage <;> first
    | exact h.elim
    | exact .inl ⟨_, rfl⟩
    | exact .inr (.inl ⟨_, _, rfl⟩)
    | exact .inr (.inr ⟨_, _, _, rfl⟩)

theorem permits_rollback (h : stage.permits env name item (.db .rollback)) :
    stage = .rejected ∨ (∃ row, stage = .running row) ∨ stage = .broken ∨ stage = .expired := by
  cases stage <;> first
    | exact h.elim
    | exact .inl rfl
    | exact .inr (.inl ⟨_, rfl⟩)
    | exact .inr (.inr (.inl rfl))
    | exact .inr (.inr (.inr rfl))

theorem permits_redis {o : RedisOp} (h : stage.permits env name item (.redis o)) :
    (∃ row eventId score, stage = .drawn row eventId ∧
      o = .zadd (.event (item.event.nextAttempt eventId)) score) ∨
    ∃ how, stage = .acking how ∧ o = .xack item.messageId := by
  cases stage <;> cases o <;> first | exact h.elim | cases h
  · exact .inl ⟨_, _, _, rfl, rfl⟩
  · exact .inr ⟨_, rfl, rfl⟩

theorem permits_runtime {o : RuntimeOp} (h : stage.permits env name item (.runtime o)) :
    (stage = .opened ∧ o = .utcnow) ∨
    (∃ row, stage = .loaded row ∧ o = .enterRun ∧
      (item.deliveryCount : Int) ≤ env.settings.maxDeliveryCount) ∨
    (∃ row, stage = .reloaded row ∧ o = .uuid4 ∧ row.retryCount < row.maxRetries) ∨
    (stage.unsettled = true ∧ (∀ reply, stage.next item (.runtime o) reply = stage) ∧
      o ≠ .enterRun) := by
  cases stage <;> cases o <;> first
    | exact h.elim
    | exact .inl ⟨rfl, rfl⟩
    | exact .inr (.inl ⟨_, rfl, rfl, h⟩)
    | exact .inr (.inr (.inl ⟨_, rfl, rfl, h⟩))
    | exact .inr (.inr (.inr ⟨rfl, fun _ => rfl, nofun⟩))

end Inversion

end AttemptStage

/-- A SELECT by key answers with the row of that key; the session, the clock
and the random source do not fail; Redis fails with its own errors. -/
def credible : (o : Op) → Except Exn o.Val → Prop
  | .db (.selectJob jobId), .ok (some (row, _)) => row.id = jobId
  | .db .openSession, .error _ => False
  | .db .closeSession, .error _ => False
  | .runtime .enterRun, .error _ => False
  | .runtime .utcnow, .error _ => False
  | .runtime .uuid4, .error _ => False
  | .redis _, .error error => error.isRedisFault = true
  | _, _ => True

/-- What a sub-program may assume and guarantee is a stage before it and, for
each outcome, the stages after it. -/
abbrev follows (env : Env) (name : String) (item : DeliveredEvent) {α : Type} (p : Prog α)
    (Q : Except Exn α → AttemptStage → Prop) (stage : AttemptStage) : Prop :=
  wp (.tracking (AttemptStage.permits env name item) credible (AttemptStage.next item)) p Q stage

section Follows
variable (env : Env) (name : String) (item : DeliveredEvent)

theorem claimJob_follows :
    follows env name item
      (claimJob item.event.jobId name env.settings.staleProcessingSeconds)
      (fun r stage => match r with
        | .ok none => stage = .durable .skipped
        | .ok (some job) => stage = .loaded job.row ∧ job.expired = false ∧
            job.row.id = item.event.jobId
        | .error _ => stage.unsettled = true) .opened := by
  refine wp_tracking_then trivial (fun now _ => ?_) fun error impossible => impossible.elim
  refine wp_tracking_then ⟨rfl, rfl, rfl, rfl⟩ (fun claimed _ => ?_) fun _ _ => rfl
  cases claimed with
  | none => exact wp_tracking_then trivial (fun _ _ => rfl) fun _ _ => rfl
  | some jobId =>
    refine wp_tracking_then trivial (fun _ _ => ?_) fun _ _ => rfl
    refine (wp_bind _ _ _ _ _).mpr (wp_tracking_then rfl (fun found likely => ?_) fun _ _ => rfl)
    cases found with
    | none => rfl
    | some pair => exact ⟨rfl, rfl, likely⟩

theorem flushAndCommit_follows {stage : AttemptStage} {row current : ProcessingJob}
    {event : Option DocumentProcessingEvent}
    (permitted : stage.permits env name item (.db (.updateJob row current)))
    (ok : stage.next item (.db (.updateJob row current)) (.ok ()) = .marking row current event)
    (failed : ∀ error,
      stage.next item (.db (.updateJob row current)) (.error error) = .failed) :
    follows env name item (flushAndCommit row current) (fun r stage => match r with
      | .ok _ => stage = .durable (.marked current event)
      | .error _ => stage.unsettled = true) stage := by
  refine wp_tracking_then permitted (fun _ _ => ?_) fun error _ => by rw [failed error]; rfl
  rw [ok]
  exact wp_tracking_perform trivial (fun _ _ => rfl) fun _ _ => rfl

/-- The stages from which `mark_failed` is called. -/
inductive Failing (row : ProcessingJob) : AttemptStage → Prop
  | loaded : Failing row (.loaded row)
  | reloaded : Failing row (.reloaded row)
  | unscheduled : Failing row (.unscheduled row)

theorem markFailed_follows {job : JobObject} {stage : AttemptStage} (message : String)
    (fresh : job.expired = false) (failing : Failing job.row stage) :
    follows env name item (markFailed job message) (fun r stage => match r with
      | .ok _ => ∃ current, stage = .durable (.marked current none)
      | .error _ => stage.unsettled = true) stage := by
  simp only [markFailed, JobObject.attributes, fresh, Bool.false_eq_true, if_false]
  refine (wp_bind _ _ _ _ _).mpr ((wp_lift _ _ _ _).mpr ?_)
  refine (wp_bind _ _ _ _ _).mpr ((wp_lift _ _ _ _).mpr ?_)
  cases checked : ensureTransitionAllowed job.row.status .failed with
  | error error => cases failing <;> rfl
  | ok _ =>
    have allowed := allowed_of_ensured checked
    have flushed : ∀ now, follows env name item
        (flushAndCommit job.row (failedRow job.row message now)) (fun r stage => match r with
          | .ok _ => stage = .durable (.marked (failedRow job.row message now) none)
          | .error _ => stage.unsettled = true) stage := fun now => by
      cases failing <;>
        exact flushAndCommit_follows env name item ⟨rfl, allowed, message, now, rfl⟩ rfl fun _ => rfl
    have asked : stage.permits env name item (.runtime .utcnow) := by cases failing <;> trivial
    have same : ∀ r, stage.next item (.runtime .utcnow) r = stage := fun r => by
      cases failing <;> rfl
    refine wp_tracking_then asked (fun now _ => ?_) fun _ impossible => impossible.elim
    rw [same]
    refine wp_seq _ (flushed now) (fun _ stage h => ⟨_, h⟩) fun _ stage h => h

theorem markRetrying_follows {job : JobObject} {event : DocumentProcessingEvent}
    (message : String) (fresh : job.expired = false) :
    follows env name item (markRetrying job message) (fun r stage => match r with
      | .ok _ => ∃ current, stage = .durable (.marked current (some event))
      | .error _ => stage.unsettled = true) (.scheduled job.row event) := by
  simp only [markRetrying, JobObject.attributes, fresh, Bool.false_eq_true, if_false]
  refine (wp_bind _ _ _ _ _).mpr ((wp_lift _ _ _ _).mpr ?_)
  refine (wp_bind _ _ _ _ _).mpr ((wp_lift _ _ _ _).mpr ?_)
  cases checked : ensureTransitionAllowed job.row.status .retrying with
  | error error => rfl
  | ok _ =>
    have allowed := allowed_of_ensured checked
    refine wp_seq _ (flushAndCommit_follows env name item ⟨rfl, allowed, message, rfl⟩ rfl
      fun _ => rfl) (fun _ stage h => ⟨_, h⟩) fun _ stage h => h

theorem flushResult_follows {row current : ProcessingJob} {result : ExtractionResult}
    (flush : (AttemptStage.running row).flushes row current) (owner : result.jobId = row.id) :
    follows env name item (Processor.flushResult row current result) (fun r stage => match r with
      | .ok _ => stage = .durable (.completed current)
      | .error _ => stage = .broken) (.running row) := by
  refine wp_tracking_then flush (fun _ _ => ?_) fun _ _ => rfl
  refine wp_tracking_then owner (fun _ _ => ?_) fun _ _ => rfl
  exact wp_tracking_perform trivial (fun _ _ => rfl) fun _ _ => rfl

theorem persist_follows {job : JobObject} (output : ExtractionOutput) (rawText : Text)
    (fresh : job.expired = false) :
    follows env name item (Processor.persist env job output rawText) (fun r stage => match r with
      | .ok _ => ∃ current, stage = .durable (.completed current)
      | .error _ => stage.recoverable = true) (.running job.row) := by
  simp only [Processor.persist, markCompleted, JobObject.attributes, fresh, Bool.false_eq_true,
    if_false]
  refine (wp_bind _ _ _ _ _).mpr ((wp_lift _ _ _ _).mpr ?_)
  refine (wp_bind _ _ _ _ _).mpr ((wp_bind _ _ _ _ _).mpr ((wp_lift _ _ _ _).mpr ?_))
  refine (wp_bind _ _ _ _ _).mpr ((wp_lift _ _ _ _).mpr ?_)
  cases checked : ensureTransitionAllowed job.row.status .completed with
  | error error => rfl
  | ok _ =>
    refine wp_tracking_then trivial (fun now _ => ?_) fun _ impossible => impossible.elim
    refine (wp_tryCatch _ _ _ _ _).mpr (wp_mono _ ?_ (flushResult_follows env name item
      ⟨rfl, allowed_of_ensured checked, now, rfl⟩ rfl))
    rintro (error | _) stage h
    · cases h
      dsimp only
      split
      · refine (wp_bind _ _ _ _ _).mpr ?_
        exact wp_tracking_then trivial (fun _ _ => rfl) fun _ _ => rfl
      · rfl
    · exact ⟨_, h⟩

theorem read_follows {row : ProcessingJob} (storagePath : String) :
    follows env name item (FileStorage.read env storagePath)
      (fun _ stage => stage = .running row) (.running row) := by
  refine (wp_bind _ _ _ _ _).mpr ((wp_lift _ _ _ _).mpr ?_)
  cases FileStorage.resolve env.storageRoot storagePath with
  | error error => rfl
  | ok target =>
    refine (wp_tryCatch _ _ _ _ _).mpr (wp_tracking_perform trivial (fun _ _ => rfl) fun error _ => ?_)
    cases error <;> rfl

theorem resolveType_follows {row : ProcessingJob} (text : Text) :
    follows env name item (Processor.resolveType env item.event text)
      (fun _ stage => stage = .running row) (.running row) := by
  simp only [Processor.resolveType]
  cases item.event.requestedDocumentType with
  | some documentType => rfl
  | none => exact wp_tracking_then trivial (fun _ _ => rfl) fun _ _ => rfl

theorem run_follows {job : JobObject} (fresh : job.expired = false)
    (inTime : (item.deliveryCount : Int) ≤ env.settings.maxDeliveryCount) :
    follows env name item (Processor.run env job item.event) (fun r stage => match r with
      | .ok outcome => outcome = .completed ∧ ∃ current, stage = .durable (.completed current)
      | .error _ => stage.recoverable = true) (.loaded job.row) := by
  refine wp_tracking_then inTime (fun _ _ => ?_) fun _ impossible => impossible.elim
  refine wp_seq _ (read_follows env name item _) ?_ fun _ _ h => by rw [h]; rfl
  rintro data _ rfl
  refine (wp_bind _ _ _ _ _).mpr ((wp_lift _ _ _ _).mpr ?_)
  cases env.extractText data (FileStorage.suffix job.document.storedFilename) with
  | error error => rfl
  | ok text =>
    refine wp_seq _ (resolveType_follows env name item _) ?_ fun _ _ h => by rw [h]; rfl
    rintro documentType _ rfl
    refine wp_tracking_then trivial (fun output _ => ?_) fun _ _ => rfl
    refine wp_seq _ (persist_follows env name item output text fresh) ?_ fun _ _ h => h
    exact fun _ _ h => ⟨rfl, h⟩

theorem failPermanently_follows {job : JobObject} {stage : AttemptStage} (message : String)
    (fresh : job.expired = false) (failing : Failing job.row stage) :
    follows env name item (Processor.failPermanently job message) (fun r stage => match r with
      | .ok outcome => outcome = .failed ∧ ∃ current, stage = .durable (.marked current none)
      | .error _ => stage.unsettled = true) stage := by
  refine wp_seq _ (markFailed_follows env name item message fresh failing) ?_ fun _ _ h => h
  exact fun _ _ h => ⟨rfl, h⟩

/-- The outcomes `_handle_failure` and the dead-letter branch report. -/
def Durable.reports : Durable → ProcessingOutcome → Prop
  | .skipped, .skipped => True
  | .completed _, .completed => True
  | .marked _ (some _), .retryScheduled => True
  | .marked _ none, .failed => True
  | .marked _ none, .deadLettered => True
  | _, _ => False

abbrev settles (r : Except Exn ProcessingOutcome) (stage : AttemptStage) : Prop :=
  match r with
  | .ok outcome => ∃ how : Durable, stage = .durable how ∧ how.reports outcome
  | .error _ => stage.unsettled = true

theorem settles_failed {r : Except Exn ProcessingOutcome} {stage : AttemptStage}
    (h : match r with
      | .ok outcome => outcome = .failed ∧ ∃ current, stage = .durable (.marked current none)
      | .error _ => stage.unsettled = true) : settles r stage := by
  cases r with
  | error error => exact h
  | ok outcome =>
    obtain ⟨rfl, current, rfl⟩ := h
    exact ⟨_, rfl, trivial⟩

theorem computeDelay_follows {row : ProcessingJob} (attempt : Int) :
    follows env name item (RetryPolicy.computeDelay attempt env.settings)
      (fun _ stage => stage = .reloaded row) (.reloaded row) := by
  refine (wp_bind _ _ _ _ _).mpr ((wp_lift _ _ _ _).mpr ?_)
  cases RetryPolicy.floatOfPowTwo (max 0 attempt).toNat with
  | error error => rfl
  | ok factor =>
    dsimp only
    split
    · rfl
    · exact wp_tracking_then trivial (fun _ _ => rfl) fun _ _ => rfl

theorem redisCommand_follows {o : RedisOp} {message : String} {stage : AttemptStage}
    {Q : Except Exn o.Val → AttemptStage → Prop}
    (permitted : stage.permits env name item (.redis o))
    (ok : ∀ value, Q (.ok value) (stage.next item (.redis o) (.ok value)))
    (failed : ∀ error, error.isRedisFault = true →
      Q (.error (Exn.queueError message)) (stage.next item (.redis o) (.error error))) :
    follows env name item (redisCommand o message) Q stage := by
  refine (wp_tryCatch _ _ _ _ _).mpr (wp_tracking_perform permitted (fun value _ => ok value) ?_)
  intro error fault
  have known : error.isRedisFault = true := fault
  simp only [known, if_true]
  exact failed error known

theorem retryLater_follows {job : JobObject} (message : String) (fresh : job.expired = false)
    (remaining : job.row.retryCount < job.row.maxRetries) :
    follows env name item (Processor.retryLater env job job.row item.event message) settles
      (.reloaded job.row) := by
  refine wp_seq _ (computeDelay_follows env name item _) ?_ fun _ _ h => by rw [h]; rfl
  rintro delay _ rfl
  refine wp_tracking_then remaining (fun eventId _ => ?_) fun _ impossible => impossible.elim
  refine wp_seq (R := fun r stage => match r with
    | .ok true => stage = .scheduled job.row (item.event.nextAttempt eventId)
    | .ok false => stage = .unscheduled job.row
    | .error _ => False) _ ?_ ?_ fun _ _ h => h.elim
  · refine (wp_tryCatch _ _ _ _ _).mpr ((wp_bind _ _ _ _ _).mpr ?_)
    refine wp_tracking_then trivial (fun now _ => ?_) fun _ impossible => impossible.elim
    exact redisCommand_follows env name item rfl (fun _ => rfl) fun _ _ => rfl
  · intro scheduled stage h
    cases scheduled with
    | true =>
      rw [show stage = _ from h]
      refine wp_seq _ (markRetrying_follows env name item message fresh) ?_ fun _ _ h => h
      rintro _ _ ⟨current, rfl⟩
      exact ⟨_, rfl, trivial⟩
    | false =>
      rw [show stage = _ from h]
      exact wp_mono _ (fun _ _ => settles_failed)
        (failPermanently_follows env name item _ fresh .unscheduled)

theorem handleFailure_follows {job : JobObject} {stage : AttemptStage} (error : Exn)
    (keyed : job.row.id = item.event.jobId) (recoverable : stage.recoverable = true) :
    follows env name item (Processor.handleFailure env job item.event error) settles stage := by
  refine wp_seq (R := fun r stage => match r with
    | .ok other => stage = .expired ∧ other.row.id = item.event.jobId
    | .error _ => stage.unsettled = true) _ ?_ ?_ fun _ _ h => h
  · cases stage <;> first
      | exact wp_tracking_then trivial (fun _ _ => ⟨rfl, keyed⟩) fun _ _ => rfl
      | cases recoverable
  · rintro other _ ⟨rfl, owner⟩
    refine wp_seq (R := fun r stage => match r with
      | .ok other => stage = .reloaded other.row ∧ other.expired = false
      | .error _ => stage.unsettled = true) _ ?_ ?_ fun _ _ h => h
    · refine wp_tracking_then owner (fun found _ => ?_) fun _ _ => rfl
      cases found with
      | none => rfl
      | some pair => exact ⟨rfl, rfl⟩
    · rintro other _ ⟨rfl, fresh⟩
      simp only [JobObject.attributes, fresh, Bool.false_eq_true, if_false]
      refine (wp_bind _ _ _ _ _).mpr ((wp_lift _ _ _ _).mpr ?_)
      dsimp only
      split
      · rename_i retry
        simp only [RetryPolicy.shouldRetry, Bool.and_eq_true, decide_eq_true_eq] at retry
        exact retryLater_follows env name item _ fresh retry.2
      · exact wp_mono _ (fun _ _ => settles_failed)
          (failPermanently_follows env name item _ fresh .reloaded)

/-- `process` ends with its session closed, settled or `dropped`. -/
theorem process_follows :
    follows env name item (Processor.process env name item) (fun r stage => match r with
      | .ok outcome => ∃ how : Durable, stage = .acking how ∧ how.reports outcome
      | .error _ => stage = .dropped) .start := by
  refine wp_tracking_then trivial (fun _ _ => ?_) fun _ impossible => impossible.elim
  refine (wp_andFinally _ _ _ _ _).mpr (wp_mono (Q := settles) _ ?_ ?_)
  · rintro (error | outcome) stage h
    · refine wp_tracking_perform ?_ (fun _ _ => ?_) fun _ impossible => impossible.elim
      · cases stage <;> first | exact trivial | exact h
      · cases stage <;> first | rfl | cases h
    · obtain ⟨how, rfl, reported⟩ := h
      exact wp_tracking_perform trivial (fun _ _ => ⟨how, rfl, reported⟩)
        fun _ impossible => impossible.elim
  · refine wp_seq _ (claimJob_follows env name item) ?_ fun _ _ h => h
    intro claimed stage h
    cases claimed with
    | none => exact ⟨.skipped, h, trivial⟩
    | some job =>
      obtain ⟨rfl, fresh, keyed⟩ := h
      dsimp only
      split
      · refine wp_seq _ (markFailed_follows env name item _ fresh .loaded) ?_ fun _ _ h => h
        rintro _ _ ⟨current, rfl⟩
        exact ⟨_, rfl, trivial⟩
      · rename_i inTime
        refine (wp_tryCatch _ _ _ _ _).mpr (wp_mono _ ?_
          (run_follows env name item fresh (not_lt.mp inTime)))
        rintro (error | outcome) stage h
        · exact handleFailure_follows env name item error keyed h
        · obtain ⟨rfl, current, rfl⟩ := h
          exact ⟨_, rfl, trivial⟩

/-- An attempt acknowledges its entry exactly when `process` returned. -/
theorem handle_follows :
    follows env name item (Processor.handle env name item)
      (fun _ stage => stage.finished = true) .start := by
  refine wp_seq (R := fun r stage => match r with
    | .ok none => stage = .dropped
    | .ok (some _) => ∃ how, stage = .acking how
    | .error _ => False) _ ?_ ?_ fun _ _ h => h.elim
  · refine (wp_tryCatch _ _ _ _ _).mpr ((wp_bind _ _ _ _ _).mpr
      (wp_mono _ ?_ (process_follows env name item)))
    rintro (error | outcome) stage h
    · exact h
    · obtain ⟨how, rfl, -⟩ := h
      exact ⟨how, rfl⟩
  · intro outcome stage h
    cases outcome with
    | none =>
      rw [show stage = _ from h]
      rfl
    | some outcome =>
      obtain ⟨how, rfl⟩ := h
      exact wp_seq _ (redisCommand_follows (Q := fun _ stage => stage.finished = true) env name
        item rfl (fun _ => rfl) fun _ _ => rfl) (fun _ _ h => h) fun _ _ h => h

end Follows
end DocumentPipeline

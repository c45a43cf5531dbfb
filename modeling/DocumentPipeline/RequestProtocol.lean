import DocumentPipeline.AttemptProtocol
import DocumentPipeline.System

/-! The order in which the upload and the retry request issue their calls, in
the manner of the attempt's protocol. A request that raises rolls back and
closes; `Refusal` records why. -/

namespace DocumentPipeline
open EffectProgram JobService Queue Routes

inductive Refusal
  | absent
  | rejected (status : JobStatus)
  | faulted

def Request.isUpload : Request → Bool
  | .upload _ _ => true
  | .retry _ => false

inductive RequestStage
  | start
  | opened
  | stored
  | named (documentId : Nat)
  | keyed (documentId jobId : Nat)
  | documented (documentId jobId : Nat)
  | inserted (row : ProcessingJob)
  | created (row : ProcessingJob)
  | refreshed (row : ProcessingJob)
  | absent
  | loaded (row : ProcessingJob)
  | resetting (row current : ProcessingJob)
  | committed (row : ProcessingJob)
  | announcing (row : ProcessingJob) (eventId : Nat)
  | published (row : ProcessingJob)
  | refused (row : ProcessingJob)
  | refailing (row current : ProcessingJob)
  | failing
  | closing (why : Refusal)
  | answered (row : ProcessingJob)
  | closed (why : Refusal)

/-- A row as `create_document_and_job` builds it. -/
structure FreshRow (env : Env) (documentId jobId : Nat) (row : ProcessingJob) : Prop where
  id : row.id = jobId
  documentId : row.documentId = documentId
  status : row.status = .queued
  retryCount : row.retryCount = 0
  maxRetries : row.maxRetries = env.settings.maxRetries
  startedAt : row.startedAt = none

/-- An event as `build_event` builds it. -/
structure FreshEvent (row : ProcessingJob) (eventId : Nat) (event : DocumentProcessingEvent) :
    Prop where
  eventId : event.eventId = eventId
  jobId : event.jobId = row.id
  version : event.eventVersion = DocumentPipeline.eventVersion

namespace RequestStage

def unsettled : RequestStage → Bool
  | .start | .published _ | .closing _ | .answered _ | .closed _ => false
  | _ => true

def raising (request : Request) : RequestStage → Bool
  | .opened => request.isUpload
  | .absent | .loaded _ | .refused _ | .failing => true
  | _ => false

def finished : RequestStage → Bool
  | .answered _ | .closed _ => true
  | _ => false

def flushes (row current : ProcessingJob) : RequestStage → Prop
  | .loaded held => row = held ∧
    isTransitionAllowed row.status .queued = true ∧ ∃ now, current = requeuedRow row now
  | .refused held => row = held ∧
    isTransitionAllowed row.status .failed = true ∧
      ∃ message now, current = failedRow row message now
  | _ => False

/-- Why a request that raises in a stage is refused. -/
def refusal : RequestStage → Refusal
  | .absent => .absent
  | .loaded row => .rejected row.status
  | _ => .faulted

def permits (env : Env) (request : Request) : RequestStage → Op → Prop
  | .start, .db .openSession => True
  | .opened, .db (.selectJob jobId) => request = .retry jobId
  | .opened, .runtime .uuid4 => True
  | .opened, .runtime .utcnow => True
  | .opened, .runtime (.writeBytes _ _) => request.isUpload = true
  | .stored, .runtime .uuid4 => True
  | .named _, .runtime .uuid4 => True
  | .keyed documentId _, .db (.insertDocument id _) => id = documentId
  | .documented documentId jobId, .db (.insertJob row) => FreshRow env documentId jobId row
  | .inserted _, .db .commit => True
  | .created row, .db (.selectJob jobId) => jobId = row.id
  | .refreshed _, .db (.selectDocument _) => True
  | .loaded _, .runtime .utcnow => True
  | .resetting _ _, .db .commit => True
  | .committed _, .runtime .uuid4 => True
  | .announcing row eventId, .redis (.xadd fields) =>
    ∃ event, fields = toStreamFields event ∧ FreshEvent row eventId event
  | .refused _, .runtime .utcnow => True
  | .refailing _ _, .db .commit => True
  | .published _, .db .closeSession => True
  | .closing _, .db .closeSession => True
  | stage, .db (.updateJob row current) => stage.flushes row current
  | stage, .db .rollback => stage.raising request = true
  | _, _ => False

def next : RequestStage → (o : Op) → Except Exn o.Val → RequestStage
  | .start, .db .openSession, _ => .opened
  | .opened, .db (.selectJob _), .ok (some (row, _)) => .loaded row
  | .opened, .db (.selectJob _), .ok none => .absent
  | .opened, .runtime (.writeBytes _ _), .ok _ => .stored
  | .opened, .runtime .uuid4, _ => .opened
  | .opened, .runtime .utcnow, _ => .opened
  | .stored, .runtime .uuid4, .ok documentId => .named documentId
  | .named documentId, .runtime .uuid4, .ok jobId => .keyed documentId jobId
  | .keyed documentId jobId, .db (.insertDocument _ _), .ok _ => .documented documentId jobId
  | .documented _ _, .db (.insertJob row), .ok _ => .inserted row
  | .inserted row, .db .commit, .ok _ => .created row
  | .created _, .db (.selectJob _), .ok (some (row, _)) => .refreshed row
  | .refreshed row, .db (.selectDocument _), .ok (some _) => .committed row
  | .loaded row, .runtime .utcnow, _ => .loaded row
  | .loaded held, .db (.updateJob _ current), .ok _ => .resetting held current
  | .resetting _ current, .db .commit, .ok _ => .committed current
  | .committed row, .runtime .uuid4, .ok eventId => .announcing row eventId
  | .announcing row _, .redis (.xadd _), .ok _ => .published row
  | .announcing row _, .redis (.xadd _), .error _ => .refused row
  | .refused row, .runtime .utcnow, _ => .refused row
  | .refused held, .db (.updateJob _ current), .ok _ => .refailing held current
  | .published row, .db .closeSession, _ => .answered row
  | .closing why, .db .closeSession, _ => .closed why
  | stage, .db .rollback, .ok _ => .closing stage.refusal
  | _, .db .rollback, .error _ => .closing .faulted
  | _, _, _ => .failing

def Sound (env : Env) (request : Request) : RequestStage → Prop
  | .inserted row => FreshRow env row.documentId row.id row ∧ request.isUpload = true
  | .stored | .named _ | .keyed _ _ | .documented _ _ | .created _ | .refreshed _ =>
    request.isUpload = true
  | .loaded row => request = .retry row.id
  | .resetting row current => request = .retry row.id ∧
    isTransitionAllowed row.status .queued = true ∧ ∃ now, current = requeuedRow row now
  | .committed row | .announcing row _ | .published row | .refused row | .answered row =>
    ∀ jobId, request = .retry jobId → row.id = jobId ∧ row.status = .queued
  | .refailing row current => (∀ jobId, request = .retry jobId → row.id = jobId ∧
      row.status = .queued) ∧ isTransitionAllowed row.status .failed = true ∧
      ∃ message now, current = failedRow row message now
  | _ => True

section Inversion
variable {env : Env} {request : Request} {stage : RequestStage}

theorem permits_openSession (h : stage.permits env request (.db .openSession)) :
    stage = .start := by
  cases stage <;> first | rfl | exact h.elim

theorem permits_closeSession (h : stage.permits env request (.db .closeSession)) :
    (∃ row, stage = .published row) ∨ ∃ why, stage = .closing why := by
  cases stage <;> first | exact h.elim | exact .inl ⟨_, rfl⟩ | exact .inr ⟨_, rfl⟩

theorem permits_executeClaim {jobId : Nat} {consumerName : String} {now staleCutoff : Time}
    (h : stage.permits env request (.db (.executeClaim jobId consumerName now staleCutoff))) :
    False := by
  cases stage <;> exact h

theorem permits_selectJob {jobId : Nat} (h : stage.permits env request (.db (.selectJob jobId))) :
    (stage = .opened ∧ request = .retry jobId) ∨ ∃ row, stage = .created row := by
  cases stage <;> first | exact h.elim | exact .inl ⟨rfl, h⟩ | exact .inr ⟨_, rfl⟩

theorem permits_selectDocument {id : Nat} (h : stage.permits env request (.db (.selectDocument id))) :
    ∃ row, stage = .refreshed row := by
  cases stage <;> first | exact h.elim | exact ⟨_, rfl⟩

theorem permits_updateJob {row current : ProcessingJob}
    (h : stage.permits env request (.db (.updateJob row current))) :
    stage.flushes row current := by
  cases stage <;> exact h

theorem permits_insertDocument {id : Nat} {document : Document}
    (h : stage.permits env request (.db (.insertDocument id document))) :
    ∃ jobId, stage = .keyed id jobId := by
  cases stage <;> first | exact h.elim | exact ⟨_, congrArg (RequestStage.keyed · _) h.symm⟩

theorem permits_insertJob {row : ProcessingJob}
    (h : stage.permits env request (.db (.insertJob row))) :
    ∃ documentId jobId, stage = .documented documentId jobId ∧
      FreshRow env documentId jobId row := by
  cases stage <;> first | exact h.elim | exact ⟨_, _, rfl, h⟩

theorem permits_insertResult {result : ExtractionResult}
    (h : stage.permits env request (.db (.insertResult result))) : False := by
  cases stage <;> exact h

theorem permits_commit (h : stage.permits env request (.db .commit)) :
    (∃ row, stage = .inserted row) ∨ (∃ row current, stage = .resetting row current) ∨
      ∃ row current, stage = .refailing row current := by
  cases stage <;> first
    | exact h.elim
    | exact .inl ⟨_, rfl⟩
    | exact .inr (.inl ⟨_, _, rfl⟩)
    | exact .inr (.inr ⟨_, _, rfl⟩)

theorem permits_redis {o : RedisOp} (h : stage.permits env request (.redis o)) :
    ∃ row eventId event, stage = .announcing row eventId ∧ o = .xadd (toStreamFields event) ∧
      FreshEvent row eventId event := by
  cases stage <;> cases o <;> first | exact h.elim | cases h
  rename_i row eventId event h
  obtain ⟨rfl, fresh⟩ := h
  exact ⟨_, _, _, rfl, rfl, fresh⟩

theorem permits_runtime {o : RuntimeOp} (h : stage.permits env request (.runtime o)) :
    (stage = .opened ∧ request.isUpload = true ∧ ∃ path data, o = .writeBytes path data) ∨
    (stage = .stored ∧ o = .uuid4) ∨ (∃ documentId, stage = .named documentId ∧ o = .uuid4) ∨
    (∃ row, stage = .committed row ∧ o = .uuid4) ∨
    (stage.unsettled = true ∧ (∀ reply, stage.next (.runtime o) reply = stage) ∧
      o ≠ .enterRun) := by
  cases stage <;> cases o <;> first
    | exact h.elim
    | exact .inl ⟨rfl, h, _, _, rfl⟩
    | exact .inr (.inl ⟨rfl, rfl⟩)
    | exact .inr (.inr (.inl ⟨_, rfl, rfl⟩))
    | exact .inr (.inr (.inr (.inl ⟨_, rfl, rfl⟩)))
    | exact .inr (.inr (.inr (.inr ⟨rfl, fun _ => rfl, nofun⟩)))

end Inversion

end RequestStage

/-- What a request that ended in `why` raises. -/
def Refusal.raises : Request → Refusal → Exn → Prop
  | .retry jobId, .absent, error => error = jobNotFound jobId
  | .retry _, .rejected status, error =>
    status ≠ .failed ∧ error = invalidTransition status .queued
  | _, _, _ => True

abbrev serves (env : Env) (request : Request) {α : Type} (p : Prog α)
    (Q : Except Exn α → RequestStage → Prop) (stage : RequestStage) : Prop :=
  wp (.tracking (RequestStage.permits env request) credible RequestStage.next) p Q stage

section Serves
variable (env : Env) (request : Request)

/-- How a body of `get_session` ends before its session is closed. -/
abbrev concludes (r : Except Exn ApiResponse) (stage : RequestStage) : Prop :=
  match r with
  | .ok _ => ∃ row, stage = .published row
  | .error error => stage.raising request = true ∧ stage.refusal.raises request error

theorem markFailed_serves {job : JobObject} (message : String) (fresh : job.expired = false) :
    serves env request (markFailed job message)
      (fun _ stage => stage.raising request = true ∧ stage.refusal = .faulted) (.refused job.row) := by
  simp only [markFailed, JobObject.attributes, fresh, Bool.false_eq_true, if_false]
  refine (wp_bind _ _ _ _ _).mpr ((wp_lift _ _ _ _).mpr ?_)
  refine (wp_bind _ _ _ _ _).mpr ((wp_lift _ _ _ _).mpr ?_)
  cases checked : ensureTransitionAllowed job.row.status .failed with
  | error error => exact ⟨rfl, rfl⟩
  | ok _ =>
    refine wp_tracking_then trivial (fun now _ => ?_) fun _ impossible => impossible.elim
    refine (wp_bind _ _ _ _ _).mpr (wp_tracking_then
      ⟨rfl, allowed_of_ensured checked, message, now, rfl⟩ (fun _ _ => ?_) fun _ _ => ⟨rfl, rfl⟩)
    exact wp_tracking_perform trivial (fun _ _ => ⟨rfl, rfl⟩) fun _ _ => ⟨rfl, rfl⟩

theorem resetForManualRetry_serves {job : JobObject} (fresh : job.expired = false) :
    serves env request (resetForManualRetry job) (fun r stage => match r with
      | .ok other => stage = .committed other.row ∧ other.expired = false
      | .error error => stage.raising request = true ∧ (stage.refusal = .faulted ∨
          stage = .loaded job.row ∧ job.row.status ≠ .failed ∧
            error = invalidTransition job.row.status .queued)) (.loaded job.row) := by
  simp only [resetForManualRetry, JobObject.attributes, fresh, Bool.false_eq_true, if_false]
  refine (wp_bind _ _ _ _ _).mpr ((wp_lift _ _ _ _).mpr ?_)
  refine (wp_bind _ _ _ _ _).mpr ((wp_lift _ _ _ _).mpr ?_)
  cases checked : ensureTransitionAllowed job.row.status .queued with
  | error error =>
    refine ⟨rfl, .inr ⟨rfl, ?_⟩⟩
    revert checked
    cases job.row.status <;> intro checked <;> cases checked <;>
      exact ⟨fun same => (by cases same), rfl⟩
  | ok _ =>
    refine wp_tracking_then trivial (fun now _ => ?_) fun _ impossible => impossible.elim
    refine (wp_bind _ _ _ _ _).mpr (wp_tracking_then ⟨rfl, allowed_of_ensured checked, now, rfl⟩
      (fun _ _ => ?_) fun _ _ => ⟨rfl, .inl rfl⟩)
    exact wp_tracking_perform trivial (fun _ _ => ⟨rfl, rfl⟩) fun _ _ => ⟨rfl, .inl rfl⟩

theorem publishJob_serves {job : JobObject} (fresh : job.expired = false) :
    serves env request (publishJob job) (fun r stage => match r with
      | .ok _ => stage = .published job.row
      | .error error => stage = .refused job.row ∧ error.isQueueError = true)
      (.committed job.row) := by
  simp only [publishJob, buildEvent, JobObject.attributes, fresh, Bool.false_eq_true, if_false]
  refine (wp_bind _ _ _ _ _).mpr ((wp_bind _ _ _ _ _).mpr ((wp_lift _ _ _ _).mpr ?_))
  refine wp_tracking_then trivial (fun eventId _ => ?_) fun _ impossible => impossible.elim
  refine (wp_tryCatch _ _ _ _ _).mpr (wp_tracking_perform ⟨_, rfl, rfl, rfl, rfl⟩
    (fun _ _ => rfl) fun error fault => ?_)
  have known : error.isRedisFault = true := fault
  simp only [known, if_true]
  exact ⟨rfl, rfl⟩

theorem publishOrFail_serves {job : JobObject} (message : String) (fresh : job.expired = false) :
    serves env request (publishOrFail job message) (fun r stage => match r with
      | .ok _ => stage = .published job.row
      | .error _ => stage.raising request = true ∧ stage.refusal = .faulted) (.committed job.row) := by
  refine (wp_tryCatch _ _ _ _ _).mpr ((wp_bind _ _ _ _ _).mpr
    (wp_mono _ ?_ (publishJob_serves env request fresh)))
  rintro (error | _) stage h
  · obtain ⟨rfl, queue⟩ := h
    simp only [queue, if_true]
    exact wp_seq _ (markFailed_serves env request message fresh) (fun _ _ h => h) fun _ _ h => h
  · exact h

theorem providedSession_serves {body : Prog ApiResponse}
    (h : serves env request body (concludes request) .opened) :
    serves env request (providedSession body) (fun r stage => match r with
      | .ok _ => ∃ row, stage = .answered row
      | .error error => ∃ why : Refusal, stage = .closed why ∧ why.raises request error)
      .start := by
  refine wp_tracking_then trivial (fun _ _ => ?_) fun _ impossible => impossible.elim
  refine (wp_andFinally _ _ _ _ _).mpr ((wp_tryCatch _ _ _ _ _).mpr (wp_mono _ ?_ h))
  rintro (error | response) stage ended
  · obtain ⟨open_, raises⟩ := ended
    refine wp_tracking_then ?_ (fun _ _ => ?_) fun other _ => ?_
    · cases stage <;> exact open_
    · have closing : stage.next (.db .rollback) (.ok ()) = .closing stage.refusal := by
        cases stage <;> rfl
      rw [closing]
      exact wp_tracking_perform trivial (fun _ _ => ⟨_, rfl, raises⟩)
        fun _ impossible => impossible.elim
    · have closing : stage.next (.db .rollback) (.error other) = .closing .faulted := by
        cases stage <;> rfl
      rw [closing]
      refine wp_tracking_perform trivial (fun _ _ => ⟨_, rfl, ?_⟩)
        fun _ impossible => impossible.elim
      cases request <;> trivial
  · obtain ⟨row, rfl⟩ := ended
    exact wp_tracking_perform trivial (fun _ _ => ⟨row, rfl⟩) fun _ impossible => impossible.elim

theorem concludes_faulted {error : Exn} {stage : RequestStage}
    (h : stage.raising request = true ∧ stage.refusal = .faulted) :
    concludes request (.error error) stage := by
  refine ⟨h.1, ?_⟩
  rw [h.2]
  cases request <;> trivial

theorem retryJob_serves (jobId : Nat) :
    serves env (.retry jobId) (retryJob jobId) (fun r stage => match r with
      | .ok _ => ∃ row, stage = .answered row
      | .error error => ∃ why : Refusal, stage = .closed why ∧ why.raises (.retry jobId) error)
      .start := by
  refine providedSession_serves env _ ?_
  refine wp_seq (R := fun r stage => match r with
    | .ok job => stage = .loaded job.row ∧ job.expired = false
    | .error error => concludes (.retry jobId) (.error error) stage) _ ?_ ?_ fun _ _ h => h
  · refine wp_tracking_then rfl (fun found _ => ?_) fun _ _ => concludes_faulted _ ⟨rfl, rfl⟩
    cases found with
    | none => exact ⟨rfl, rfl⟩
    | some pair => exact ⟨rfl, rfl⟩
  · rintro job _ ⟨rfl, fresh⟩
    refine wp_seq _ (resetForManualRetry_serves env _ fresh) ?_ ?_
    · rintro other _ ⟨rfl, fresh⟩
      exact wp_seq _ (publishOrFail_serves env _ _ fresh) (fun _ _ h => ⟨_, h⟩)
        fun _ _ h => concludes_faulted _ h
    · rintro error stage ⟨open_, faulted | ⟨rfl, rejected⟩⟩
      · exact concludes_faulted _ ⟨open_, faulted⟩
      · exact ⟨rfl, rejected⟩

theorem save_serves (file : UploadFile) (documentType : Option DocumentType) (data : Bytes)
    (extension : String) :
    serves env (.upload file documentType) (FileStorage.save env data extension)
      (fun r stage => match r with
        | .ok _ => stage = .stored
        | .error _ => stage.raising (.upload file documentType) = true ∧ stage.refusal = .faulted)
      .opened := by
  refine wp_tracking_then trivial (fun uuid _ => ?_) fun _ impossible => impossible.elim
  refine wp_tracking_then trivial (fun today _ => ?_) fun _ impossible => impossible.elim
  refine (wp_bind _ _ _ _ _).mpr ((wp_lift _ _ _ _).mpr ?_)
  cases FileStorage.resolve env.storageRoot
      (FileStorage.dateDirectory today ++ "/" ++ (uuidText uuid ++ extension)) with
  | error error => exact ⟨rfl, rfl⟩
  | ok destination =>
    refine (wp_bind _ _ _ _ _).mpr ((wp_tryCatch _ _ _ _ _).mpr
      (wp_tracking_perform rfl (fun _ _ => rfl) fun error _ => ?_))
    dsimp only
    split <;> exact ⟨rfl, rfl⟩

theorem createDocumentAndJob_serves (file : UploadFile) (documentType : Option DocumentType)
    (stored : StoredFile) (originalFilename contentType : String) :
    serves env (.upload file documentType)
      (createDocumentAndJob stored originalFilename contentType documentType
        env.settings.maxRetries)
      (fun r stage => match r with
        | .ok job => stage = .committed job.row ∧ job.expired = false
        | .error _ => stage.raising (.upload file documentType) = true ∧ stage.refusal = .faulted)
      .stored := by
  refine wp_tracking_then trivial (fun documentId _ => ?_) fun _ impossible => impossible.elim
  refine wp_tracking_then trivial (fun jobId _ => ?_) fun _ impossible => impossible.elim
  refine wp_tracking_then rfl (fun _ _ => ?_) fun _ _ => ⟨rfl, rfl⟩
  refine wp_tracking_then ⟨rfl, rfl, rfl, rfl, rfl, rfl⟩ (fun _ _ => ?_) fun _ _ => ⟨rfl, rfl⟩
  refine wp_tracking_then trivial (fun _ _ => ?_) fun _ _ => ⟨rfl, rfl⟩
  refine (wp_bind _ _ _ _ _).mpr (wp_tracking_then rfl (fun found _ => ?_) fun _ _ => ⟨rfl, rfl⟩)
  cases found with
  | none => exact ⟨rfl, rfl⟩
  | some pair =>
    refine wp_tracking_then trivial (fun document _ => ?_) fun _ _ => ⟨rfl, rfl⟩
    cases document with
    | none => exact ⟨rfl, rfl⟩
    | some document => exact ⟨rfl, rfl⟩

theorem uploadDocument_serves (file : UploadFile) (documentType : Option DocumentType) :
    serves env (.upload file documentType) (uploadDocument env file documentType)
      (fun r stage => match r with
        | .ok _ => ∃ row, stage = .answered row
        | .error error => ∃ why : Refusal, stage = .closed why ∧
            why.raises (.upload file documentType) error) .start := by
  refine providedSession_serves env _ ?_
  refine (wp_bind _ _ _ _ _).mpr ((wp_lift _ _ _ _).mpr ?_)
  cases env.uploadGate file with
  | error error => exact concludes_faulted _ ⟨rfl, rfl⟩
  | ok upload =>
    refine wp_seq _ (save_serves env file documentType _ _) ?_ fun _ _ h => concludes_faulted _ h
    rintro stored _ rfl
    refine wp_seq _ (createDocumentAndJob_serves env file documentType _ _ _) ?_
      fun _ _ h => concludes_faulted _ h
    rintro job _ ⟨rfl, fresh⟩
    exact wp_seq _ (publishOrFail_serves env _ _ fresh) (fun _ _ h => ⟨_, h⟩)
      fun _ _ h => concludes_faulted _ h

end Serves
end DocumentPipeline

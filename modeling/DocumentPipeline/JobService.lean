import DocumentPipeline.Operations

/-! Job lifecycle and persistence: the transition table, the conditional claim
and the marks. Each mark checks the table against the in-memory status, assigns
attributes, and flushes the changed columns by primary key. -/

namespace DocumentPipeline.JobService
open EffectProgram

def allowedTransitions : JobStatus → List JobStatus
  | .queued => [.processing, .failed]
  | .processing => [.completed, .retrying, .failed]
  | .retrying => [.processing, .failed]
  | .completed => []
  | .failed => [.queued]

def maxErrorMessageChars : Nat := 2000

def isTransitionAllowed (current target : JobStatus) : Bool := target ∈ allowedTransitions current

def invalidTransition (current target : JobStatus) : Exn :=
  .app { kind := .invalidJobTransition
         message := s!"Cannot move a job from {current.value} to {target.value}."
         details := [("from", current.value), ("to", target.value)] }

def ensureTransitionAllowed (current target : JobStatus) : Except Exn Unit :=
  if isTransitionAllowed current target then .ok () else .error (invalidTransition current target)

def truncateError (message : String) : String :=
  if message.length ≤ maxErrorMessageChars then message
  else String.ofList (message.toList.take maxErrorMessageChars) ++ "... [truncated]"

theorem allowed_ne {current target : JobStatus} (h : isTransitionAllowed current target = true) :
    target ≠ current := by
  revert h
  cases current <;> cases target <;> decide

theorem allowed_of_ensured {current target : JobStatus} {u : Unit}
    (h : ensureTransitionAllowed current target = .ok u) :
    isTransitionAllowed current target = true := by
  by_contra refused
  simp only [ensureTransitionAllowed, refused, if_false] at h
  cases h

/-- The columns a terminal mark stamps: the end of the attempt and, when it was
ever started, its duration. -/
def stampEnd (job : ProcessingJob) (now : Time) : ProcessingJob :=
  { job with
    completedAt := some now
    processingDurationMs := match job.startedAt with
      | none => job.processingDurationMs
      | some startedAt => some (elapsedMs startedAt now) }

def completedRow (job : ProcessingJob) (now : Time) : ProcessingJob :=
  { stampEnd job now with status := .completed, errorMessage := none }

def retryingRow (job : ProcessingJob) (errorMessage : String) : ProcessingJob :=
  { job with
    status := .retrying
    retryCount := job.retryCount + 1
    errorMessage := some (truncateError errorMessage) }

def failedRow (job : ProcessingJob) (errorMessage : String) (now : Time) : ProcessingJob :=
  { stampEnd job now with status := .failed, errorMessage := some (truncateError errorMessage) }

def requeuedRow (job : ProcessingJob) (now : Time) : ProcessingJob :=
  { job with
    status := .queued
    retryCount := 0
    errorMessage := none
    startedAt := none
    completedAt := none
    processingDurationMs := none
    consumerName := none
    queuedAt := now }

@[simp] theorem completedRow_status (job : ProcessingJob) (now : Time) :
    (completedRow job now).status = .completed := rfl

@[simp] theorem retryingRow_status (job : ProcessingJob) (message : String) :
    (retryingRow job message).status = .retrying := rfl

@[simp] theorem failedRow_status (job : ProcessingJob) (message : String) (now : Time) :
    (failedRow job message now).status = .failed := rfl

@[simp] theorem requeuedRow_status (job : ProcessingJob) (now : Time) :
    (requeuedRow job now).status = .queued := rfl

/-- The status always changes, so the flush always issues its UPDATE. -/
def flushAndCommit (loaded current : ProcessingJob) : Prog Unit := do
  sql (.updateJob loaded current)
  sql .commit

def jobNotFound (jobId : Nat) : Exn :=
  .app { kind := .notFound
         message := "No job exists with that ID."
         details := [("job_id", uuidText jobId)] }

def getJob (jobId : Nat) : Prog JobObject := do
  match ← sql (.selectJob jobId) with
  | none => throw (jobNotFound jobId)
  | some (row, document) => return { row, document }

def refreshFailed : Exn := .other "InvalidRequestError" "Could not refresh instance"

/-- `session.refresh(job)` re-reads the row of an instance, expired or not. -/
def refresh (job : JobObject) : Prog JobObject := do
  match ← sql (.selectJob job.row.id) with
  | none => throw refreshFailed
  | some (row, document) => return { row, document }

def refreshDocument (job : JobObject) : Prog JobObject := do
  match ← sql (.selectDocument job.row.documentId) with
  | none => throw refreshFailed
  | some document => return { job with document }

/-- `session.rollback()` expires every loaded instance. -/
def rollback (job : JobObject) : Prog JobObject := do
  sql .rollback
  return { job with expired := true }

def createDocumentAndJob (stored : StoredFile) (originalFilename contentType : String)
    (requestedDocumentType : Option DocumentType) (maxRetries : Int) : Prog JobObject := do
  let documentId ← uuid4
  let jobId ← uuid4
  let document : Document :=
    { originalFilename
      storedFilename := stored.storedFilename
      contentType
      fileSize := stored.size
      storagePath := stored.storagePath
      checksum := stored.checksum
      requestedDocumentType }
  let row : ProcessingJob :=
    { id := jobId, documentId, status := .queued, retryCount := 0, maxRetries
      errorMessage := none, queuedAt := 0, startedAt := none, completedAt := none
      processingDurationMs := none, consumerName := none, createdAt := 0 }
  sql (.insertDocument documentId document)
  sql (.insertJob row)
  sql .commit
  let job ← refresh { row, document }
  refreshDocument job

def claimJob (jobId : Nat) (consumerName : String) (staleAfterSeconds : Int) :
    Prog (Option JobObject) := do
  let now ← utcnow
  let staleCutoff := now - seconds staleAfterSeconds
  match ← sql (.executeClaim jobId consumerName now staleCutoff) with
  | none => do
    sql .rollback
    return none
  | some _ => do
    sql .commit
    let job ← getJob jobId
    return some job

/-- `mark_completed(commit=False)`: the caller commits. -/
def markCompleted (job : JobObject) : Prog JobObject := do
  let row ← Program.lift job.attributes
  Program.lift (ensureTransitionAllowed row.status .completed)
  let now ← utcnow
  return { job with row := completedRow row now }

def markRetrying (job : JobObject) (errorMessage : String) : Prog JobObject := do
  let row ← Program.lift job.attributes
  Program.lift (ensureTransitionAllowed row.status .retrying)
  let current := retryingRow row errorMessage
  flushAndCommit row current
  return { job with row := current }

def markFailed (job : JobObject) (errorMessage : String) : Prog JobObject := do
  let row ← Program.lift job.attributes
  Program.lift (ensureTransitionAllowed row.status .failed)
  let now ← utcnow
  let current := failedRow row errorMessage now
  flushAndCommit row current
  return { job with row := current }

def resetForManualRetry (job : JobObject) : Prog JobObject := do
  let row ← Program.lift job.attributes
  Program.lift (ensureTransitionAllowed row.status .queued)
  let now ← utcnow
  let current := requeuedRow row now
  flushAndCommit row current
  return { job with row := current }

end DocumentPipeline.JobService

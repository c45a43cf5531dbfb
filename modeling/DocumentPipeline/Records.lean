import DocumentPipeline.Core

/-! Rows of the three tables, the event carried on the stream and the outputs
of the language model. Identifiers are the numbers drawn for `uuid4`. -/

namespace DocumentPipeline

inductive Json
  | null
  | bool (value : Bool)
  | num (value : ℚ)
  | str (value : String)
  | arr (items : List Json)
  | obj (fields : List (String × Json))

structure Document where
  originalFilename : String
  storedFilename : String
  contentType : String
  fileSize : Nat
  storagePath : String
  checksum : String
  requestedDocumentType : Option DocumentType
  deriving DecidableEq

structure ProcessingJob where
  id : Nat
  documentId : Nat
  status : JobStatus
  retryCount : Int
  maxRetries : Int
  errorMessage : Option String
  queuedAt : Time
  startedAt : Option Time
  completedAt : Option Time
  processingDurationMs : Option Int
  consumerName : Option String
  createdAt : Time
  deriving DecidableEq

structure ExtractionResult where
  jobId : Nat
  detectedDocumentType : DocumentType
  extractedData : Json
  rawText : Text
  modelProvider : String
  modelName : String
  promptVersion : String
  inputTokens : Option Int
  outputTokens : Option Int
  confidenceScore : Option ℚ

/-- `UPDATE` of the columns whose value differs from the one loaded; the other
columns keep what the row holds when the statement runs. -/
def ProcessingJob.flushed (loaded current stored : ProcessingJob) : ProcessingJob :=
  { stored with
    status := if current.status = loaded.status then stored.status else current.status
    retryCount :=
      if current.retryCount = loaded.retryCount then stored.retryCount else current.retryCount
    errorMessage := if current.errorMessage = loaded.errorMessage then stored.errorMessage
      else current.errorMessage
    queuedAt := if current.queuedAt = loaded.queuedAt then stored.queuedAt else current.queuedAt
    startedAt :=
      if current.startedAt = loaded.startedAt then stored.startedAt else current.startedAt
    completedAt :=
      if current.completedAt = loaded.completedAt then stored.completedAt else current.completedAt
    processingDurationMs := if current.processingDurationMs = loaded.processingDurationMs
      then stored.processingDurationMs else current.processingDurationMs
    consumerName := if current.consumerName = loaded.consumerName then stored.consumerName
      else current.consumerName }

@[simp] theorem ProcessingJob.flushed_id (loaded current stored : ProcessingJob) :
    (loaded.flushed current stored).id = stored.id := rfl

theorem ProcessingJob.flushed_status {loaded current : ProcessingJob}
    (moved : current.status ≠ loaded.status) (stored : ProcessingJob) :
    (loaded.flushed current stored).status = current.status := if_neg moved

theorem ProcessingJob.flushed_self {loaded current : ProcessingJob} (id : current.id = loaded.id)
    (documentId : current.documentId = loaded.documentId)
    (maxRetries : current.maxRetries = loaded.maxRetries)
    (createdAt : current.createdAt = loaded.createdAt) : loaded.flushed current loaded = current := by
  obtain ⟨_, _, _, _, _, _, _, _, _, _, _, _⟩ := loaded
  obtain ⟨_, _, _, _, _, _, _, _, _, _, _, _⟩ := current
  simp only at id documentId maxRetries createdAt
  subst id documentId maxRetries createdAt
  simp only [flushed, mk.injEq, true_and, and_true]
  refine ⟨?_, ?_, ?_, ?_, ?_, ?_, ?_, ?_⟩ <;> split <;> simp_all

/-- An ORM instance of a job with its joined document. A rollback expires it,
and reading an expired attribute outside a refresh raises. -/
structure JobObject where
  row : ProcessingJob
  document : Document
  expired : Bool := false

def JobObject.attributes (job : JobObject) : Except Exn ProcessingJob :=
  if job.expired then .error (.missingGreenlet "greenlet_spawn has not been called")
  else .ok job.row

def eventVersion : Int := 1

structure DocumentProcessingEvent where
  eventId : Nat
  eventVersion : Int := DocumentPipeline.eventVersion
  jobId : Nat
  documentId : Nat
  storagePath : String
  requestedDocumentType : Option DocumentType
  attempt : Int := 0
  deriving DecidableEq

/-- A copy for the next delivery, under a fresh event id. -/
def DocumentProcessingEvent.nextAttempt (event : DocumentProcessingEvent) (eventId : Nat) :
    DocumentProcessingEvent :=
  { event with eventId, attempt := event.attempt + 1 }

/-- A stream entry handed to a consumer, with its redelivery history. -/
structure DeliveredEvent where
  messageId : Nat
  event : DocumentProcessingEvent
  deliveryCount : Nat := 1
  deriving DecidableEq

structure ExtractionOutput where
  documentType : DocumentType
  data : Json
  modelProvider : String
  modelName : String
  promptVersion : String
  inputTokens : Option Int := none
  outputTokens : Option Int := none
  confidenceScore : Option ℚ := none

structure ClassificationOutput where
  documentType : DocumentType
  confidenceScore : Option ℚ := none

inductive ProcessingOutcome
  | completed | skipped | retryScheduled | failed | deadLettered
  deriving DecidableEq, Repr

structure StoredFile where
  storedFilename : String
  storagePath : String
  size : Nat
  checksum : String

end DocumentPipeline

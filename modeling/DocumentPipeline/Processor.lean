import DocumentPipeline.JobService
import DocumentPipeline.Queue
import DocumentPipeline.RetryPolicy
import DocumentPipeline.FileStorage

/-! Processing a single event end to end, the consumer's `handle`, and the two
API requests that write job rows. -/

namespace DocumentPipeline
open EffectProgram

/-- `async with sessionmaker() as session`: closing drops an open transaction. -/
def withSession {α : Type} (body : Prog α) : Prog α := do
  sql .openSession
  body.andFinally (sql .closeSession)

namespace Processor
open JobService Queue RetryPolicy

def resolveType (env : Env) (event : DocumentProcessingEvent) (text : Text) :
    Prog DocumentType :=
  match event.requestedDocumentType with
  | some documentType => return documentType
  | none => do
    let sample := (truncate text env.settings.classificationMaxChars).1
    let classification ← runtime (.classify sample)
    return classification.documentType

/-- One transaction: the status, then the result that refers to it. -/
def flushResult (loaded current : ProcessingJob) (result : ExtractionResult) : Prog Unit := do
  sql (.updateJob loaded current)
  sql (.insertResult result)
  sql .commit

def persist (env : Env) (job : JobObject) (output : ExtractionOutput) (rawText : Text) :
    Prog Unit := do
  let storedText := (truncate rawText env.settings.rawTextStoreMaxChars).1
  let loaded ← Program.lift job.attributes
  let result : ExtractionResult :=
    { jobId := loaded.id
      detectedDocumentType := output.documentType
      extractedData := output.data
      rawText := storedText
      modelProvider := output.modelProvider
      modelName := output.modelName
      promptVersion := output.promptVersion
      inputTokens := output.inputTokens
      outputTokens := output.outputTokens
      confidenceScore := output.confidenceScore }
  let completed ← markCompleted job
  tryCatch (flushResult loaded completed.row result) fun error =>
    if error.isIntegrityError then do
      let job ← rollback completed
      -- the warning logs `job.id`, an attribute the rollback has expired
      let _ ← Program.lift job.attributes
      return ()
    else throw error

def run (env : Env) (job : JobObject) (event : DocumentProcessingEvent) :
    Prog ProcessingOutcome := do
  runtime .enterRun
  let data ← FileStorage.read env event.storagePath
  let extension := FileStorage.suffix job.document.storedFilename
  let text ← Program.lift (env.extractText data extension)
  let modelInput := (truncate text env.settings.llmMaxInputChars).1
  let documentType ← resolveType env event modelInput
  let output ← runtime (.extract modelInput documentType)
  persist env job output text
  return .completed

def failPermanently (job : JobObject) (message : String) : Prog ProcessingOutcome := do
  let _ ← markFailed job message
  return .failed

def retryLater (env : Env) (job : JobObject) (row : ProcessingJob)
    (event : DocumentProcessingEvent) (message : String) : Prog ProcessingOutcome := do
  let delay ← computeDelay row.retryCount env.settings
  let eventId ← uuid4
  let scheduled ← tryCatch (do
      scheduleRetry (event.nextAttempt eventId) delay
      return true) fun error =>
    if error.isQueueError then return false else throw error
  if scheduled then do
    let _ ← markRetrying job message
    return .retryScheduled
  else failPermanently job s!"{message} (retry could not be scheduled)"

def handleFailure (env : Env) (job : JobObject) (event : DocumentProcessingEvent) (error : Exn) :
    Prog ProcessingOutcome := do
  let job ← rollback job
  let job ← refresh job
  let message := describe error
  let row ← Program.lift job.attributes
  if shouldRetry error row.retryCount row.maxRetries then
    retryLater env job row event message
  else failPermanently job message

def redeliveredTooOften (deliveryCount : Nat) : String :=
  s!"Message redelivered {deliveryCount} times without completing; failed permanently."

def process (env : Env) (consumerName : String) (delivered : DeliveredEvent) :
    Prog ProcessingOutcome :=
  withSession do
    let event := delivered.event
    match ← claimJob event.jobId consumerName env.settings.staleProcessingSeconds with
    | none => return .skipped
    | some job =>
      if (delivered.deliveryCount : Int) > env.settings.maxDeliveryCount then do
        let _ ← markFailed job (redeliveredTooOften delivered.deliveryCount)
        return .deadLettered
      else
        tryCatch (run env job event) fun error => handleFailure env job event error

/-- `StreamConsumer.handle`: an exception leaves the entry unacknowledged. -/
def handle (env : Env) (consumerName : String) (delivered : DeliveredEvent) :
    Prog (Option ProcessingOutcome) := do
  let outcome ← tryCatch (do
      let outcome ← process env consumerName delivered
      return some outcome) fun _ => return none
  match outcome with
  | none => return none
  | some outcome => do
    ack delivered.messageId
    return some outcome

end Processor

namespace Routes
open JobService Queue

/-- `get_session`, with the rollback that its `except` issues. The `async for` of
`provide_session` does not throw into it, so in the source only the close ends
the transaction of a request that raises: its runs are those here in which the
rollback answers. -/
def providedSession {α : Type} (body : Prog α) : Prog α :=
  withSession (tryCatch body fun error => do
    sql .rollback
    throw error)

inductive ApiResponse
  | jobRetry (jobId : Nat) (status : JobStatus) (retryCount : Int)
  | uploadAccepted (documentId jobId : Nat) (status : JobStatus)
  deriving DecidableEq

/-- Publish, failing the job again when the stream refuses the event. -/
def publishOrFail (job : JobObject) (message : String) : Prog Unit :=
  tryCatch (do
    let _ ← publishJob job
    return ()) fun error =>
    if error.isQueueError then do
      let _ ← markFailed job message
      throw error
    else throw error

def retryJob (jobId : Nat) : Prog ApiResponse :=
  providedSession do
    let job ← getJob jobId
    let job ← resetForManualRetry job
    publishOrFail job "The job could not be re-queued for processing."
    return .jobRetry job.row.id job.row.status job.row.retryCount

/-- `file.content_type or "application/octet-stream"`. -/
def contentTypeOf (file : UploadFile) : String :=
  match file.contentType with
  | none | some "" => "application/octet-stream"
  | some contentType => contentType

def uploadDocument (env : Env) (file : UploadFile) (documentType : Option DocumentType) :
    Prog ApiResponse :=
  providedSession do
    let upload ← Program.lift (env.uploadGate file)
    let stored ← FileStorage.save env upload.data upload.extension
    let job ← createDocumentAndJob stored upload.filename (contentTypeOf file) documentType
      env.settings.maxRetries
    publishOrFail job "The document could not be queued for processing."
    return .uploadAccepted job.row.documentId job.row.id job.row.status

end Routes
end DocumentPipeline

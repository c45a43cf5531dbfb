import DocumentPipeline.Operations

/-! Publishing, consuming, acknowledging and retry scheduling. -/

namespace DocumentPipeline.Queue
open EffectProgram

def toStreamFields (event : DocumentProcessingEvent) : StreamFields :=
  { data := some (.event event) }

def publish (event : DocumentProcessingEvent) : Prog Nat :=
  redisCommand (.xadd (toStreamFields event)) "Failed to publish the processing event."

def scheduleRetry (event : DocumentProcessingEvent) (delaySeconds : ℚ) : Prog Unit := do
  let now ← utcnow
  redisCommand (.zadd (.event event) (now.timestamp + delaySeconds)) "Failed to schedule the retry."

/-- Members that no longer parse are dropped. -/
def decodeRetries (raw : List Payload) : List DocumentProcessingEvent :=
  raw.filterMap fun payload => match payload with
    | .event event => some event
    | .junk _ => none

def popDueRetries (limit : Nat) : Prog (List DocumentProcessingEvent) := do
  let now ← utcnow
  let raw ← redisCommand (.popDueRetries now.timestamp limit) "Failed to read the retry schedule."
  return decodeRetries raw

def ack (messageId : Nat) : Prog Unit :=
  redisCommand (.xack messageId) "Failed to acknowledge the message."

def malformedEvent (message : String) (details : List (String × String)) : Exn :=
  .app { kind := .malformedEvent, message, details }

def decodeOne (fields : StreamFields) : Except Exn DocumentProcessingEvent :=
  match fields.data with
  | none => .error (malformedEvent "Stream entry has no payload field." [])
  | some (.junk _) => .error (malformedEvent "Stream entry failed schema validation." [])
  | some (.event event) =>
    if event.eventVersion ≠ eventVersion then
      .error (malformedEvent s!"Unsupported event version {event.eventVersion}."
        [("expected", toString eventVersion)])
    else .ok event

def deliveryCountOf (deliveryCounts : List (Nat × Nat)) (messageId : Nat) : Nat :=
  (deliveryCounts.lookup messageId).getD 1

/-- Malformed entries are acknowledged and dropped on the way. -/
def decodeMessages (messages : List (Nat × StreamFields)) (deliveryCounts : List (Nat × Nat)) :
    Prog (List DeliveredEvent) :=
  match messages with
  | [] => return []
  | (messageId, fields) :: rest =>
    match decodeOne fields with
    | .error _ => do
      ack messageId
      decodeMessages rest deliveryCounts
    | .ok event => do
      let others ← decodeMessages rest deliveryCounts
      return { messageId, event, deliveryCount := deliveryCountOf deliveryCounts messageId }
        :: others

def read (env : Env) (consumerName : String) : Prog (List DeliveredEvent) := do
  let messages ← redisCommand (.xreadgroup consumerName env.settings.redisReadCount)
    "Failed to read from the stream."
  decodeMessages messages []

/-- XPENDING reports the deliveries so far; the XCLAIM after it adds one more. -/
def claimStale (env : Env) (consumerName : String) : Prog (List DeliveredEvent) := do
  let pending ← redisCommand
    (.xpendingRange env.settings.redisReadCount env.settings.pendingMinIdleMs)
    "Failed to claim pending messages."
  match pending with
  | [] => return []
  | pending => do
    let deliveryCounts := pending.map fun entry => (entry.1, entry.2 + 1)
    let claimed ← redisCommand
      (.xclaim consumerName env.settings.pendingMinIdleMs (deliveryCounts.map (·.1)))
      "Failed to claim pending messages."
    decodeMessages claimed deliveryCounts

/-- `publisher.build_event`. -/
def buildEvent (job : JobObject) : Prog DocumentProcessingEvent := do
  let row ← Program.lift job.attributes
  let eventId ← uuid4
  return { eventId
           jobId := row.id
           documentId := row.documentId
           storagePath := job.document.storagePath
           requestedDocumentType := job.document.requestedDocumentType }

/-- `publisher.publish_job`. -/
def publishJob (job : JobObject) : Prog Nat := do
  let event ← buildEvent job
  publish event

end DocumentPipeline.Queue

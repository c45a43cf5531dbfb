import Mathlib.Data.Rat.Defs
import Mathlib.Algebra.Order.Field.Rat
import Mathlib.Tactic.NormNum

/-! Enumerations, the exception hierarchy, the settings and the clock.
Timestamps are microseconds, the resolution of Python's aware datetimes; a
float of the source is a rational. Rounding of floats is outside the model. -/

namespace DocumentPipeline

inductive JobStatus
  | queued | processing | retrying | completed | failed
  deriving DecidableEq, Repr

def JobStatus.value : JobStatus → String
  | .queued => "queued"
  | .processing => "processing"
  | .retrying => "retrying"
  | .completed => "completed"
  | .failed => "failed"

/-- States from which a worker may claim a job. -/
def claimableStatuses : List JobStatus := [.queued, .retrying]

inductive DocumentType
  | invoice | resume | supportTicket | generic
  deriving DecidableEq, Repr

/-- The classes of `app.core.exceptions` below `AppError`. -/
inductive AppErrorClass
  | notFound | validationFailed | fileTooLarge | unsupportedFileType | dependencyUnavailable
  | storage | storagePath | textExtraction | emptyDocument
  | llm | llmRateLimit | llmTimeout | llmProvider | llmAuthentication | llmResponseValidation
  | llmConfiguration | queue | malformedEvent | invalidJobTransition
  deriving DecidableEq, Repr

def AppErrorClass.code : AppErrorClass → String
  | .notFound => "not_found"
  | .validationFailed => "validation_failed"
  | .fileTooLarge => "file_too_large"
  | .unsupportedFileType => "unsupported_file_type"
  | .dependencyUnavailable => "dependency_unavailable"
  | .storage => "storage_error"
  | .storagePath => "invalid_storage_path"
  | .textExtraction => "text_extraction_failed"
  | .emptyDocument => "empty_document"
  | .llm => "llm_error"
  | .llmRateLimit => "llm_rate_limited"
  | .llmTimeout => "llm_timeout"
  | .llmProvider => "llm_provider_error"
  | .llmAuthentication => "llm_authentication_failed"
  | .llmResponseValidation => "llm_invalid_response"
  | .llmConfiguration => "llm_not_configured"
  | .queue => "queue_error"
  | .malformedEvent => "malformed_event"
  | .invalidJobTransition => "invalid_job_transition"

def AppErrorClass.retryable : AppErrorClass → Bool
  | .dependencyUnavailable | .storage | .llmRateLimit | .llmTimeout | .llmProvider | .queue => true
  | _ => false

structure AppError where
  kind : AppErrorClass
  message : String
  details : List (String × String) := []
  deriving DecidableEq, Repr

/-- Subclasses of SQLAlchemy's `DBAPIError`. -/
inductive DbapiClass
  | integrity | operational | data | programming | interface | internal | notSupported
  deriving DecidableEq, Repr

def DbapiClass.name : DbapiClass → String
  | .integrity => "IntegrityError"
  | .operational => "OperationalError"
  | .data => "DataError"
  | .programming => "ProgrammingError"
  | .interface => "InterfaceError"
  | .internal => "InternalError"
  | .notSupported => "NotSupportedError"

/-- A raised exception; `text` is its `str()`. -/
inductive Exn
  | app (error : AppError)
  | dbapi (kind : DbapiClass) (text : String)
  | disconnection (text : String)
  | connection (text : String)
  | timeout (text : String)
  | fileNotFound (text : String)
  | os (text : String)
  | redis (text : String)
  | missingGreenlet (text : String)
  | overflow (text : String)
  | other (typeName text : String)
  deriving DecidableEq, Repr

namespace Exn

def queueError (message : String) : Exn := .app { kind := .queue, message }

/-- `except QueueError`. -/
def isQueueError : Exn → Bool
  | .app error => error.kind = .queue
  | _ => false

/-- `except IntegrityError`. -/
def isIntegrityError : Exn → Bool
  | .dbapi .integrity _ => true
  | _ => false

/-- `OSError`, which the builtin connection and timeout errors derive from. -/
def isOSError : Exn → Bool
  | .os _ | .fileNotFound _ | .connection _ | .timeout _ => true
  | _ => false

/-- `except (RedisError, OSError)`. -/
def isRedisFault : Exn → Bool
  | .redis _ => true
  | error => error.isOSError

def typeName : Exn → String
  | .app _ => "AppError"
  | .dbapi kind _ => kind.name
  | .disconnection _ => "DisconnectionError"
  | .connection _ => "ConnectionError"
  | .timeout _ => "TimeoutError"
  | .fileNotFound _ => "FileNotFoundError"
  | .os _ => "OSError"
  | .redis _ => "RedisError"
  | .missingGreenlet _ => "MissingGreenlet"
  | .overflow _ => "OverflowError"
  | .other name _ => name

def text : Exn → String
  | .app error => error.message
  | .dbapi _ text | .disconnection text | .connection text | .timeout text | .fileNotFound text
  | .os text | .redis text | .missingGreenlet text | .overflow text | .other _ text => text

end Exn

theorem defaultJitter_checked : 0 ≤ (1 / 5 : ℚ) ∧ (1 / 5 : ℚ) ≤ 1 := by norm_num

/-- The settings the pipeline reads. `jitter_checked` is the validator
`_check_jitter`; no other field modelled here is validated. -/
structure Settings where
  redisReadCount : Int := 1
  maxRetries : Int := 3
  retryBaseDelaySeconds : ℚ := 2
  retryMaxDelaySeconds : ℚ := 60
  retryJitterRatio : ℚ := 1 / 5
  pendingMinIdleMs : Int := 60000
  maxDeliveryCount : Int := 5
  staleProcessingSeconds : Int := 600
  llmMaxInputChars : Int := 40000
  classificationMaxChars : Int := 2000
  rawTextStoreMaxChars : Int := 20000
  jitter_checked : 0 ≤ retryJitterRatio ∧ retryJitterRatio ≤ 1 := by
    first | exact defaultJitter_checked | norm_num

abbrev Time := Int

def seconds (n : Int) : Time := n * 1000000

def millis (n : Int) : Time := n * 1000

/-- `datetime.timestamp()`, in seconds. -/
def Time.timestamp (t : Time) : ℚ := (t : ℚ) / 1000000

/-- Whole milliseconds between two instants, never negative. The quotient is
exact here; the source rounds through a float, which can be one millisecond less
(1.001 s gives 1000 there). -/
def elapsedMs (start stop : Time) : Int := max 0 ((stop - start) / 1000)

theorem elapsedMs_nonneg (start stop : Time) : 0 ≤ elapsedMs start stop := le_max_left _ _

abbrev Bytes := List UInt8

abbrev Text := List Char

/-- Python's `items[:n]`; a negative `n` counts from the end. -/
def pySlice {α : Type} (items : List α) (n : Int) : List α :=
  if 0 ≤ n then items.take n.toNat else items.take (items.length + n).toNat

/-- Clip text to a character budget, reporting whether anything was cut. -/
def truncate (text : Text) (maxChars : Int) : Text × Bool :=
  if (text.length : Int) ≤ maxChars then (text, false) else (pySlice text maxChars, true)

end DocumentPipeline

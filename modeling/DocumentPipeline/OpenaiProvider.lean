import DocumentPipeline.ExtractionSchemas
import DocumentPipeline.Lib.Program

/-! Classification and extraction through the OpenAI SDK: one request, one
repair request when the answer is unusable, and the translation of the SDK's
failures into the application's hierarchy. Pydantic's validators and the SDK's
`parse` are the interface; what the code does with their answers is here. -/

namespace DocumentPipeline
open EffectProgram

/-- The classes below `openai.APIError`. -/
inductive ApiErrorClass
  | apiError | apiResponseValidationError
  | apiStatusError | badRequestError | authenticationError | permissionDeniedError | notFoundError
  | conflictError | unprocessableEntityError | rateLimitError | internalServerError
  | apiConnectionError | apiTimeoutError
  deriving DecidableEq

namespace ApiErrorClass

def isRateLimitError (cls : ApiErrorClass) : Bool := cls = .rateLimitError

def isTimeoutError (cls : ApiErrorClass) : Bool := cls = .apiTimeoutError

def isAuthenticationError (cls : ApiErrorClass) : Bool := cls = .authenticationError

/-- A timeout is a connection error too. -/
def isConnectionError (cls : ApiErrorClass) : Bool := cls = .apiConnectionError || cls = .apiTimeoutError

def admits : ApiErrorClass → Option Nat → Prop
  | .apiError, status | .apiConnectionError, status | .apiTimeoutError, status => status = none
  | .apiResponseValidationError, status | .apiStatusError, status => status.isSome = true
  | .badRequestError, status => status = some 400
  | .authenticationError, status => status = some 401
  | .permissionDeniedError, status => status = some 403
  | .notFoundError, status => status = some 404
  | .conflictError, status => status = some 409
  | .unprocessableEntityError, status => status = some 422
  | .rateLimitError, status => status = some 429
  | .internalServerError, status => ∃ code, status = some code ∧ 500 ≤ code

end ApiErrorClass

structure ApiError where
  cls : ApiErrorClass
  statusCode : Option Nat
  admitted : cls.admits statusCode

/-- `_map_openai_error`. -/
def mapOpenaiError (error : ApiError) : AppError :=
  let provider := ("provider", "openai")
  let status := ("status_code", (error.statusCode.map toString).getD "None")
  if error.cls.isRateLimitError then
    { kind := .llmRateLimit, message := "The language model provider rate-limited the request."
      details := [provider] }
  else if error.cls.isTimeoutError then
    { kind := .llmTimeout, message := "The language model request timed out.", details := [provider] }
  else if error.cls.isAuthenticationError then
    { kind := .llmAuthentication
      message := "The language model provider rejected the API credentials."
      details := [provider] }
  else if error.cls.isConnectionError then
    { kind := .llmProvider, message := "Could not reach the language model provider."
      details := [provider] }
  else if error.statusCode = some 429 then
    { kind := .llmRateLimit, message := "The language model provider rate-limited the request."
      details := [provider, status] }
  else if error.statusCode = some 401 ∨ error.statusCode = some 403 then
    { kind := .llmAuthentication
      message := "The language model provider rejected the API credentials."
      details := [provider, status] }
  else
    { kind := .llmProvider, message := "The language model provider returned an error."
      details := [provider, status] }

inductive ChatRole
  | system | user | assistant
  deriving DecidableEq

structure ChatMessage where
  role : ChatRole
  content : String
  deriving DecidableEq

/-- What `message.parsed` may hold. -/
inductive Parsed
  | model (cls : ModelClass) (value : Instance cls)
  | value (data : Json)

structure CompletionMessage where
  refusal : Option String := none
  parsed : Option Parsed := none
  content : Option String := none

structure Usage where
  promptTokens : Option Int
  completionTokens : Option Int

structure Completion where
  choices : List CompletionMessage
  usage : Option Usage := none

/-- `model_validate` and `model_validate_json`; a `ValidationError` has a text. -/
structure Pydantic where
  validate : (cls : ModelClass) → Parsed → Except String (Instance cls)
  validateJson : (cls : ModelClass) → String → Except String (Instance cls)

/-- The SDK errors that `_complete` catches. -/
inductive SdkError
  | lengthFinishReason
  | contentFilterFinishReason
  | api (error : ApiError)

/-- What a provider awaits; `maybeFail` is the injected failure of the fake one. -/
inductive ProviderOp
  | parse (messages : List ChatMessage) (responseFormat : ModelClass)
  | maybeFail

@[reducible] def ProviderOp.Val : ProviderOp → Type
  | .parse _ _ => Except SdkError Completion
  | .maybeFail => Unit

abbrev ProviderProg (α : Type) := Program ProviderOp ProviderOp.Val Exn α

def stoppedEarly (operation reason : String) : Exn :=
  .app { kind := .llmResponseValidation
         message := "The language model stopped before producing a valid response."
         details := [("operation", operation), ("reason", reason)] }

/-- The `except` clauses of `_complete`. -/
def SdkError.exn (operation : String) : SdkError → Exn
  | .lengthFinishReason => stoppedEarly operation "LengthFinishReasonError"
  | .contentFilterFinishReason => stoppedEarly operation "ContentFilterFinishReasonError"
  | .api error => .app (mapOpenaiError error)

namespace Prompts

def promptVersion : String := "v1"

def extractSystem : String := "You extract structured data from documents.\n\nRules:\n" ++
  "- Extract only facts the document supports.\n" ++
  "- Return null for any field that is absent or unclear. Never invent values.\n" ++
  "- Return every field in the schema; use null rather than omitting a key.\n" ++
  "- confidence_score is your self-reported confidence on a 0 to 1 scale. It is a hint, not a " ++
  "calibrated probability.\n"

def classifySystem : String := "You classify a document into exactly one of these types: invoice, " ++
  "resume, support_ticket, generic.\n\nRules:\n" ++
  "- Choose the single best match from the document content.\n" ++
  "- Use generic when none of the other types clearly apply.\n" ++
  "- confidence_score is your self-reported confidence on a 0 to 1 scale.\n"

def typeHint : DocumentType → String
  | .invoice => "This document is an invoice. Extract vendor, amounts, dates and line items."
  | .resume => "This document is a resume or CV. Extract the candidate, skills, education and " ++
    "experience."
  | .supportTicket => "This document is a support ticket. Extract the subject, customer, priority, " ++
    "sentiment and requested action."
  | .generic => "Extract a title, short summary, key entities, important dates and action items."

def classificationMessages (text : Text) : List ChatMessage :=
  [⟨.system, classifySystem⟩,
    ⟨.user, s!"Classify the following document.\n\n---\n{String.ofList text}\n---"⟩]

def extractionMessages (text : Text) (documentType : DocumentType) : List ChatMessage :=
  [⟨.system, extractSystem⟩,
    ⟨.user, s!"{typeHint documentType}\n\nDocument type: {documentType.value}\n\n---\n" ++
      s!"{String.ofList text}\n---"⟩]

def repairUserMessage : String := "Your previous response did not satisfy the schema. Return a " ++
  "corrected JSON object that matches the schema exactly. Use null for missing fields. Do not invent " ++
  "values."

end Prompts

namespace OpenaiProvider
open Prompts

variable (pydantic : Pydantic) (model : String)

/-- Python's truth of an optional text. -/
def truthy (text : Option String) : Option String := text.filter (· ≠ "")

/-- `_parsed_model`: `none` when repair is needed. -/
def parsedModel (completion : Completion) (responseFormat : ModelClass) :
    Option (Instance responseFormat) :=
  match completion.choices with
  | [] => none
  | message :: _ =>
    if (truthy message.refusal).isSome then none
    else match message.parsed with
      | some (.model cls value) =>
        if same : cls = responseFormat then some (same ▸ value)
        else (pydantic.validate responseFormat (.model cls value)).toOption
      | some parsed => (pydantic.validate responseFormat parsed).toOption
      | none => match truthy message.content with
        | none => none
        | some content => (pydantic.validateJson responseFormat content).toOption

def assistantText (completion : Completion) : String :=
  match completion.choices with
  | [] => ""
  | message :: _ => (truthy message.content).getD (message.refusal.getD "")

/-- `client.chat.completions.parse`, with the errors that are caught as values. -/
def request (messages : List ChatMessage) (responseFormat : ModelClass) :
    ProviderProg (Except SdkError Completion) :=
  Program.perform (ProviderOp.parse messages responseFormat)

def complete (messages : List ChatMessage) (responseFormat : ModelClass) (operation : String) :
    ProviderProg Completion := do
  match ← request messages responseFormat with
  | .ok completion => return completion
  | .error fault => throw (fault.exn operation)

def responseInvalid (operation : String) : AppError where
  kind := .llmResponseValidation
  message := "The language model returned a response that failed schema validation after one " ++
    "repair attempt."
  details := [("operation", operation), ("model", model)]

def repairMessages (messages : List ChatMessage) (completion : Completion) : List ChatMessage :=
  messages ++ [⟨.assistant, assistantText completion⟩, ⟨.user, repairUserMessage⟩]

/-- `_parse`: once, then once more if the first response is unusable. -/
def parse (messages : List ChatMessage) (responseFormat : ModelClass) (operation : String) :
    ProviderProg (Instance responseFormat × Option Usage) := do
  let completion ← complete messages responseFormat operation
  match parsedModel pydantic completion responseFormat with
  | some parsed => return (parsed, completion.usage)
  | none => do
    let repaired ← complete (repairMessages messages completion) responseFormat operation
    match parsedModel pydantic repaired responseFormat with
    | some parsed => return (parsed, repaired.usage)
    | none => throw (.app (responseInvalid model operation))

def usageInput (usage : Option Usage) : Option Int := usage.bind (·.promptTokens)

def usageOutput (usage : Option Usage) : Option Int := usage.bind (·.completionTokens)

/-- The token counts of a classification are logged nowhere and not kept. -/
def classificationOutput (answer : Instance .documentClassification × Option Usage) :
    ClassificationOutput where
  documentType := answer.1.documentType
  confidenceScore := answer.1.data.score?

def classify (text : Text) : ProviderProg ClassificationOutput := do
  let answer ← parse pydantic model (classificationMessages text) .documentClassification "classify"
  return classificationOutput answer

def extractionOutput (documentType : DocumentType)
    (answer : Instance (schemaRegistry documentType) × Option Usage) : ExtractionOutput where
  documentType
  data := answer.1.data
  modelProvider := "openai"
  modelName := model
  promptVersion
  inputTokens := usageInput answer.2
  outputTokens := usageOutput answer.2
  confidenceScore := answer.1.data.score?

def extract (text : Text) (documentType : DocumentType) : ProviderProg ExtractionOutput := do
  let answer ← parse pydantic model (extractionMessages text documentType)
    (schemaRegistry documentType) "extract"
  return extractionOutput model documentType answer

end OpenaiProvider
end DocumentPipeline

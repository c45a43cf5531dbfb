import DocumentPipeline.FakeProvider
import DocumentPipeline.AttemptProtocol

/-! The result rows of an attempt: of the type that was asked for or classified,
valid under the schema of that type, and with a score in range, whatever the
model answers and whatever the other calls do. -/

namespace DocumentPipeline
open EffectProgram JobService Processor

inductive LlmProvider
  | openai (pydantic : Pydantic) (model : String)
  | fake (pydantic : Pydantic) (lower : PyText.Text → PyText.Text)

namespace LlmProvider

def classify : LlmProvider → Text → ProviderProg ClassificationOutput
  | .openai pydantic model, text => OpenaiProvider.classify pydantic model text
  | .fake _ lower, text => FakeProvider.classify lower text

def extract : LlmProvider → Text → DocumentType → ProviderProg ExtractionOutput
  | .openai pydantic model, text, documentType =>
    OpenaiProvider.extract pydantic model text documentType
  | .fake pydantic lower, text, documentType =>
    FakeProvider.extract pydantic lower text documentType

def answers (provider : LlmProvider) : (o : Op) → Except Exn o.Val → Prop
  | .runtime (.classify text), r => (provider.classify text).Reaches r
  | .runtime (.extract text documentType), r => (provider.extract text documentType).Reaches r
  | _, _ => True

end LlmProvider

/-- What a result row says of its extraction. -/
structure ValidExtraction (documentType : DocumentType) (data : Json) (confidence : Option ℚ) :
    Prop where
  data : (schemaRegistry documentType).Validates data
  confidence : ∃ score, confidence = some score ∧ 0 ≤ score ∧ score ≤ 1

theorem Instance.validExtraction {documentType : DocumentType}
    (answer : Instance (schemaRegistry documentType)) :
    ValidExtraction documentType answer.data answer.data.score? :=
  ⟨answer.validates, answer.validates.score⟩

/-- Whatever the model answers, an extraction that is returned is valid and of
the type that was asked for. -/
theorem LlmProvider.extract_valid {provider : LlmProvider} {text : Text} {documentType : DocumentType}
    {output : ExtractionOutput}
    (returned : (provider.extract text documentType).Reaches (.ok output)) :
    output.documentType = documentType ∧
      ValidExtraction documentType output.data output.confidenceScore := by
  cases provider with
  | openai pydantic model =>
    obtain ⟨answer, rfl⟩ := returned.of_map
    exact ⟨rfl, answer.1.validExtraction⟩
  | fake pydantic lower =>
    have sound : wp .free (FakeProvider.extract pydantic lower text documentType)
        (fun r _ => ∀ output, r = .ok output → output.documentType = documentType ∧
          ValidExtraction documentType output.data output.confidenceScore) () := by
      refine wp_seq _ (wp_free_true _) (fun _ _ _ => ?_) fun _ _ _ _ same => by cases same
      refine wp_seq _ (wp_free_true _) (fun payload _ _ => ?_) fun _ _ _ _ same => by cases same
      cases pydantic.validate (schemaRegistry documentType) (.value payload) with
      | error message => exact fun _ same => by cases same
      | ok answer =>
        intro output same
        cases same
        exact ⟨rfl, answer.validExtraction⟩
    exact returned.post sound output rfl

structure ResultLog where
  document : Option Bytes := none
  classified : Option (Text × DocumentType) := none
  pending : Option ExtractionResult := none

/-- The text that is classified: what the model is sent, clipped again. -/
def classificationSample (env : Env) (text : Text) : Text :=
  (truncate (truncate text env.settings.llmMaxInputChars).1 env.settings.classificationMaxChars).1

/-- The type a result is stored under. -/
def TypeResolved (env : Env) (event : DocumentProcessingEvent) (log : ResultLog)
    (documentType : DocumentType) : Prop :=
  match event.requestedDocumentType with
  | some requested => documentType = requested
  | none => ∃ data extension text, log.document = some data ∧
    env.extractText data extension = .ok text ∧
      log.classified = some (classificationSample env text, documentType)

structure RightResult (env : Env) (event : DocumentProcessingEvent) (log : ResultLog)
    (result : ExtractionResult) : Prop where
  resolved : TypeResolved env event log result.detectedDocumentType
  valid : ValidExtraction result.detectedDocumentType result.extractedData result.confidenceScore

namespace ResultLog

def permits (env : Env) (event : DocumentProcessingEvent) (log : ResultLog) : Op → Prop
  | .db .commit => ∀ result, log.pending = some result → RightResult env event log result
  | _ => True

def next (log : ResultLog) : (o : Op) → Except Exn o.Val → ResultLog
  | .runtime (.readBytes _), .ok data => { log with document := some data }
  | .runtime (.classify text), .ok output => { log with classified := some (text, output.documentType) }
  | .db (.insertResult result), .ok _ => { log with pending := some result }
  | .db .commit, _ | .db .rollback, _ | .db .closeSession, _ | .db _, .error _ =>
    { log with pending := none }
  | _, _ => log

end ResultLog

def carriesContent : Op → Prop
  | .runtime (.readBytes _) | .runtime (.classify _) | .runtime (.extract _ _)
  | .db (.insertResult _) => True
  | _ => False

def beyondBookkeeping : Op → Prop
  | .redis (.xack _) => True
  | o => carriesContent o

theorem carriesContent_beyond (o : Op) (carries : carriesContent o) : beyondBookkeeping o := by
  unfold beyondBookkeeping
  split
  · trivial
  · exact carries

abbrev resultsOf (env : Env) (provider : LlmProvider) (event : DocumentProcessingEvent) :
    Protocol Op Op.Val Exn ResultLog :=
  .tracking (ResultLog.permits env event) provider.answers ResultLog.next

section Quiet
variable {env : Env} {provider : LlmProvider} {event : DocumentProcessingEvent}

theorem claimJob_quiet (jobId : Nat) (consumerName : String) (stale : Int) :
    (claimJob jobId consumerName stale).Avoids beyondBookkeeping := by
  refine .bind (.perform nofun) fun now => .bind (.perform nofun) fun claimed => ?_
  cases claimed with
  | none => exact .bind (.perform nofun) fun _ => trivial
  | some id =>
    refine .bind (.perform nofun) fun _ => .bind (.bind (.perform nofun) fun found => ?_) fun _ => trivial
    cases found <;> trivial

theorem flushAndCommit_quiet (loaded current : ProcessingJob) :
    (flushAndCommit loaded current).Avoids beyondBookkeeping :=
  .bind (.perform nofun) fun _ => .perform nofun

theorem markFailed_quiet (job : JobObject) (message : String) :
    (markFailed job message).Avoids beyondBookkeeping :=
  .bind (.lift _) fun _ => .bind (.lift _) fun _ => .bind (.perform nofun) fun _ =>
    .bind (flushAndCommit_quiet _ _) fun _ => trivial

theorem markRetrying_quiet (job : JobObject) (message : String) :
    (markRetrying job message).Avoids beyondBookkeeping :=
  .bind (.lift _) fun _ => .bind (.lift _) fun _ => .bind (flushAndCommit_quiet _ _) fun _ => trivial

theorem redisCommand_quiet {o : RedisOp} (within : ¬beyondBookkeeping (.redis o)) (message : String) :
    (redisCommand o message).Avoids beyondBookkeeping := by
  refine .tryCatch (.perform within) fun error => ?_
  split <;> trivial

theorem computeDelay_quiet (attempt : Int) (settings : Settings) :
    (RetryPolicy.computeDelay attempt settings).Avoids beyondBookkeeping := by
  refine .bind (.lift _) fun _ => ?_
  split
  · trivial
  · exact .bind (.perform nofun) fun _ => trivial

theorem retryLater_quiet (job : JobObject) (row : ProcessingJob) (message : String) :
    (retryLater env job row event message).Avoids beyondBookkeeping := by
  refine .bind (computeDelay_quiet _ _) fun delay => .bind (.perform nofun) fun eventId =>
    .bind (.tryCatch (.bind (.bind (.perform nofun) fun _ => redisCommand_quiet (by exact nofun) _) fun _ => trivial)
      fun error => ?_) fun scheduled => ?_
  · split <;> trivial
  · split
    · exact .bind (markRetrying_quiet _ _) fun _ => trivial
    · exact .bind (markFailed_quiet _ _) fun _ => trivial

theorem handleFailure_quiet (job : JobObject) (error : Exn) :
    (handleFailure env job event error).Avoids beyondBookkeeping := by
  refine .bind (.bind (.perform nofun) fun _ => trivial) fun job =>
    .bind (.bind (.perform nofun) fun found => ?_) fun job => .bind (.lift _) fun row => ?_
  · cases found <;> trivial
  · split
    · exact retryLater_quiet _ _ _
    · exact .bind (markFailed_quiet _ _) fun _ => trivial

theorem wp_quiet {α : Type} {p : Prog α} (quiet : p.Avoids carriesContent) {log : ResultLog}
    (clean : log.pending = none) :
    wp (resultsOf env provider event) p (fun _ log' => log'.pending = none) log := by
  refine quiet.wp (fun log o clean _ => ?_) (fun log o reply _ clean other moved => ?_) clean
  · simp only [Protocol.tracking, ResultLog.permits]
    split
    · exact fun result pending => by cases clean.symm.trans pending
    · trivial
  · obtain ⟨-, rfl⟩ := moved
    unfold ResultLog.next
    split <;> first | exact clean | rfl | exact absurd trivial other

end Quiet

section Attempts
variable {env : Env} {provider : LlmProvider} {event : DocumentProcessingEvent}

theorem read_results {log : ResultLog} (clean : log.pending = none) (path : String) :
    wp (resultsOf env provider event) (FileStorage.read env path) (fun r log' =>
      log'.pending = none ∧ ∀ data, r = .ok data → log'.document = some data) log := by
  refine (wp_bind _ _ _ _ _).mpr ((wp_lift _ _ _ _).mpr ?_)
  cases FileStorage.resolve env.storageRoot path with
  | error error => exact ⟨clean, nofun⟩
  | ok target =>
    refine (wp_tryCatch _ _ _ _ _).mpr (wp_tracking_perform trivial (fun data _ => ⟨clean, ?_⟩)
      fun error _ => ?_)
    · rintro _ ⟨⟩
      rfl
    · simp only
      split
      · exact ⟨clean, nofun⟩
      · split <;> exact ⟨clean, nofun⟩

theorem resolveType_results {log : ResultLog} (clean : log.pending = none) {data : Bytes}
    {extension : String} {text : Text} (read : log.document = some data)
    (extracted : env.extractText data extension = .ok text) :
    wp (resultsOf env provider event)
      (resolveType env event (truncate text env.settings.llmMaxInputChars).1) (fun r log' =>
        log'.pending = none ∧ ∀ documentType, r = .ok documentType →
          TypeResolved env event log' documentType) log := by
  unfold resolveType
  cases requested : event.requestedDocumentType with
  | some documentType =>
    refine ⟨clean, fun _ same => ?_⟩
    cases same
    simp only [TypeResolved, requested]
  | none =>
    refine wp_tracking_then trivial (fun output _ => ⟨clean, fun _ same => ?_⟩) fun _ _ => ⟨clean, nofun⟩
    cases same
    simp only [TypeResolved, requested]
    exact ⟨data, extension, text, read, extracted, rfl⟩

theorem flushResult_results {log : ResultLog} (loaded current : ProcessingJob)
    {result : ExtractionResult} (right : RightResult env event log result) :
    wp (resultsOf env provider event) (flushResult loaded current result)
      (fun _ log' => log'.pending = none) { log with pending := none } := by
  refine wp_tracking_then trivial (fun _ _ => ?_) fun _ _ => rfl
  refine wp_tracking_then trivial (fun _ _ => ?_) fun _ _ => rfl
  refine wp_tracking_perform (fun _ pending => ?_) (fun _ _ => rfl) fun _ _ => rfl
  cases pending
  exact ⟨right.resolved, right.valid⟩

theorem persist_results {log : ResultLog} (clean : log.pending = none) (job : JobObject)
    {output : ExtractionOutput} (rawText : Text)
    (resolved : TypeResolved env event log output.documentType)
    (valid : ValidExtraction output.documentType output.data output.confidenceScore) :
    wp (resultsOf env provider event) (persist env job output rawText)
      (fun _ log' => log'.pending = none) log := by
  have start : log = { log with pending := none } := by rw [← clean]
  refine (wp_bind _ _ _ _ _).mpr ((wp_lift _ _ _ _).mpr ?_)
  cases job.attributes with
  | error error => exact clean
  | ok loaded =>
    -- marking only reads the clock
    refine (wp_bind _ _ _ _ _).mpr ((wp_bind _ _ _ _ _).mpr ((wp_lift _ _ _ _).mpr ?_))
    cases job.attributes with
    | error error => exact clean
    | ok row =>
      refine (wp_bind _ _ _ _ _).mpr ((wp_lift _ _ _ _).mpr ?_)
      cases ensureTransitionAllowed row.status .completed with
      | error error => exact clean
      | ok _ =>
        refine wp_tracking_then trivial (fun now _ => ?_) fun _ _ => clean
        refine (wp_tryCatch _ _ _ _ _).mpr (wp_mono _ (fun r log' clean => ?_)
          (start ▸ flushResult_results loaded _ ⟨resolved, valid⟩))
        cases r with
        | ok _ => exact clean
        | error error =>
          simp only
          split
          · refine wp_quiet ?_ clean
            exact .bind (.bind (.perform nofun) fun _ => trivial) fun _ => .bind (.lift _) fun _ => trivial
          · exact clean

theorem run_results {log : ResultLog} (clean : log.pending = none) (job : JobObject) :
    wp (resultsOf env provider event) (run env job event) (fun _ log' => log'.pending = none) log := by
  refine wp_tracking_then trivial (fun _ _ => ?_) fun _ _ => clean
  refine wp_seq _ (read_results clean _) (fun data log ⟨clean, read⟩ => ?_) fun _ _ post => post.1
  refine (wp_bind _ _ _ _ _).mpr ((wp_lift _ _ _ _).mpr ?_)
  cases extracted : env.extractText data (FileStorage.suffix job.document.storedFilename) with
  | error error => exact clean
  | ok text =>
    refine wp_seq _ (resolveType_results clean (read data rfl) extracted)
      (fun documentType log ⟨clean, resolved⟩ => ?_) fun _ _ post => post.1
    refine wp_tracking_then trivial (fun output returned => ?_) fun _ _ => clean
    obtain ⟨same, valid⟩ := LlmProvider.extract_valid returned
    refine wp_seq _ (persist_results clean job text ?_ (same ▸ valid)) (fun _ _ clean => clean)
      fun _ _ clean => clean
    rw [same]
    exact resolved documentType rfl

end Attempts

/-- Every result row that an attempt commits is stored under the requested type,
or under the type its classification of the clipped text returned, is valid
under the schema of that type and carries a score between 0 and 1. -/
theorem results_right (env : Env) (provider : LlmProvider) (name : String)
    (delivered : DeliveredEvent) :
    wp (resultsOf env provider delivered.event) (process env name delivered)
      (fun _ log' => log'.pending = none) {} := by
  refine wp_tracking_then trivial (fun _ _ => ?_) fun _ _ => rfl
  refine (wp_andFinally _ _ _ _ _).mpr (wp_mono _ (fun r log' clean => ?_)
    (Q := fun _ log' => log'.pending = none) ?_)
  · have closed : (sql .closeSession).Avoids carriesContent := .perform nofun
    refine wp_mono _ (fun c log'' clean => ?_) (wp_quiet closed clean)
    cases c <;> exact clean
  · refine wp_seq _ (wp_quiet ((claimJob_quiet _ _ _).fewer carriesContent_beyond) rfl) (fun claimed log clean => ?_)
      fun _ _ clean => clean
    cases claimed with
    | none => exact clean
    | some job =>
      simp only
      split
      · refine wp_quiet ?_ clean
        exact .bind ((markFailed_quiet _ _).fewer carriesContent_beyond) fun _ => trivial
      · refine (wp_tryCatch _ _ _ _ _).mpr (wp_mono _ (fun r log' clean => ?_) (run_results clean job))
        cases r with
        | ok outcome => exact clean
        | error error => exact wp_quiet ((handleFailure_quiet _ _).fewer carriesContent_beyond) clean

end DocumentPipeline

import DocumentPipeline.StoredResults
import DocumentPipeline.Repair
import DocumentPipeline.RetryDecisions
import DocumentPipeline.TextExtraction

/-! Which error messages depend on the contents of a document. Two executions
share a scenario (the settings, the rows and every fault of a service) and differ
in their contents: the bytes of the document and the responses of the model. -/

namespace DocumentPipeline
open EffectProgram JobService Processor RetryPolicy OpenaiProvider

/-- The options of `create_async_engine`; `hide_parameters` is left at its default. -/
structure EngineOptions where
  hideParameters : Bool := false

def getEngine : EngineOptions := {}

/-- `str()` of a driver error with the statement and its bound parameters. -/
def statementText (engine : EngineOptions) (message parameters : String) : String :=
  s!"{message}\n[SQL: INSERT INTO extraction_results]\n" ++
    if engine.hideParameters then "[SQL parameters hidden due to hide_parameters=True]"
    else s!"[parameters: {parameters}]"

inductive ModelCall
  | classify | extract

def ModelCall.operation : ModelCall → String
  | .classify => "classify"
  | .extract => "extract"

structure Content where
  data : Bytes
  classification : ModelResponse × ModelResponse
  extraction : ModelResponse × ModelResponse

/-- What two executions share. `reply` answers a call by its number, where the call
carries no content, and says of a read whether it succeeds; `sdkFault` is the
fault of a request by its number, `insertFault` that of an INSERT of a result. -/
structure Scenario where
  env : Env
  provider : LlmProvider
  parsers : TextExtraction.Parsers
  lower : Text → Text
  parameters : ExtractionResult → String
  reply : Nat → (o : Op) → Except Exn o.Val
  sdkFault : ModelCall → Nat → Option (Except Exn SdkError)
  fakeFailure : ModelCall → Option Exn
  insertFault : ExtractionResult → Option (DbapiClass × String)

def LlmProvider.pydantic : LlmProvider → Pydantic
  | .openai pydantic _ | .fake pydantic _ => pydantic

/-- The statements of the result commit. -/
inductive ResultStatement
  | update | insert | commit
  deriving DecidableEq

/-- The call of `_run` that was answered last; `rollback` undoes a failed statement. -/
inductive RunCall
  | start | storage | extraction | classification | classified | provider | persisting
  | result (statement : ResultStatement)
  | rollback (failed : ResultStatement)
  deriving DecidableEq

namespace RunCall

def next (call : RunCall) : (o : Op) → Except Exn o.Val → RunCall
  | .runtime (.readBytes _), .error _ => .storage
  | .runtime (.readBytes _), .ok _ => .extraction
  | .runtime (.classify _), .error _ => .classification
  | .runtime (.classify _), .ok _ => .classified
  | .runtime (.extract _ _), .error _ => .provider
  | .runtime (.extract _ _), .ok _ => .persisting
  | .db (.updateJob _ _), _ => .result .update
  | .db (.insertResult _), _ => .result .insert
  | .db .commit, _ => .result .commit
  | .db .rollback, _ => match call with
    | .result statement => .rollback statement
    | _ => call
  | _, _ => call

/-- The three statements of the result commit are one call of `_run`. -/
def site : RunCall → RunCall
  | .result _ => .result .commit
  | call => call

end RunCall

namespace Scenario
variable (s : Scenario)

/-- The deployment with the extractors of `text_extraction`. -/
def deployed : Env :=
  { s.env with extractText := TextExtraction.extractText s.parsers s.lower }

def model (call : ModelCall) (responses : ModelResponse × ModelResponse) (sent : Nat) :
    (o : ProviderOp) → Option (Nat × Except Exn o.Val)
  | .parse _ cls => some (sent + 1, match s.sdkFault call sent with
    | some (.ok fault) => .ok (.error fault)
    | some (.error error) => .error error
    | none => (if sent = 0 then responses.1 else responses.2).parsed s.provider.pydantic cls)
  | .maybeFail => some (sent, match s.fakeFailure call with
    | some error => .error error
    | none => .ok ())

def provided {α : Type} (call : ModelCall) (responses : ModelResponse × ModelResponse)
    (p : ProviderProg α) : Except Exn α :=
  match p.runWith (s.model call responses) 0 with
  | some (_, outcome) => outcome
  | none => .error (.other "RuntimeError" "")

def answer (c : Content) (n : Nat) : (o : Op) → Except Exn o.Val
  | .runtime (.readBytes path) => match s.reply n (.runtime (.readBytes path)) with
    | .error error => .error error
    | .ok _ => .ok c.data
  | .runtime (.classify text) => s.provided .classify c.classification (s.provider.classify text)
  | .runtime (.extract text documentType) =>
    s.provided .extract c.extraction (s.provider.extract text documentType)
  | .db (.insertResult result) => match s.insertFault result with
    | some (kind, message) => .error (.dbapi kind (statementText getEngine message (s.parameters result)))
    | none => .ok ()
  | o => s.reply n o

def claimed (name : String) (delivered : DeliveredEvent) : Nat × Except Exn (Option JobObject) :=
  Program.under s.reply (do
    sql .openSession
    claimJob delivered.event.jobId name s.env.settings.staleProcessingSeconds) 0

/-- `process` enters `_run` after `entered` calls, and it raises an error at a call. -/
structure Raises (c : Content) (name : String) (delivered : DeliveredEvent) (job : JobObject)
    (entered : Nat) (call : RunCall) (answered : Nat) (error : Exn) : Prop where
  claimed : s.claimed name delivered = (entered, .ok (some job))
  within : (delivered.deliveryCount : Int) ≤ s.env.settings.maxDeliveryCount
  run : (run s.deployed job delivered.event).runWith (labelling (s.answer c) RunCall.next)
    (.start, entered) = some ((call, answered), .error error)

/-- The messages that `mark_retrying` and `mark_failed` write. -/
def markedMessage : Op → Option String
  | .db (.updateJob _ current) =>
    if current.status = .retrying ∨ current.status = .failed then current.errorMessage else none
  | _ => none

def pendingAfter (pending : Option String) : (o : Op) → Except Exn o.Val → Option String
  | .db .commit, _ | .db .rollback, _ => none
  | o, .ok _ => (markedMessage o).or pending
  | _, .error _ => pending

def committedBy (pending : Option String) : Op → List String
  | .db .commit => pending.toList
  | _ => []

/-- The messages that a sequence of calls commits. -/
def committedMessages (pending : Option String) : List ((o : Op) × Except Exn o.Val) → List String
  | [] => []
  | ⟨o, reply⟩ :: later =>
    committedBy pending o ++ committedMessages (pendingAfter pending o reply) later

def errorMessages (c : Content) (name : String) (delivered : DeliveredEvent) : List String :=
  committedMessages none ((process s.deployed name delivered).trace (s.answer c) 0)

end Scenario

inductive ExnClass
  | app (kind : AppErrorClass)
  | dbapi (kind : DbapiClass)
  | disconnection | connection | timeout | fileNotFound | os | redis | missingGreenlet | overflow
  | other (typeName : String)

/-- `type(error)`. -/
def Exn.cls : Exn → ExnClass
  | .app error => .app error.kind
  | .dbapi kind _ => .dbapi kind
  | .disconnection _ => .disconnection
  | .connection _ => .connection
  | .timeout _ => .timeout
  | .fileNotFound _ => .fileNotFound
  | .os _ => .os
  | .redis _ => .redis
  | .missingGreenlet _ => .missingGreenlet
  | .overflow _ => .overflow
  | .other typeName _ => .other typeName

/-- The exceptions whose text quotes the content: those of a parser that its
extractor does not name, pydantic's, and the driver's for the INSERT. -/
def QuotesContent (call : RunCall) (error : Exn) : Prop :=
  (call = .extraction ∧ ∀ raised, error ≠ .app raised) ∨
  ((call = .classification ∨ call = .provider) ∧ ∃ message, error = .other "ValidationError" message) ∨
  (call = .result .insert ∧ ∃ kind message, error = .dbapi kind message)

namespace Scenario
variable {s : Scenario}

section Labelled
variable {c : Content} {call : RunCall} {n : Nat} {α β : Type}

abbrev labelled (s : Scenario) (c : Content) : Protocol Op Op.Val Exn (RunCall × Nat) :=
  .answering (labelling (s.answer c) RunCall.next)

theorem wp_labelled_then {o : Op} {f : o.Val → Prog β} {Q : Except Exn β → RunCall × Nat → Prop}
    (ok : ∀ value, s.answer c n o = .ok value →
      wp (s.labelled c) (f value) Q (call.next o (.ok value), n + 1))
    (failed : ∀ error, s.answer c n o = .error error →
      Q (.error error) (call.next o (.error error), n + 1)) :
    wp (s.labelled c) (Program.perform o >>= f) Q (call, n) := by
  refine (wp_bind _ _ _ _ _).mpr (wp_answering (show labelling _ _ _ _ = some _ from rfl) ?_)
  cases answered : s.answer c n o with
  | ok value => exact ok value answered
  | error error => exact failed error answered

end Labelled

def providerError (s : Scenario) (call : ModelCall) : Exn :=
  match s.provider with
  | .openai _ model =>
    let fault (sent : Nat) : Option Exn := (s.sdkFault call sent).map fun
      | .ok fault => fault.exn call.operation
      | .error error => error
    ((fault 0).or (fault 1)).getD (.app (responseInvalid model call.operation))
  | .fake _ _ => (s.fakeFailure call).getD FakeProvider.indexError

theorem openai_error {pydantic : Pydantic} {model : String} (isOpenai : s.provider = .openai pydantic model)
    (call : ModelCall) (responses : ModelResponse × ModelResponse) (messages : List ChatMessage)
    (cls : ModelClass) {α : Type} (output : Instance cls × Option Usage → α) {error : Exn}
    (raised : s.provided call responses (parse pydantic model messages cls call.operation >>=
      fun answer => pure (output answer)) = .error error) :
    error = s.providerError call ∨ ∃ message, error = .other "ValidationError" message := by
  have pydantic_ : s.provider.pydantic = pydantic := by rw [isOpenai]; rfl
  simp only [provided] at raised
  rw [parse, Program.bind_assoc, complete_runWith (show s.model call responses 0
    (.parse messages cls) = some (1, _) from rfl)] at raised
  simp only [providerError, isOpenai]
  cases first : s.sdkFault call 0 with
  | some fault =>
    rw [first] at raised
    cases fault <;> exact .inl (Except.error.inj raised).symm
  | none =>
    rw [first, pydantic_] at raised
    obtain ⟨-, message, invalid⟩ | ⟨-, completion, read, usage, record⟩ :=
      responses.1.parsed_cases pydantic cls
    · simp only [if_true, invalid] at raised
      exact .inr ⟨message, (Except.error.inj raised).symm⟩
    · simp only [if_true, read, resume, record] at raised
      cases valid : responses.1.valid? pydantic cls with
      | some value => rw [valid] at raised; cases raised
      | none =>
        rw [valid] at raised
        simp only at raised
        rw [Program.bind_assoc, complete_runWith (show s.model call responses 1
          (.parse (repairMessages messages completion) cls) = some (2, _) from rfl)] at raised
        cases second : s.sdkFault call 1 with
        | some fault =>
          rw [second] at raised
          cases fault <;> exact .inl (Except.error.inj raised).symm
        | none =>
          rw [second, pydantic_] at raised
          obtain ⟨-, message, invalid⟩ | ⟨-, completion', read', usage', record'⟩ :=
            responses.2.parsed_cases pydantic cls
          · simp only [one_ne_zero, if_false, invalid] at raised
            exact .inr ⟨message, (Except.error.inj raised).symm⟩
          · simp only [one_ne_zero, if_false, read', resume, record'] at raised
            cases valid' : responses.2.valid? pydantic cls with
            | some value => rw [valid'] at raised; cases raised
            | none =>
              rw [valid'] at raised
              exact .inl (Except.error.inj raised).symm

theorem findAfter_error {lower : Text → Text} {text : Text} {marker : String} {error : Exn}
    (h : FakeProvider.findAfter lower text marker = .error error) : error = FakeProvider.indexError := by
  simp only [FakeProvider.findAfter] at h
  split at h
  · cases h
  · split at h
    · exact (Except.error.inj h).symm
    · cases h

theorem fakePayload_error {lower : Text → Text} {documentType : DocumentType} {text : Text}
    {error : Exn} (h : FakeProvider.fakePayload lower documentType text = .error error) :
    error = FakeProvider.indexError := by
  cases documentType <;> first | cases h | skip
  simp only [FakeProvider.fakePayload] at h
  cases found : FakeProvider.findAfter lower text "vendor:" with
  | ok vendor => rw [found] at h; cases h
  | error error' =>
    rw [found] at h
    cases h
    exact findAfter_error found

theorem maybeFail_provided {call : ModelCall} {responses : ModelResponse × ModelResponse} {α : Type}
    {next : Unit → ProviderProg α} {error : Exn}
    (raised : s.provided call responses (FakeProvider.maybeFail >>= next) = .error error) :
    s.fakeFailure call = some error ∨
      s.fakeFailure call = none ∧ s.provided call responses (next ()) = .error error := by
  have called : (FakeProvider.maybeFail >>= next).runWith (s.model call responses) 0 =
      match s.fakeFailure call with
        | some error => some (0, .error error)
        | none => (next ()).runWith (s.model call responses) 0 := by
    change (s.model call responses 0 .maybeFail).bind _ = _
    cases failure : s.fakeFailure call <;> simp only [model, failure] <;> rfl
  simp only [provided, called] at raised ⊢
  cases failure : s.fakeFailure call with
  | some failed =>
    rw [failure] at raised
    exact .inl (congrArg some (Except.error.inj raised))
  | none =>
    rw [failure] at raised
    exact .inr ⟨rfl, raised⟩

theorem extract_error (responses : ModelResponse × ModelResponse) (text : Text)
    (documentType : DocumentType) {error : Exn}
    (raised : s.provided .extract responses (s.provider.extract text documentType) = .error error) :
    error = s.providerError .extract ∨ ∃ message, error = .other "ValidationError" message := by
  cases is : s.provider with
  | openai pydantic model =>
    rw [is] at raised
    exact openai_error is .extract responses _ _ _ raised
  | fake pydantic lower =>
    rw [is] at raised
    simp only [providerError, is]
    obtain failed | ⟨failed, raised⟩ := maybeFail_provided raised
    · exact .inl (by rw [failed]; rfl)
    · rw [failed]
      cases built : FakeProvider.fakePayload lower documentType text with
      | error error' =>
        rw [built] at raised
        cases raised
        exact .inl (fakePayload_error built)
      | ok payload =>
        rw [built] at raised
        cases checked : pydantic.validate (schemaRegistry documentType) (.value payload) with
        | error message =>
          refine .inr ⟨message, ?_⟩
          simp only [provided, Program.lift, bind, Program.bind, checked] at raised
          exact (Except.error.inj raised).symm
        | ok answer =>
          simp only [provided, Program.lift, bind, Program.bind, checked] at raised
          cases raised

theorem classify_error (responses : ModelResponse × ModelResponse) (text : Text) {error : Exn}
    (raised : s.provided .classify responses (s.provider.classify text) = .error error) :
    error = s.providerError .classify ∨ ∃ message, error = .other "ValidationError" message := by
  cases is : s.provider with
  | openai pydantic model =>
    rw [is] at raised
    exact openai_error is .classify responses _ _ _ raised
  | fake pydantic lower =>
    rw [is] at raised
    simp only [providerError, is]
    obtain failed | ⟨failed, raised⟩ := maybeFail_provided raised
    · exact .inl (by rw [failed]; rfl)
    · cases raised

def extracted (event : DocumentProcessingEvent) (entered : Nat) : Nat :=
  match event.requestedDocumentType with
  | some _ => entered + 3
  | none => entered + 4

def flushed (event : DocumentProcessingEvent) (entered : Nat) : ResultStatement → Nat
  | .update => extracted event entered + 2
  | .insert => extracted event entered + 3
  | .commit => extracted event entered + 4

/-- The errors that an execution can raise at a call, and the calls answered by
then, from the scenario alone. -/
def Explains (s : Scenario) (job : JobObject) (event : DocumentProcessingEvent) (entered : Nat) :
    RunCall → Nat → Exn → Prop
  | .start, answered, error | .storage, answered, error => (do
      runtime .enterRun
      FileStorage.read s.env event.storagePath).under s.reply entered = (answered, .error error)
  | .extraction, answered, error => answered = entered + 2 ∧
      ∃ data, TextExtraction.extractText s.parsers s.lower data
        (FileStorage.suffix job.document.storedFilename) = .error error
  | .classification, answered, error => answered = entered + 3 ∧ error = s.providerError .classify
  | .classified, _, _ => False
  | .provider, answered, error => answered = extracted event entered ∧ error = s.providerError .extract
  | .persisting, answered, error =>
      (markCompleted job).under s.reply (extracted event entered) = (answered, .error error)
  | .result .update, answered, error => answered = flushed event entered .update ∧
      ∃ completed, ((markCompleted job).under s.reply (extracted event entered)).2 = .ok completed ∧
        s.reply (extracted event entered + 1) (.db (.updateJob job.row completed.row)) = .error error
  | .result .insert, _, _ => False
  | .result .commit, answered, error => answered = flushed event entered .commit ∧
      s.reply (extracted event entered + 3) (.db .commit) = .error error ∧
      ∃ completed, ((markCompleted job).under s.reply (extracted event entered)).2 = .ok completed ∧
        s.reply (extracted event entered + 1) (.db (.updateJob job.row completed.row)) = .ok ()
  | .rollback failed, answered, error => (do
      let job ← JobService.rollback job
      Program.lift job.attributes).under s.reply (flushed event entered failed) =
        (answered, .error error)

section Runs
variable {c : Content} (job : JobObject) (event : DocumentProcessingEvent) (entered : Nat)

/-- What an execution of `_run` or of a part of it lets escape. -/
def Escapes {α : Type} (s : Scenario) (job : JobObject) (event : DocumentProcessingEvent)
    (entered : Nat) (r : Except Exn α) (at_ : RunCall × Nat) : Prop :=
  ∀ error, r = .error error →
    s.Explains job event entered at_.1 at_.2 error ∨ QuotesContent at_.1 error

theorem read_labelled (path : String) (n : Nat) : wp (s.labelled c) (FileStorage.read s.env path)
    (fun r at_ => match r with
      | .ok _ => at_ = (.extraction, n + 1)
      | .error error => (at_.1 = .start ∨ at_.1 = .storage) ∧
        (FileStorage.read s.env path).under s.reply n = (at_.2, .error error)) (.start, n) := by
  simp only [FileStorage.read]
  refine (wp_bind _ _ _ _ _).mpr ((wp_lift _ _ _ _).mpr ?_)
  simp only [Program.under_bind, Program.under_lift, Program.under_tryCatch]
  cases FileStorage.resolve s.env.storageRoot path with
  | error error => exact ⟨.inl trivial, rfl⟩
  | ok target =>
    refine (wp_tryCatch _ _ _ _ _).mpr
      (wp_answering (show labelling _ _ _ _ = some _ from rfl) ?_)
    simp only [runtime, Program.under_perform, answer]
    cases s.reply n (.runtime (.readBytes target)) with
    | ok data => rfl
    | error error =>
      simp only
      split
      · exact ⟨.inr rfl, rfl⟩
      · split <;> exact ⟨.inr rfl, rfl⟩

theorem markCompleted_labelled (n : Nat) : wp (s.labelled c) (markCompleted job)
    (fun r at_ => at_.1 = .persisting ∧ (markCompleted job).under s.reply n = (at_.2, r) ∧
      ∀ completed, r = .ok completed → at_.2 = n + 1) (.persisting, n) := by
  simp only [markCompleted]
  refine (wp_bind _ _ _ _ _).mpr ((wp_lift _ _ _ _).mpr ?_)
  simp only [Program.under_bind, Program.under_lift]
  cases job.attributes with
  | error error => exact ⟨trivial, rfl, fun _ same => by cases same⟩
  | ok row =>
    refine (wp_bind _ _ _ _ _).mpr ((wp_lift _ _ _ _).mpr ?_)
    simp only
    cases ensureTransitionAllowed row.status .completed with
    | error error => exact ⟨trivial, rfl, fun _ same => by cases same⟩
    | ok _ =>
      refine wp_labelled_then (fun now answered => ?_) fun error answered => ?_
      all_goals
        have replied : s.reply n (.runtime .utcnow) = _ := answered
        simp only [utcnow, runtime, Program.under_perform, replied]
      · exact ⟨rfl, rfl, fun _ _ => rfl⟩
      · exact ⟨rfl, trivial, fun _ same => by cases same⟩

theorem flushFailed_labelled {completed : JobObject} {failed : ResultStatement} {error : Exn}
    (escapes : error.isIntegrityError = false →
      s.Explains job event entered (.result failed) (flushed event entered failed) error ∨
        QuotesContent (.result failed) error) :
    wp (s.labelled c) (if error.isIntegrityError then do
        let job ← JobService.rollback completed
        let _ ← Program.lift job.attributes
        return ()
      else throw error : Prog Unit) (s.Escapes job event entered)
        (.result failed, flushed event entered failed) := by
  split
  · refine (wp_bind _ _ _ _ _).mpr (wp_labelled_then (fun _ answered => ?_) fun error answered => ?_)
    all_goals
      have replied : s.reply _ (.db .rollback) = _ := answered
      rintro _ ⟨⟩
      refine .inl ?_
      simp only [Explains, RunCall.next, JobService.rollback, Program.under_bind, sql,
        Program.under_perform, replied]
    exact Program.under_lift _ _ _
  · rename_i other
    rintro _ ⟨⟩
    exact escapes (by simpa using other)

/-- What `_persist` lets escape. -/
theorem flushResult_labelled {completed : JobObject} (result : ExtractionResult)
    (marked : ((markCompleted job).under s.reply (extracted event entered)).2 = .ok completed) :
    wp (s.labelled c) (tryCatch (flushResult job.row completed.row result) fun error =>
      if error.isIntegrityError then do
        let job ← JobService.rollback completed
        let _ ← Program.lift job.attributes
        return ()
      else throw error) (s.Escapes job event entered)
        (.persisting, extracted event entered + 1) := by
  refine (wp_tryCatch _ _ _ _ _).mpr (wp_labelled_then (fun _ updated => ?_) fun error updated => ?_)
  · refine wp_labelled_then (fun _ inserted => ?_) fun error inserted => ?_
    · refine wp_answering (show labelling _ _ _ _ = some _ from rfl) ?_
      cases committed : s.answer c (extracted event entered + 3) (.db .commit) with
      | ok _ => exact fun _ => nofun
      | error error =>
        exact flushFailed_labelled job event entered fun _ =>
          .inl ⟨rfl, committed, completed, marked, updated⟩
    · refine flushFailed_labelled job event entered fun _ => .inr (.inr (.inr ⟨rfl, ?_⟩))
      cases fault : s.insertFault result with
      | none => simp [answer, fault] at inserted
      | some fault' =>
        simp only [answer, fault] at inserted
        exact ⟨_, _, (Except.error.inj inserted).symm⟩
  · exact flushFailed_labelled job event entered fun _ => .inl ⟨rfl, completed, marked, updated⟩

theorem persist_labelled (output : ExtractionOutput) (text : Text) :
    wp (s.labelled c) (persist s.deployed job output text) (s.Escapes job event entered)
      (.persisting, extracted event entered) := by
  simp only [persist]
  refine (wp_bind _ _ _ _ _).mpr ((wp_lift _ _ _ _).mpr ?_)
  cases attributes : job.attributes with
  | error error =>
    rintro _ ⟨⟩
    refine .inl ?_
    simp only [Explains, markCompleted, Program.under_bind, Program.under_lift, attributes]
  | ok loaded =>
    obtain rfl : job.row = loaded := by
      simp only [JobObject.attributes] at attributes
      split at attributes <;> cases attributes
      rfl
    refine wp_seq _ (markCompleted_labelled job (extracted event entered)) ?_ ?_
    · rintro completed ⟨call, n⟩ ⟨is, marked, counted⟩
      cases is
      obtain rfl : n = _ := counted completed rfl
      exact flushResult_labelled job event entered _ (by rw [marked])
    · rintro error ⟨call, n⟩ ⟨is, failed, -⟩ _ ⟨⟩
      cases is
      exact .inl failed

theorem run_explained : wp (s.labelled c) (run s.deployed job event) (s.Escapes job event entered)
    (.start, entered) := by
  refine wp_labelled_then (fun _ answered => ?_) fun error refused => ?_
  · have replied : s.reply entered (.runtime .enterRun) = .ok _ := answered
    refine wp_seq _ (read_labelled event.storagePath (entered + 1)) ?_ ?_
    · rintro data _ rfl
      refine (wp_bind _ _ _ _ _).mpr ((wp_lift _ _ _ _).mpr ?_)
      cases read : s.deployed.extractText data (FileStorage.suffix job.document.storedFilename) with
      | error error =>
        rintro _ ⟨⟩
        exact .inl ⟨rfl, data, read⟩
      | ok text =>
        have provided : ∀ documentType call n, n + 1 = extracted event entered →
            wp (s.labelled c) (do
              let output ← runtime (.extract (truncate text s.env.settings.llmMaxInputChars).1 documentType)
              persist s.deployed job output text
              return .completed) (s.Escapes (α := ProcessingOutcome) job event entered) (call, n) := by
          intro documentType call n counted
          refine wp_labelled_then (fun output _ => ?_) fun error failed => ?_
          · rw [counted]
            refine wp_seq _ (persist_labelled job event entered output text) (fun _ _ _ _ => nofun) ?_
            rintro error at_ escapes _ ⟨⟩
            exact escapes error rfl
          · rintro _ ⟨⟩
            obtain expected | invalid := extract_error _ _ _ failed
            · exact .inl ⟨counted, expected⟩
            · exact .inr (.inr (.inl ⟨.inr rfl, invalid⟩))
        unfold resolveType
        cases requested : event.requestedDocumentType with
        | some documentType => exact provided documentType _ _ (by rw [extracted, requested])
        | none =>
          refine (wp_bind _ _ _ _ _).mpr (wp_labelled_then
            (fun output _ => provided _ _ _ (by rw [extracted, requested])) fun error failed => ?_)
          rintro _ ⟨⟩
          obtain expected | invalid := classify_error _ _ failed
          · exact .inl ⟨rfl, expected⟩
          · exact .inr (.inr (.inl ⟨.inl rfl, invalid⟩))
    · rintro error ⟨call, n⟩ ⟨early, failed⟩ _ ⟨⟩
      refine .inl ?_
      obtain rfl | rfl : call = .start ∨ call = .storage := early
      all_goals
        simp only [Explains, Program.under_bind, runtime, Program.under_perform, replied]
        exact failed
  · have replied : s.reply entered (.runtime .enterRun) = .error _ := refused
    rintro _ ⟨⟩
    refine .inl ?_
    simp only [Explains, RunCall.next, Program.under_bind, runtime, Program.under_perform, replied]

/-- At one call a scenario explains one error of each class, after as many calls. -/
theorem explains_unique {job : JobObject} {event : DocumentProcessingEvent} {entered n₁ n₂ : Nat}
    {call₁ call₂ : RunCall} {error₁ error₂ : Exn} (first : s.Explains job event entered call₁ n₁ error₁)
    (second : s.Explains job event entered call₂ n₂ error₂) (site : call₁.site = call₂.site)
    (cls : error₁.cls = error₂.cls) (safe : ¬QuotesContent call₁ error₁) :
    n₁ = n₂ ∧ error₁ = error₂ := by
  have functional : ∀ {α : Type} {r : Nat × Except Exn α}, r = (n₁, .error error₁) →
      r = (n₂, .error error₂) → n₁ = n₂ ∧ error₁ = error₂ := by
    intro α r is₁ is₂
    have same := Prod.mk.inj (is₁.symm.trans is₂)
    exact ⟨same.1, Except.error.inj same.2⟩
  have shared : ∀ {statement : ResultStatement} {r : Except Exn Unit},
      n₁ = flushed event entered statement → n₂ = flushed event entered statement →
      r = .error error₁ → r = .error error₂ → n₁ = n₂ ∧ error₁ = error₂ := by
    intro statement r counted₁ counted₂ is₁ is₂
    exact ⟨counted₁.trans counted₂.symm, Except.error.inj (is₁.symm.trans is₂)⟩
  cases call₁ <;> cases call₂ <;> try cases site
  case start | storage | persisting => exact functional first second
  case rollback => exact functional first second
  case classified => exact first.elim
  case classification | provider =>
    exact ⟨first.1.trans second.1.symm, first.2.trans second.2.symm⟩
  case extraction =>
    obtain ⟨rfl, data₁, failed₁⟩ := first
    obtain ⟨rfl, data₂, failed₂⟩ := second
    obtain ⟨raised₁, rfl⟩ : ∃ raised, error₁ = .app raised := by
      by_contra none_
      exact safe (.inl ⟨rfl, fun raised same => none_ ⟨raised, same⟩⟩)
    cases error₂ with
    | app raised₂ =>
      exact ⟨rfl, congrArg Exn.app (TextExtraction.extractText_app failed₁ failed₂ (ExnClass.app.inj cls))⟩
    | _ => cases cls
  case result =>
    rename_i statement₁ statement₂
    cases statement₁ <;> cases statement₂ <;> try exact first.elim
    all_goals try exact second.elim
    · obtain ⟨counted₁, completed, marked, failed₁⟩ := first
      obtain ⟨counted₂, completed', marked', failed₂⟩ := second
      cases Except.ok.inj (marked.symm.trans marked')
      exact shared counted₁ counted₂ failed₁ failed₂
    · obtain ⟨-, completed, marked, failed⟩ := first
      obtain ⟨-, -, completed', marked', done⟩ := second
      cases Except.ok.inj (marked.symm.trans marked')
      cases failed.symm.trans done
    · obtain ⟨-, -, completed', marked', done⟩ := first
      obtain ⟨-, completed, marked, failed⟩ := second
      cases Except.ok.inj (marked.symm.trans marked')
      cases failed.symm.trans done
    · exact shared first.1 second.1 first.2.1 second.2.1

end Runs

section Messages
variable {c : Content} {job : JobObject} {event : DocumentProcessingEvent}

theorem answer_eq_reply (n : Nat) (o : Op) (other : ¬carriesContent o) : s.answer c n o = s.reply n o := by
  unfold answer
  split <;> first | rfl | exact absurd trivial other

def IsMarked (o : Op) : Prop := (markedMessage o).isSome = true

theorem committedMessages_unmarked (earlier later : List ((o : Op) × Except Exn o.Val))
    (unmarked : ∀ answered ∈ earlier, ¬IsMarked answered.1) :
    committedMessages none (earlier ++ later) = committedMessages none later := by
  induction earlier with
  | nil => rfl
  | cons answered earlier ih =>
    obtain ⟨o, reply⟩ := answered
    have first : markedMessage o = none := by simpa [IsMarked] using unmarked _ List.mem_cons_self
    have nothing : pendingAfter none o reply = none := by
      unfold pendingAfter
      split <;> first | rfl | simp [first]
    have silent : committedBy none o = [] := by
      unfold committedBy
      split <;> rfl
    rw [List.cons_append, committedMessages, nothing, silent, List.nil_append,
      ih fun other found => unmarked other (List.mem_cons_of_mem _ found)]

theorem claimJob_unmarked (jobId : Nat) (consumerName : String) (stale : Int) :
    (claimJob jobId consumerName stale).Avoids IsMarked := by
  refine .bind (.perform nofun) fun now => .bind (.perform nofun) fun claimed => ?_
  cases claimed with
  | none => exact .bind (.perform nofun) fun _ => trivial
  | some id =>
    refine .bind (.perform nofun) fun _ => .bind (.bind (.perform nofun) fun found => ?_) fun _ => trivial
    cases found <;> trivial

theorem resolveType_unmarked (text : Text) : (resolveType s.deployed event text).Avoids IsMarked := by
  unfold resolveType
  split
  · trivial
  · exact .bind (.perform nofun) fun _ => trivial

theorem markCompleted_completed : wp .free (markCompleted job)
    (fun r _ => ∀ completed, r = .ok completed → completed.row.status = .completed) () := by
  refine (wp_bind _ _ _ _ _).mpr ((wp_lift _ _ _ _).mpr ?_)
  cases job.attributes with
  | error error => exact fun _ => nofun
  | ok row =>
    refine (wp_bind _ _ _ _ _).mpr ((wp_lift _ _ _ _).mpr ?_)
    cases ensureTransitionAllowed row.status .completed with
    | error error => exact fun _ => nofun
    | ok _ =>
      refine (wp_bind _ _ _ _ _).mpr ((wp_perform _ _ _ _).mpr ⟨trivial, fun reply _ _ => ?_⟩)
      cases reply with
      | error error => exact fun _ => nofun
      | ok now =>
        rintro _ ⟨⟩
        rfl

theorem run_unmarked : (run s.deployed job event).Avoids IsMarked := by
  refine .bind (.perform nofun) fun _ => .bind ?_ fun data => .bind (.lift _) fun text =>
    .bind (resolveType_unmarked _) fun documentType => .bind (.perform nofun) fun output =>
      .bind ?_ fun _ => trivial
  · refine .bind (.lift _) fun target => .tryCatch (.perform nofun) fun error => ?_
    split
    · trivial
    · split <;> trivial
  · refine .bind (.lift _) fun loaded => .bind_of ?_ markCompleted_completed fun completed status =>
      .tryCatch (.bind (.perform ?_) fun _ => .bind (.perform nofun) fun _ => .perform nofun) fun error => ?_
    · exact .bind (.lift _) fun _ => .bind (.lift _) fun _ => .bind (.perform nofun) fun _ => trivial
    · simp [IsMarked, markedMessage, status]
    · split
      · exact .bind (.bind (.perform nofun) fun _ => trivial) fun job => .bind (.lift _) fun _ => trivial
      · trivial

theorem Raises.explains {name : String} {delivered : DeliveredEvent} {entered answered : Nat}
    {call : RunCall} {error : Exn} (raises : s.Raises c name delivered job entered call answered error)
    (safe : ¬QuotesContent call error) :
    s.Explains job delivered.event entered call answered error := by
  obtain ⟨at_, r, ran, escapes⟩ := Program.runWith_of_wp (run_explained job delivered.event entered)
  cases ran.symm.trans raises.run
  exact (escapes error rfl).resolve_right safe

/-- After `_run` raised, the messages are those of the handler, under the shared replies. -/
theorem errorMessages_of_raises {name : String} {delivered : DeliveredEvent} {entered answered : Nat}
    {call : RunCall} {error : Exn} (raises : s.Raises c name delivered job entered call answered error) :
    s.errorMessages c name delivered = committedMessages none
      (((handleFailure s.deployed job delivered.event error).andFinally (sql .closeSession)).trace
        s.reply answered) := by
  have opened : s.answer c 0 (.db .openSession) = .ok () ∧
      (claimJob delivered.event.jobId name s.deployed.settings.staleProcessingSeconds).under (s.answer c) 1 =
        (entered, .ok (some job)) := by
    have claimed := raises.claimed
    simp only [Scenario.claimed, Program.under_bind, sql, Program.under_perform] at claimed
    rw [(((claimJob_quiet _ _ _).fewer carriesContent_beyond).agree (fun n o => answer_eq_reply n o) 1).1]
    cases opening : s.reply 0 (.db .openSession) with
    | error error =>
      rw [opening] at claimed
      cases claimed
    | ok _ =>
      rw [opening] at claimed
      exact ⟨opening, claimed⟩
  have ran : (run s.deployed job delivered.event).under (s.answer c) entered = (answered, .error error) := by
    obtain ⟨call', ran⟩ := Program.runWith_labelling (s.answer c) RunCall.next
      (run s.deployed job delivered.event) .start entered
    have same := Option.some.inj (ran.symm.trans raises.run)
    exact Prod.ext (congrArg (·.1.2) same) (congrArg (·.2) same)
  have quiet : ((handleFailure s.deployed job delivered.event error).andFinally
      (sql .closeSession)).Avoids carriesContent :=
    ((handleFailure_quiet job error).fewer carriesContent_beyond).andFinally (.perform nofun)
  have split_ : (process s.deployed name delivered).trace (s.answer c) 0 =
      (sql .openSession).trace (s.answer c) 0 ++
        ((claimJob delivered.event.jobId name s.deployed.settings.staleProcessingSeconds).trace (s.answer c) 1 ++
          (run s.deployed job delivered.event).trace (s.answer c) entered) ++
      ((handleFailure s.deployed job delivered.event error).andFinally (sql .closeSession)).trace
        (s.answer c) answered := by
    have opening : (sql .openSession).under (s.answer c) 0 = (1, .ok ()) := by
      rw [sql, Program.under_perform, opened.1]
    have within : ¬(delivered.deliveryCount : Int) > s.deployed.settings.maxDeliveryCount :=
      not_lt.mpr raises.within
    simp only [process, withSession, Program.trace_bind, Program.trace_andFinally, Program.under_bind,
      Program.trace_tryCatch, Program.under_tryCatch, opening, opened.2, if_neg within, ran,
      List.append_assoc]
  have unmarked : ∀ called ∈ (sql .openSession).trace (s.answer c) 0 ++
      ((claimJob delivered.event.jobId name s.deployed.settings.staleProcessingSeconds).trace (s.answer c) 1 ++
        (run s.deployed job delivered.event).trace (s.answer c) entered), ¬IsMarked called.1 := by
    intro called among
    obtain opens | claims | runs := by simpa only [List.mem_append] using among
    · exact (Program.Avoids.perform (o := .db .openSession) nofun).trace _ 0 called opens
    · exact (claimJob_unmarked _ _ _).trace _ 1 called claims
    · exact run_unmarked.trace _ entered called runs
  rw [errorMessages, split_, committedMessages_unmarked _ _ unmarked,
    (quiet.agree (fun n o => answer_eq_reply n o) answered).2]

end Messages

/-- Two executions of `process` that raise errors of one class at one call of `_run`
commit the same messages, unless an error quotes the content. -/
theorem errorMessages_agree (s : Scenario) {c₁ c₂ : Content} {name : String} {delivered : DeliveredEvent}
    {job₁ job₂ : JobObject} {entered₁ entered₂ answered₁ answered₂ : Nat} {call₁ call₂ : RunCall}
    {error₁ error₂ : Exn} (raises₁ : s.Raises c₁ name delivered job₁ entered₁ call₁ answered₁ error₁)
    (raises₂ : s.Raises c₂ name delivered job₂ entered₂ call₂ answered₂ error₂)
    (site : call₁.site = call₂.site) (cls : error₁.cls = error₂.cls)
    (safe₁ : ¬QuotesContent call₁ error₁) (safe₂ : ¬QuotesContent call₂ error₂) :
    s.errorMessages c₁ name delivered = s.errorMessages c₂ name delivered := by
  obtain ⟨rfl, claimed⟩ := Prod.mk.inj (raises₁.claimed.symm.trans raises₂.claimed)
  cases claimed
  have explained₁ := raises₁.explains safe₁
  have explained₂ := raises₂.explains safe₂
  obtain ⟨rfl, rfl⟩ := explains_unique explained₁ explained₂ site cls safe₁
  rw [errorMessages_of_raises raises₁, errorMessages_of_raises raises₂]

section Sample

/-- Every text is refused, and the refusal quotes it. -/
def quotingPydantic : Pydantic where
  validate _ _ := .error "Input should be a valid dictionary"
  validateJson _ text := .error s!"Invalid JSON: key must be a string [input_value={text}]"

def sampleScenario : Scenario where
  env := sampleEnv
  provider := .openai quotingPydantic "m"
  parsers := { pdfPages := fun _ => .error .named, docx := fun _ => .error .named }
  lower := id
  parameters result := String.ofList result.rawText
  reply
    | _, .db (.executeClaim jobId _ _ _) => .ok (some jobId)
    | _, .db (.selectJob _) => .ok (some (claimedRow, claimedDocument))
    | _, .db (.selectDocument _) => .ok (some claimedDocument)
    | _, .db .openSession | _, .db .closeSession | _, .db (.updateJob ..) | _, .db (.insertDocument ..)
    | _, .db (.insertJob _) | _, .db (.insertResult _) | _, .db .commit | _, .db .rollback => .ok ()
    | _, .runtime .enterRun | _, .runtime (.writeBytes ..) => .ok ()
    | _, .runtime .utcnow => .ok 0
    | _, .runtime .uuid4 => .ok 2
    | _, .runtime (.uniform low _) => .ok low
    | _, .runtime (.readBytes _) => .ok []
    | _, .runtime (.classify _) => .ok { documentType := .generic }
    | _, .runtime (.extract _ _) | _, .redis _ => .error (.redis "refused")
  sdkFault _ _ := none
  fakeFailure _ := none
  insertFault _ := none

def claimedDelivery : DeliveredEvent := ⟨0, claimedEvent, 1⟩

def sampleContent (data : Bytes) (cutOff : String) (nonempty : cutOff ≠ "") : Content where
  data := data
  classification := (⟨.content cutOff nonempty, none⟩, ⟨.noChoices, none⟩)
  extraction := (⟨.noChoices, none⟩, ⟨.noChoices, none⟩)

/-- Two files that cannot be decoded. -/
theorem errorMessages_agree_undecodable :
    sampleScenario.errorMessages (sampleContent [0x81] "\x7b" (by decide)) "w" claimedDelivery =
      sampleScenario.errorMessages (sampleContent [0x41, 0x8D] "[" (by decide)) "w" claimedDelivery := by
  have raises : ∀ data cutOff nonempty, data = [0x81] ∨ data = [0x41, 0x8D] →
      sampleScenario.Raises (sampleContent data cutOff nonempty) "w" claimedDelivery
        ⟨claimedRow, claimedDocument, false⟩ 5 .extraction 7
        (.app (TextExtraction.textExtraction "The text file is not in a supported encoding."
          [("tried", "utf-8-sig, cp1252")])) := by
    rintro data cutOff nonempty (rfl | rfl)
    · exact ⟨rfl, by decide, rfl⟩
    · exact ⟨rfl, by decide, rfl⟩
  exact errorMessages_agree sampleScenario (raises _ _ _ (.inl rfl)) (raises _ _ _ (.inr rfl)) rfl rfl
    (by simp [QuotesContent]) (by simp [QuotesContent])

/-- Two answers of the model that are cut off: the message quotes them. -/
theorem errorMessages_quote : ∃ job answered error₁ error₂,
    sampleScenario.Raises (sampleContent [65] "\x7ba" (by decide)) "w" claimedDelivery job 5
        .classification answered error₁ ∧
      sampleScenario.Raises (sampleContent [65] "\x7bb" (by decide)) "w" claimedDelivery job 5
        .classification answered error₂ ∧
      error₁.cls = error₂.cls ∧
      sampleScenario.errorMessages (sampleContent [65] "\x7ba" (by decide)) "w" claimedDelivery ≠
        sampleScenario.errorMessages (sampleContent [65] "\x7bb" (by decide)) "w" claimedDelivery := by
  refine ⟨⟨claimedRow, claimedDocument, false⟩, 8, _, _, ⟨rfl, by decide, rfl⟩, ⟨rfl, by decide, rfl⟩, rfl, ?_⟩
  decide +kernel

end Sample

end Scenario
end DocumentPipeline

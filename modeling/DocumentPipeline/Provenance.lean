import DocumentPipeline.Acknowledgement
import DocumentPipeline.EventAgreement
import DocumentPipeline.Permanence

/-! Where a result comes from. An attempt carries what it has read and what it
was answered from call to call, and a redelivery starts from nothing; so the
row that `_persist` inserts is a function of the bytes of the job's own upload
and of answers that the provider gave about these bytes in the same run. -/

namespace DocumentPipeline
open EffectProgram Transition JobService Processor

/-- The row that `_persist` builds. -/
def extractionRow (env : Env) (jobId : Nat) (text : Text) (output : ExtractionOutput) :
    ExtractionResult :=
  { jobId
    detectedDocumentType := output.documentType
    extractedData := output.data
    rawText := (truncate text env.settings.rawTextStoreMaxChars).1
    modelProvider := output.modelProvider
    modelName := output.modelName
    promptVersion := output.promptVersion
    inputTokens := output.inputTokens
    outputTokens := output.outputTokens
    confidenceScore := output.confidenceScore }

structure Findings where
  document : Option Document := none
  data : Option Bytes := none
  classified : Option (Text × ClassificationOutput) := none
  extracted : Option (Text × DocumentType × ExtractionOutput) := none

namespace Findings

def TypeFound (env : Env) (findings : Findings) (requested : Option DocumentType) (text : Text)
    (documentType : DocumentType) : Prop :=
  match requested with
  | some requested => documentType = requested
  | none => ∃ classification, classification.documentType = documentType ∧
    findings.classified = some (classificationSample env text, classification)

/-- The extraction that a document and its bytes call for, and its output. -/
structure Extracted (env : Env) (findings : Findings) (requested : Option DocumentType)
    (document : Document) (data : Bytes) (text : Text) (documentType : DocumentType)
    (output : ExtractionOutput) : Prop where
  selected : findings.document = some document
  read : findings.data = some data
  extracts : env.extractText data (FileStorage.suffix document.storedFilename) = .ok text
  resolved : findings.TypeFound env requested text documentType
  answered : findings.extracted =
    some ((truncate text env.settings.llmMaxInputChars).1, documentType, output)

def permits (env : Env) (event : DocumentProcessingEvent) (findings : Findings) : Op → Prop
  | .db (.insertResult result) => ∃ document data text documentType output,
    findings.Extracted env event.requestedDocumentType document data text documentType output ∧
      result = extractionRow env event.jobId text output
  | _ => True

def next (findings : Findings) : (o : Op) → Except Exn o.Val → Findings
  | .db (.selectJob _), .ok (some (_, document)) => { findings with document := some document }
  | .runtime (.readBytes _), .ok data => { findings with data := some data }
  | .runtime (.classify text), .ok output => { findings with classified := some (text, output) }
  | .runtime (.extract text documentType), .ok output =>
    { findings with extracted := some (text, documentType, output) }
  | _, _ => findings

end Findings

abbrev finds (env : Env) (event : DocumentProcessingEvent) {α : Type} (p : Prog α)
    (Q : Except Exn α → Findings → Prop) (findings : Findings) : Prop :=
  wp (.tracking (Findings.permits env event) credible Findings.next) p Q findings

section Finds
variable {env : Env} {event : DocumentProcessingEvent} {findings : Findings}

theorem finds_of_avoids {α : Type} {p : Prog α} (quiet : p.Avoids carriesContent) :
    finds env event p (fun _ _ => True) findings := by
  refine quiet.wp (I := fun _ => True) (fun log o _ other => ?_) (fun _ _ _ _ _ _ _ => trivial) trivial
  simp only [Protocol.tracking, Findings.permits]
  split
  · exact absurd trivial other
  · trivial

theorem claimJob_finds (consumerName : String) (stale : Int) :
    finds env event (claimJob event.jobId consumerName stale) (fun r after =>
      ∀ job, r = .ok (some job) → after.document = some job.document ∧ job.row.id = event.jobId)
      findings := by
  refine wp_tracking_then trivial (fun now _ => ?_) fun _ _ _ same => by cases same
  refine wp_tracking_then trivial (fun claimed _ => ?_) fun _ _ _ same => by cases same
  cases claimed with
  | none =>
    exact wp_tracking_then trivial (fun _ _ _ same => by cases same) fun _ _ _ same => by cases same
  | some id =>
    refine wp_tracking_then trivial (fun _ _ => ?_) fun _ _ _ same => by cases same
    refine (wp_bind _ _ _ _ _).mpr (wp_tracking_then trivial (fun found keyed => ?_)
      fun _ _ _ same => by cases same)
    cases found with
    | none => exact fun _ same => by cases same
    | some pair =>
      intro job same
      cases same
      exact ⟨rfl, keyed⟩

theorem read_finds (path : String) :
    finds env event (FileStorage.read env path) (fun r after => ∀ data, r = .ok data →
      after = { findings with data := some data }) findings := by
  refine (wp_bind _ _ _ _ _).mpr ((wp_lift _ _ _ _).mpr ?_)
  cases FileStorage.resolve env.storageRoot path with
  | error error => exact fun _ same => by cases same
  | ok target =>
    refine (wp_tryCatch _ _ _ _ _).mpr (wp_tracking_perform trivial (fun data _ => ?_) fun error _ => ?_)
    · intro data same
      cases same
      rfl
    · dsimp only
      split
      · exact fun _ same => by cases same
      · split <;> exact fun _ same => by cases same

theorem resolveType_finds (text : Text) :
    finds env event (resolveType env event (truncate text env.settings.llmMaxInputChars).1)
      (fun r after => ∀ documentType, r = .ok documentType →
        after.document = findings.document ∧ after.data = findings.data ∧
          after.TypeFound env event.requestedDocumentType text documentType) findings := by
  unfold resolveType Findings.TypeFound
  cases event.requestedDocumentType with
  | some requested =>
    intro documentType same
    cases same
    exact ⟨rfl, rfl, rfl⟩
  | none =>
    refine wp_tracking_then trivial (fun output _ => ?_) fun _ _ _ same => by cases same
    intro documentType same
    cases same
    exact ⟨rfl, rfl, output, rfl, rfl⟩

theorem persist_finds {job : JobObject} {data : Bytes} {text : Text} {documentType : DocumentType}
    {output : ExtractionOutput} (keyed : job.row.id = event.jobId)
    (extracted : findings.Extracted env event.requestedDocumentType job.document data text
      documentType output) :
    finds env event (persist env job output text) (fun _ _ => True) findings := by
  refine (wp_bind _ _ _ _ _).mpr ((wp_lift _ _ _ _).mpr ?_)
  cases attributes : job.attributes with
  | error error => trivial
  | ok loaded =>
    have same : loaded.id = event.jobId := by
      unfold JobObject.attributes at attributes
      split at attributes <;> cases attributes
      exact keyed
    refine (wp_bind _ _ _ _ _).mpr ((wp_bind _ _ _ _ _).mpr ((wp_lift _ _ _ _).mpr ?_))
    rw [attributes]
    refine (wp_bind _ _ _ _ _).mpr ((wp_lift _ _ _ _).mpr ?_)
    cases ensureTransitionAllowed loaded.status .completed with
    | error error => trivial
    | ok _ =>
      refine wp_tracking_then trivial (fun now _ => ?_) fun _ _ => trivial
      refine (wp_tryCatch _ _ _ _ _).mpr (wp_mono _ (Q := fun _ _ => True) (fun r after _ => ?_) ?_)
      · cases r with
        | ok _ => trivial
        | error error =>
          dsimp only
          split
          · refine finds_of_avoids ?_
            exact .bind (.bind (.perform nofun) fun _ => trivial) fun _ => .bind (.lift _) fun _ => trivial
          · trivial
      · refine wp_tracking_then trivial (fun _ _ => ?_) fun _ _ => trivial
        refine wp_tracking_then ⟨_, data, text, documentType, output, extracted, ?_⟩ (fun _ _ => ?_)
          fun _ _ => trivial
        · rw [same]
          rfl
        · exact wp_tracking_perform trivial (fun _ _ => trivial) fun _ _ => trivial

theorem run_finds {job : JobObject} (keyed : job.row.id = event.jobId)
    (document : findings.document = some job.document) :
    finds env event (run env job event) (fun _ _ => True) findings := by
  refine wp_tracking_then trivial (fun _ _ => ?_) fun _ _ => trivial
  refine wp_seq _ (read_finds _) (fun data after read => ?_) fun _ _ _ => trivial
  obtain rfl := read data rfl
  refine (wp_bind _ _ _ _ _).mpr ((wp_lift _ _ _ _).mpr ?_)
  cases extracts : env.extractText data (FileStorage.suffix job.document.storedFilename) with
  | error error => trivial
  | ok text =>
    refine wp_seq _ (resolveType_finds text) (fun documentType after resolved => ?_)
      fun _ _ _ => trivial
    obtain ⟨sameDocument, sameData, resolved⟩ := resolved documentType rfl
    refine wp_tracking_then trivial (fun output _ => ?_) fun _ _ => trivial
    refine wp_seq _ (persist_finds keyed ⟨sameDocument.trans document, sameData, extracts, ?_, rfl⟩)
      (fun _ _ _ => trivial) fun _ _ _ => trivial
    exact resolved

/-- Whatever it has found before, an attempt finds what it stores. -/
theorem handle_finds (name : String) (item : DeliveredEvent) :
    finds env item.event (handle env name item) (fun _ _ => True) findings := by
  have processed : finds env item.event (process env name item) (fun _ _ => True) findings := by
    refine wp_tracking_then trivial (fun _ _ => ?_) fun _ _ => trivial
    refine (wp_andFinally _ _ _ _ _).mpr (wp_mono _ (Q := fun _ _ => True) (fun r after _ => ?_) ?_)
    · exact wp_mono _ (fun r _ _ => by cases r <;> trivial)
        (finds_of_avoids (p := sql .closeSession) (.perform nofun))
    · refine wp_seq _ (claimJob_finds _ _) (fun claimed after found => ?_) fun _ _ _ => trivial
      cases claimed with
      | none => trivial
      | some job =>
        obtain ⟨document, keyed⟩ := found job rfl
        dsimp only
        split
        · refine finds_of_avoids ?_
          exact .bind ((markFailed_quiet _ _).fewer carriesContent_beyond) fun _ => trivial
        · refine (wp_tryCatch _ _ _ _ _).mpr (wp_mono _ (fun r after _ => ?_) (run_finds keyed document))
          cases r with
          | ok outcome => trivial
          | error error =>
            exact finds_of_avoids ((handleFailure_quiet _ _).fewer carriesContent_beyond)
  refine wp_seq (R := fun _ _ => True) _ ?_ (fun outcome after _ => ?_) fun _ _ _ => trivial
  · refine (wp_tryCatch _ _ _ _ _).mpr (wp_mono _ (Q := fun _ _ => True)
      (fun r _ _ => by cases r <;> trivial) ?_)
    exact wp_seq _ processed (fun _ _ _ => trivial) fun _ _ _ => trivial
  · cases outcome with
    | none => trivial
    | some outcome =>
      refine finds_of_avoids (.bind (.tryCatch (.perform nofun) fun error => ?_) fun _ => trivial)
      split <;> trivial

end Finds

/-- At an earlier step of the run the provider was asked, and answered so. -/
def System.Asked (env : Env) (s : System) (o : RuntimeOp) (choice : Choice) : Prop :=
  ∃ s₀ s₁ t th, Reached env anyRun s₀ ∧ s₀.call? t = some (th, .runtime o) ∧
    System.step env s₀ (.act t choice) = some s₁ ∧ Reach (System.step env) s₁ anyRun s

/-- The type asked for at the upload, or the one the provider has classified. -/
def TypeDecided (env : Env) (s : System) (document : Document) (text : Text)
    (documentType : DocumentType) : Prop :=
  document.requestedDocumentType = some documentType ∨
    document.requestedDocumentType = none ∧ ∃ classification,
      classification.documentType = documentType ∧
        s.Asked env (.classify (classificationSample env text)) (.classified classification)

/-- How a result has come about. -/
structure Provenance (env : Env) (s : System) (result : ExtractionResult) (document : Document)
    (upload : ValidatedUpload) (text : Text) (documentType : DocumentType)
    (output : ExtractionOutput) : Prop where
  job : ∃ row, s.world.db.jobs result.jobId = some row ∧
    s.world.db.documents row.documentId = some document
  custody : InCustody env s.world document upload
  extracts : env.extractText upload.data upload.extension = .ok text
  decided : TypeDecided env s document text documentType
  asked : s.Asked env (.extract (truncate text env.settings.llmMaxInputChars).1 documentType)
    (.extracted output)
  result : result = extractionRow env result.jobId text output

def Derived (env : Env) (s : System) (result : ExtractionResult) : Prop :=
  ∃ document upload text documentType output,
    Provenance env s result document upload text documentType output

structure Onward (env : Env) (s s' : System) : Prop where
  stepped : ∃ label, System.step env s label = some s'
  grows : s.world.db.Grows s'.world.db
  keeps : s.world.KeepsFiles s'.world

section Onward
variable {env : Env} {s s' : System}

theorem System.Asked.onward {o : RuntimeOp} {choice : Choice} (asked : s.Asked env o choice)
    (onward : Onward env s s') : s'.Asked env o choice := by
  obtain ⟨s₀, s₁, t, th, reached, calls, stepped, later⟩ := asked
  obtain ⟨label, next⟩ := onward.stepped
  exact ⟨s₀, s₁, t, th, reached, calls, stepped, later.step next trivial⟩

theorem Database.Grows.document {db db' : Database} (grows : db.Grows db') {jobId : Nat}
    {document : Document}
    (known : ∃ row, db.jobs jobId = some row ∧ db.documents row.documentId = some document) :
    ∃ row, db'.jobs jobId = some row ∧ db'.documents row.documentId = some document := by
  obtain ⟨row, found, content⟩ := known
  obtain ⟨row', found', same⟩ := grows.jobs jobId row found
  exact ⟨row', found', same ▸ grows.documents _ _ content⟩

theorem Derived.onward {result : ExtractionResult} (derived : Derived env s result)
    (onward : Onward env s s') : Derived env s' result := by
  obtain ⟨document, upload, text, documentType, output, from_⟩ := derived
  refine ⟨document, upload, text, documentType, output, onward.grows.document from_.job,
    from_.custody.keep onward.keeps, from_.extracts, ?_, from_.asked.onward onward, from_.result⟩
  obtain requested | ⟨unrequested, classification, same, asked⟩ := from_.decided
  · exact .inl requested
  · exact .inr ⟨unrequested, classification, same, asked.onward onward⟩

structure Findings.True (env : Env) (s : System) (jobId : Nat) (findings : Findings) : Prop where
  document : ∀ document, findings.document = some document →
    ∃ row, s.world.db.jobs jobId = some row ∧ s.world.db.documents row.documentId = some document
  data : ∀ data, findings.data = some data → ∃ document upload,
    (∃ row, s.world.db.jobs jobId = some row ∧ s.world.db.documents row.documentId = some document) ∧
      InCustody env s.world document upload ∧ data = upload.data
  classified : ∀ text output, findings.classified = some (text, output) →
    s.Asked env (.classify text) (.classified output)
  extracted : ∀ text documentType output, findings.extracted = some (text, documentType, output) →
    s.Asked env (.extract text documentType) (.extracted output)

theorem Findings.True.empty (env : Env) (s : System) (jobId : Nat) :
    Findings.True env s jobId {} where
  document _ found := by cases found
  data _ found := by cases found
  classified _ _ found := by cases found
  extracted _ _ _ found := by cases found

theorem Findings.True.onward {jobId : Nat} {findings : Findings}
    (true_ : findings.True env s jobId) (onward : Onward env s s') :
    findings.True env s' jobId where
  document document found := onward.grows.document (true_.document document found)
  data data found := by
    obtain ⟨document, upload, known, custody, same⟩ := true_.data data found
    exact ⟨document, upload, onward.grows.document known, custody.keep onward.keeps, same⟩
  classified text output found := (true_.classified text output found).onward onward
  extracted text documentType output found :=
    (true_.extracted text documentType output found).onward onward

theorem Findings.True.derives {event : DocumentProcessingEvent} {findings : Findings}
    (true_ : findings.True env s event.jobId) (agrees : s.world.db.Agrees event)
    {document : Document} {data : Bytes} {text : Text} {documentType : DocumentType}
    {output : ExtractionOutput} (extracted : findings.Extracted env event.requestedDocumentType
      document data text documentType output) :
    Derived env s (extractionRow env event.jobId text output) := by
  obtain ⟨row, isRow, isDocument⟩ := true_.document document extracted.selected
  obtain ⟨document', upload, ⟨row', isRow', isDocument'⟩, custody, rfl⟩ :=
    true_.data data extracted.read
  cases isRow.symm.trans isRow'
  cases isDocument.symm.trans isDocument'
  obtain ⟨_, _, named, ⟨row'', isRow'', rfl, isNamed⟩, names⟩ := agrees
  rw [← names.jobId] at isRow''
  cases isRow.symm.trans isRow''
  cases isDocument.symm.trans isNamed
  refine ⟨document, upload, text, documentType, output, ⟨row, isRow, isDocument⟩, custody,
    custody.extension ▸ extracted.extracts, ?_, true_.extracted _ _ _ extracted.answered, rfl⟩
  have resolved := extracted.resolved
  unfold Findings.TypeFound at resolved
  rw [names.requestedDocumentType] at resolved
  cases requested : document.requestedDocumentType with
  | some type =>
    rw [requested] at resolved
    exact .inl (requested.trans (congrArg some (Eq.symm resolved)))
  | none =>
    rw [requested] at resolved
    obtain ⟨classification, same, classified⟩ := resolved
    exact .inr ⟨requested, classification, same, true_.classified _ _ classified⟩

end Onward

theorem execute_insertsResult {env : Env} {ctx : Context} {w : World} {loc : Local} {choice : Choice}
    {o : Op} {reply : Reply o} (ran : o.execute env ctx w loc choice = some reply)
    {result : ExtractionResult} (pending : reply.loc.tx.result = some result) :
    loc.tx.result = some result ∨ o = .db (.insertResult result) := by
  cases o with
  | runtime o =>
    obtain ⟨done, did, rfl⟩ := execute_runtime ran
    exact .inl pending
  | redis o =>
    obtain ⟨-, rfl⟩ | ⟨error, -, -, rfl⟩ | ⟨error, -, -, rfl⟩ := execute_redis ran
    all_goals
      left
      cases o <;> cases choice <;> exact pending
  | db o =>
    by_cases commit : o = .commit
    · subst commit
      obtain ⟨-, rfl⟩ | ⟨error, -, -, rfl⟩ | ⟨error, -, -, rfl⟩ := execute_commit ran
      all_goals cases pending
    · obtain ⟨-, done, did, rfl⟩ | ⟨error, -, -, -, rfl⟩ := execute_db ran commit
      · dsimp only at pending
        cases o with
        | commit => exact absurd rfl commit
        | insertResult inserted =>
          simp only [Database.run] at did
          split at did <;> cases did
          · cases pending
          · cases pending
            exact .inr rfl
        | _ =>
          simp only [Database.run] at did
          repeat' split at did
          all_goals cases did <;> first | exact .inl pending | cases pending
      · cases pending

/-- Every result that is committed or pending has a provenance, and so has what
the attempts under way have found. -/
structure Traceable (env : Env) (x : Staged) (g : Nat → Findings) : Prop where
  reached : Reached env anyRun x.1
  conforms : ∀ (t : Nat) (th : Thread) (loop : Loop) (item : DeliveredEvent)
    (rest : List DeliveredEvent) (p : Prog (Option ProcessingOutcome)), x.1.threads[t]? = some th →
      th.control = .handling loop item rest p → finds env item.event p (fun _ _ => True) (g t)
  found : ∀ (t : Nat) (th : Thread) (item : DeliveredEvent), x.1.threads[t]? = some th →
    th.control.item? = some item → (g t).True env x.1 item.event.jobId
  pending : ∀ (t : Nat) (th : Thread) (result : ExtractionResult), x.1.threads[t]? = some th →
    th.loc.tx.result = some result → Derived env x.1 result
  results : ∀ jobId result, x.1.world.db.results jobId = some result → Derived env x.1 result

section Answers
variable {env : Env} {ctx : Context} {w : World} {loc : Local} {choice : Choice}

theorem classify_answer {text : Text} {output : ClassificationOutput}
    {reply : Reply (.runtime (.classify text))}
    (ran : Op.execute env ctx w loc (.runtime (.classify text)) choice = some reply)
    (answer : reply.answer = .ok output) : choice = .classified output := by
  obtain ⟨done, did, rfl⟩ := execute_runtime ran
  cases choice <;> cases did <;> cases answer
  rfl

theorem extract_answer {text : Text} {documentType : DocumentType} {output : ExtractionOutput}
    {reply : Reply (.runtime (.extract text documentType))}
    (ran : Op.execute env ctx w loc (.runtime (.extract text documentType)) choice = some reply)
    (answer : reply.answer = .ok output) : choice = .extracted output := by
  obtain ⟨done, did, rfl⟩ := execute_runtime ran
  cases choice <;> cases did <;> cases answer
  rfl

theorem readBytes_answer {path : List String} {data content : Bytes}
    {reply : Reply (.runtime (.readBytes path))}
    (ran : Op.execute env ctx w loc (.runtime (.readBytes path)) choice = some reply)
    (answer : reply.answer = .ok data)
    (there : w.runRuntime env ctx (.readBytes path) .ok = some (w, .ok content)) :
    data = content := by
  obtain ⟨done, did, rfl⟩ := execute_runtime ran
  cases choice with
  | ok =>
    cases there.symm.trans did
    exact (Except.ok.inj answer).symm
  | fails error =>
    cases did
    cases answer
  | _ => cases did

end Answers

theorem Call.handling_next {env : Env} {x : Staged} {t : Nat} {choice : Choice}
    (call : Call env x t choice) {loop : Loop} {item : DeliveredEvent} {rest : List DeliveredEvent}
    {p : Prog (Option ProcessingOutcome)} (control : call.thread.control = .handling loop item rest p) :
    ∃ next, p = .call call.o next ∧
      call.reached = .handling loop item rest (next call.reply.answer) := by
  obtain ⟨⟨proc, name, running, loc⟩, o, next, reply, found, waits, ran⟩ := call
  cases control
  cases p <;> cases waits
  exact ⟨_, rfl, rfl⟩

namespace Traceable
variable {env : Env} {x : Staged} {g : Nat → Findings} {t : Nat} {choice : Choice}

theorem answered (traceable : Traceable env x g) (proper : env.GatesExtensions)
    (consistent : Consistent env x) (call : Call env x t choice)
    (stepped : System.step env x.1 (.act t choice) = some call.result.1)
    (onward : Onward env x.1 call.result.1) {item : DeliveredEvent} {stage : AttemptStage}
    (is : AttemptCall call item stage) :
    ((g t).next call.o call.reply.answer).True env call.result.1 item.event.jobId := by
  obtain ⟨loop, rest, p, p', control, -⟩ := is.control
  have handles : call.thread.control.item? = some item := by rw [control]; rfl
  have before := (traceable.found t _ item call.found handles).onward onward
  have handleable := Reached.handleable proper traceable.reached call.found handles
  have permitted := is.permitted
  have asked : ∀ o, call.o = .runtime o → call.result.1.Asked env o choice := fun o isOp =>
    ⟨x.1, call.result.1, t, call.thread, traceable.reached, isOp ▸ call.call?_eq, stepped, .start⟩
  have keyed := consistent.keyed
  clear is
  generalize after : call.result.1 = s' at *
  obtain ⟨thread, o, next, reply, found, waits, ran⟩ := call
  dsimp only at *
  unfold Findings.next
  split
  · rename_i answer
    obtain ⟨-, rfl⟩ := AttemptStage.permits_selectJob permitted
    refine { before with document := fun other same => ?_ }
    cases same
    obtain ⟨stored, content⟩ := execute_selectJob ran answer
    exact onward.grows.document ⟨_, stored, content⟩
  · rename_i answer
    obtain ⟨row, document, upload, isRow, isDocument, custody, reads, -⟩ := handleable
    refine { before with data := fun other same => ?_ }
    cases same
    refine ⟨document, upload, onward.grows.document ⟨row, isRow, isDocument⟩,
      custody.keep onward.keeps, ?_⟩
    exact readBytes_answer ran answer (reads _ _ _ waits)
  · rename_i answer
    refine { before with classified := fun other output same => ?_ }
    cases same
    cases classify_answer ran answer
    exact asked _ rfl
  · rename_i answer
    refine { before with extracted := fun other documentType output same => ?_ }
    cases same
    cases extract_answer ran answer
    exact asked _ rfl
  · exact before

structure Carries (call : Call env x t choice) (findings : Findings) : Prop where
  conforms : ∀ (loop : Loop) (item : DeliveredEvent) (rest : List DeliveredEvent)
    (p : Prog (Option ProcessingOutcome)), call.thread'.control = .handling loop item rest p →
      finds env item.event p (fun _ _ => True) findings
  found : ∀ item : DeliveredEvent, call.thread'.control.item? = some item →
    findings.True env call.result.1 item.event.jobId

theorem Carries.anew {call : Call env x t choice}
    (begins : ∀ (loop : Loop) (item : DeliveredEvent) (rest : List DeliveredEvent)
      (p : Prog (Option ProcessingOutcome)), call.thread'.control = .handling loop item rest p →
        p = handle env call.thread.name item) : Carries call {} where
  conforms loop item rest p handles := by
    rw [begins loop item rest p handles]
    exact handle_finds _ _
  found item _ := .empty _ _ _

theorem carries (traceable : Traceable env x g) (proper : env.GatesExtensions)
    (consistent : Consistent env x) (call : Call env x t choice)
    (stepped : System.step env x.1 (.act t choice) = some call.result.1)
    (onward : Onward env x.1 call.result.1) : ∃ findings, Carries call findings := by
  obtain ⟨item, stage, is⟩ | ⟨request, stage, is⟩ | ⟨task, stage, is⟩ := consistent.kind call
  · obtain ⟨loop, rest, p, p', control, reached⟩ := is.control
    have settles : call.thread'.control = Control.settle env call.thread.name _ :=
      congrArg (Control.settle env call.thread.name) reached
    cases p' with
    | ret value =>
      refine ⟨{}, .anew fun loop' item' rest' q handles => ?_⟩
      rw [settles] at handles
      cases rest <;> cases handles
      rfl
    | raise error =>
      refine ⟨{}, .anew fun loop' item' rest' q handles => ?_⟩
      rw [settles] at handles
      cases handles
    | call o next =>
      refine ⟨(g t).next call.o call.reply.answer, fun loop' item' rest' q handles => ?_,
        fun item' handles => ?_⟩
      · rw [settles] at handles
        cases handles
        obtain ⟨onwards, rfl, after⟩ := call.handling_next control
        have same : onwards call.reply.answer = .call o next :=
          (Control.handling.inj (after.symm.trans reached)).2.2.2
        rw [← same]
        exact (traceable.conforms t _ loop item rest _ call.found control).2 _ _
          ⟨consistent.answers call, rfl⟩
      · rw [settles] at handles
        cases handles
        exact traceable.answered proper consistent call stepped onward is
  · refine ⟨{}, .anew fun loop item rest p handles => ?_⟩
    obtain reached | anew := settle_handling handles
    · obtain ⟨q, q', -, serves⟩ := is.control
      cases serves.symm.trans reached
    · exact anew
  · refine ⟨{}, .anew fun loop item rest p handles => ?_⟩
    obtain reached | anew := settle_handling handles
    · have runs := is.control.2.1
      rw [reached] at runs
      cases runs
    · exact anew

theorem pending_call (traceable : Traceable env x g) (consistent : Consistent env x) (deliveries : Deliveries x) (unique : Unique x)
    (agree : EventsAgree x) (call : Call env x t choice) {result : ExtractionResult}
    (pending : call.reply.loc.tx.result = some result) : Derived env x.1 result := by
  obtain before | inserts := execute_insertsResult call.ran pending
  · exact traceable.pending t _ result call.found before
  · obtain ⟨item, stage, is⟩ | ⟨request, stage, is⟩ | ⟨task, stage, is⟩ := consistent.kind call
    · obtain ⟨loop, rest, p, p', control, -⟩ := is.control
      have handles : call.thread.control.item? = some item := by rw [control]; rfl
      have true_ := traceable.found t _ item call.found handles
      have among : item ∈ call.thread.control.items := by
        rw [control]
        exact List.mem_cons_self
      have agrees := agree.delivered unique (deliveries.items t _ call.found item among)
      obtain ⟨next, rfl, -⟩ := call.handling_next control
      have permits := (traceable.conforms t _ loop item rest _ call.found control).1
      rw [inserts] at permits
      obtain ⟨document, data, text, documentType, output, extracted, rfl⟩ := permits
      exact true_.derives agrees extracted
    · have permitted := is.permitted
      rw [inserts] at permitted
      cases stage <;> exact permitted.elim
    · have permitted := is.permitted
      rw [inserts] at permitted
      exact (LoopStage.permits_db permitted).elim

theorem act (traceable : Traceable env x g) (proper : env.GatesExtensions)
    (consistent : Consistent env x) (deliveries : Deliveries x) (unique : Unique x)
    (agree : EventsAgree x) (call : Call env x t choice)
    (stepped : System.step env x.1 (.act t choice) = some call.result.1)
    (onward : Onward env x.1 call.result.1) : ∃ g', Traceable env call.result g' := by
  obtain ⟨findings, carries⟩ := traceable.carries proper consistent call stepped onward
  have own : Function.update g t findings t = findings := Function.update_self ..
  have other : ∀ {t'}, t' ≠ t → Function.update g t findings t' = g t' :=
    fun apart => Function.update_of_ne apart ..
  refine ⟨Function.update g t findings, traceable.reached.step stepped trivial, ?_, ?_, ?_, ?_⟩
  · intro t' th loop item rest p found handles
    obtain ⟨rfl, rfl⟩ | ⟨apart, isFound⟩ := call.threads_result found
    · rw [own]
      exact carries.conforms loop item rest p handles
    · rw [other apart]
      exact traceable.conforms t' th loop item rest p isFound handles
  · intro t' th item found handles
    obtain ⟨rfl, rfl⟩ | ⟨apart, isFound⟩ := call.threads_result found
    · rw [own]
      exact carries.found item handles
    · rw [other apart]
      exact (traceable.found t' th item isFound handles).onward onward
  · intro t' th result found pending
    obtain ⟨rfl, rfl⟩ | ⟨apart, isFound⟩ := call.threads_result found
    · exact (traceable.pending_call consistent deliveries unique agree call pending).onward onward
    · exact (traceable.pending t' th result isFound pending).onward onward
  · intro jobId result stored
    rw [show call.result.1.world.db.results = _ from execute_results call.ran] at stored
    refine Derived.onward ?_ onward
    split at stored
    · exact traceable.results jobId result stored
    · rename_i new recorded
      rw [Function.update_apply] at stored
      split at stored
      · cases stored
        exact traceable.pending t _ result call.found (records_commit recorded).2
      · exact traceable.results jobId result stored

theorem undisturbed {x' : Staged} {label : Label} (traceable : Traceable env x g)
    (consistent : Consistent env x) (move : Move env x label x')
    (noCall : ∀ t choice, label ≠ .act t choice)
    (stepped : System.step env x.1 label = some x'.1) (onward : Onward env x.1 x'.1) :
    Traceable env x' g where
  reached := traceable.reached.step stepped trivial
  conforms t th loop item rest p found handles := by
    obtain ⟨isFound, -⟩ | ⟨-, -, unhandled, -⟩ := consistent.threads move noCall found
    · exact traceable.conforms t th loop item rest p isFound handles
    · rw [handles] at unhandled
      cases unhandled
  found t th item found handles := by
    obtain ⟨isFound, -⟩ | ⟨-, -, unhandled, -⟩ := consistent.threads move noCall found
    · exact (traceable.found t th item isFound handles).onward onward
    · cases unhandled.symm.trans handles
  pending t th result found pending := by
    obtain ⟨isFound, -⟩ | ⟨idle, -⟩ := consistent.threads move noCall found
    · exact (traceable.pending t th result isFound pending).onward onward
    · rw [idle.tx] at pending
      cases pending
  results jobId result stored := by
    rw [(move.rests noCall).results] at stored
    exact (traceable.results jobId result stored).onward onward

end Traceable

theorem StagedRun.traceable {env : Env} (proper : env.GatesExtensions) {x : Staged}
    (h : StagedRun env anyRun x) : ∃ g, Traceable env x g := by
  refine Reach.invariant (I := fun x => ∃ g, Traceable env x g)
    ⟨fun _ => {}, .start, fun _ _ _ _ _ _ found => (by cases found),
      fun _ _ _ found => (by cases found), fun _ _ _ found => (by cases found),
      fun _ _ stored => (by cases stored)⟩ (fun x label x' reached held stagedStep _ => ?_) h
  obtain ⟨g, traceable⟩ := held
  have consistent := StagedRun.consistent reached
  have stepped := step_of_stagedStep stagedStep
  have move := move_of_step stagedStep
  have grows := (StagedRun.linked reached).grows consistent (StagedRun.locked reached) move
  obtain ⟨f, shelved⟩ := StagedRun.shelved proper reached
  obtain ⟨t, choice, call, rfl, rfl⟩ | noCall := move.call_or
  · obtain ⟨stage', files⟩ := shelved.files call consistent
    exact traceable.act proper consistent (StagedRun.deliveries reached) (StagedRun.unique reached)
      (StagedRun.eventsAgree proper reached) call stepped
      ⟨⟨_, stepped⟩, grows, shelved.keeps proper files⟩
  · have keeps : x.1.world.KeepsFiles x'.1.world := fun path data there => by
      rwa [move.files noCall]
    exact ⟨g, traceable.undisturbed consistent move noCall stepped ⟨⟨label, stepped⟩, grows, keeps⟩⟩

/-- In every run, a committed result is the row that `_persist` builds from the
provider's answer about the text of the bytes that the job's own upload stored:
asked for the type of the upload, or else for the type the provider gave for the
sample of that text. -/
theorem results_derived (env : Env) (unicode : FileValidation.Unicode)
    (settings : FileValidation.UploadSettings) (ascii : unicode.LowersAscii) {s : System}
    (h : Reached (env.withUploadGate unicode settings) anyRun s) {jobId : Nat}
    {result : ExtractionResult} (stored : s.world.db.results jobId = some result) :
    result.jobId = jobId ∧ ∃ document upload text documentType output,
      Provenance (env.withUploadGate unicode settings) s result document upload text documentType
        output := by
  obtain ⟨stages, staged⟩ := h.staged
  obtain ⟨g, traceable⟩ := StagedRun.traceable
    (fun file upload => FileValidation.uploadGate_extension ascii) staged
  exact ⟨(StagedRun.permanent staged).keyed jobId result stored,
    traceable.results jobId result stored⟩

/-- A text that is classified, extracted and stored. -/
theorem results_derived_txt : ∃ s result, Reached (sampleEnv.withUploadGate asciiUnicode {}) anyRun s ∧
    s.world.db.results 2 = some result ∧ result.jobId = 2 ∧
      ∃ document upload text documentType output, Provenance (sampleEnv.withUploadGate asciiUnicode {})
        s result document upload text documentType output := by
  obtain ⟨s, reached, accepted⟩ := Reached.exists_run (sampleEnv.withUploadGate asciiUnicode {}) anyRun
    (fun _ _ _ => true) (fun s => (s.world.db.results 2).isSome) (fun _ _ _ _ => trivial)
    ([.receive 0 (.upload ⟨some "a.txt", some "text/plain", [[104, 105]]⟩ none)] ++ Label.oks 0 14 ++
      [.startWorker 1 "w", .iterate 1] ++ Label.oks 1 8 ++
      [.act 1 (.classified { documentType := .generic }), .act 1 sampleExtraction] ++ Label.oks 1 4)
    (by decide +kernel)
  obtain ⟨result, stored⟩ := Option.isSome_iff_exists.mp accepted
  obtain ⟨keyed, derived⟩ := results_derived sampleEnv asciiUnicode {} (fun _ _ => rfl) reached stored
  exact ⟨s, result, reached, stored, keyed, derived⟩

end DocumentPipeline

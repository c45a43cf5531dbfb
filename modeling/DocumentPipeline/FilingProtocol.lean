import DocumentPipeline.LoopProtocol
import DocumentPipeline.StorageKeys

/-! What a request holds on its way from the file over the rows to the event: the
UUID its file is named by, the file it has stored, and the rows it has read back.
The calls that write a file, a document or an event are permitted on these only. -/

namespace DocumentPipeline
open EffectProgram JobService Queue Routes

inductive FilingStage
  | start (upload : Option ValidatedUpload)
  | named (upload : ValidatedUpload) (uuid : Nat)
  | dated (upload : ValidatedUpload) (uuid : Nat) (today : Time)
  | filed (upload : ValidatedUpload) (uuid : Nat) (today : Time)
  | known (jobId documentId : Nat) (document : Document)

/-- What `save` returns. -/
def storedAs (env : Env) (upload : ValidatedUpload) (uuid : Nat) (today : Time) : StoredFile where
  storedFilename := uuidText uuid ++ upload.extension
  storagePath := FileStorage.dateDirectory today ++ "/" ++ (uuidText uuid ++ upload.extension)
  size := upload.data.length
  checksum := env.sha256Hex upload.data

structure Document.Describes (document : Document) (stored : StoredFile) : Prop where
  storedFilename : document.storedFilename = stored.storedFilename
  storagePath : document.storagePath = stored.storagePath
  fileSize : document.fileSize = stored.size
  checksum : document.checksum = stored.checksum

/-- An event names a job, its document, and the document's key and type. -/
structure DocumentProcessingEvent.Names (event : DocumentProcessingEvent) (jobId documentId : Nat)
    (document : Document) : Prop where
  jobId : event.jobId = jobId
  documentId : event.documentId = documentId
  storagePath : event.storagePath = document.storagePath
  requestedDocumentType : event.requestedDocumentType = document.requestedDocumentType

namespace FilingStage

def fileId? : FilingStage → Option Nat
  | .named _ uuid | .dated _ uuid _ => some uuid
  | _ => none

def upload? : FilingStage → Option ValidatedUpload
  | .start upload => upload
  | .named upload _ | .dated upload _ _ | .filed upload _ _ => some upload
  | .known .. => none

def first (env : Env) : Request → FilingStage
  | .upload file _ => .start (env.uploadGate file).toOption
  | .retry _ => .start none

def permits (env : Env) (stage : FilingStage) : Op → Prop
  | .runtime (.writeBytes path data) => ∃ upload uuid today, stage = .dated upload uuid today ∧
    data = upload.data ∧
    FileStorage.resolve env.storageRoot (storedAs env upload uuid today).storagePath = .ok path
  | .db (.insertDocument _ document) => ∃ upload uuid today, stage = .filed upload uuid today ∧
    document.Describes (storedAs env upload uuid today)
  | .db (.selectDocument id) => ∃ jobId document, stage = .known jobId id document
  | .redis (.xadd fields) => ∃ jobId documentId document event, stage = .known jobId documentId document ∧
    fields = toStreamFields event ∧ event.Names jobId documentId document
  | _ => True

def next : FilingStage → (o : Op) → Except Exn o.Val → FilingStage
  | .start (some upload), .runtime .uuid4, .ok uuid => .named upload uuid
  | .named upload uuid, .runtime .utcnow, .ok today => .dated upload uuid today
  | .dated upload uuid today, .runtime (.writeBytes _ _), .ok _ => .filed upload uuid today
  | .dated _ _ _, .runtime (.writeBytes _ _), .error _ => .start none
  | _, .db (.selectJob _), .ok (some (row, document)) => .known row.id row.documentId document
  | .known jobId documentId _, .db (.selectDocument _), .ok (some document) =>
    .known jobId documentId document
  | stage, _, _ => stage

theorem next_openSession (stage : FilingStage) (reply : Except Exn Unit) :
    stage.next (.db .openSession) reply = stage := by
  rcases stage with (_ | _) | _ | _ | _ | _ <;> rfl

theorem next_selectJob (stage : FilingStage) (jobId : Nat) (found : ProcessingJob × Document) :
    stage.next (.db (.selectJob jobId)) (.ok (some found)) =
      .known found.1.id found.1.documentId found.2 := by
  rcases stage with (_ | _) | _ | _ | _ | _ <;> rfl

end FilingStage

def Op.files : Op → Prop
  | .runtime (.writeBytes _ _) | .db (.insertDocument _ _) | .db (.selectDocument _)
  | .redis (.xadd _) => True
  | _ => False

abbrev filing (env : Env) {α : Type} (p : Prog α) (Q : Except Exn α → FilingStage → Prop)
    (stage : FilingStage) : Prop :=
  wp (.tracking (FilingStage.permits env) credible FilingStage.next) p Q stage

section Filing
variable (env : Env)

theorem filing_of_avoids {α : Type} {p : Prog α} (avoids : p.Avoids Op.files) (stage : FilingStage) :
    filing env p (fun _ _ => True) stage := by
  refine avoids.wp (I := fun _ => True) (fun stage o _ other => ?_) (fun _ _ _ _ _ _ _ => trivial) trivial
  change stage.permits env o
  unfold FilingStage.permits
  split <;> trivial

theorem save_filing (upload : ValidatedUpload) :
    filing env (FileStorage.save env upload.data upload.extension) (fun r stage => match r with
      | .ok stored => ∃ uuid today, stage = .filed upload uuid today ∧
        stored = storedAs env upload uuid today
      | .error _ => True) (.start (some upload)) := by
  refine wp_tracking_then trivial (fun uuid _ => ?_) fun _ impossible => impossible.elim
  refine wp_tracking_then trivial (fun today _ => ?_) fun _ impossible => impossible.elim
  refine (wp_bind _ _ _ _ _).mpr ((wp_lift _ _ _ _).mpr ?_)
  cases resolved : FileStorage.resolve env.storageRoot
      (FileStorage.dateDirectory today ++ "/" ++ (uuidText uuid ++ upload.extension)) with
  | error error => trivial
  | ok destination =>
    refine (wp_bind _ _ _ _ _).mpr ((wp_tryCatch _ _ _ _ _).mpr
      (wp_tracking_perform ⟨upload, uuid, today, rfl, rfl, resolved⟩ (fun _ _ => ?_) fun error _ => ?_))
    · exact ⟨uuid, today, rfl, rfl⟩
    · dsimp only
      split <;> trivial

/-- The rows an object was read from are those of the stage. -/
def Holds (job : JobObject) (stage : FilingStage) : Prop :=
  job.expired = false ∧ stage = .known job.row.id job.row.documentId job.document

theorem createDocumentAndJob_filing (upload : ValidatedUpload) (uuid : Nat) (today : Time)
    (originalFilename contentType : String) (documentType : Option DocumentType) (maxRetries : Int) :
    filing env (createDocumentAndJob (storedAs env upload uuid today) originalFilename contentType
      documentType maxRetries) (fun r stage => match r with
        | .ok job => Holds job stage
        | .error _ => True) (.filed upload uuid today) := by
  refine wp_tracking_then trivial (fun documentId _ => ?_) fun _ impossible => impossible.elim
  refine wp_tracking_then trivial (fun jobId _ => ?_) fun _ impossible => impossible.elim
  refine wp_tracking_then ⟨upload, uuid, today, rfl, rfl, rfl, rfl, rfl⟩ (fun _ _ => ?_) fun _ _ => trivial
  refine wp_tracking_then trivial (fun _ _ => ?_) fun _ _ => trivial
  refine wp_tracking_then trivial (fun _ _ => ?_) fun _ _ => trivial
  refine (wp_bind _ _ _ _ _).mpr (wp_tracking_then trivial (fun found _ => ?_) fun _ _ => trivial)
  cases found with
  | none => trivial
  | some pair =>
    refine wp_tracking_then ⟨_, _, rfl⟩ (fun document _ => ?_) fun _ _ => trivial
    cases document with
    | none => trivial
    | some document => exact ⟨rfl, rfl⟩

theorem markFailed_files (job : JobObject) (message : String) : (markFailed job message).Avoids Op.files :=
  .bind (.lift _) fun _ => .bind (.lift _) fun _ => .bind (.perform nofun) fun _ =>
    .bind (.bind (.perform nofun) fun _ => .perform nofun) fun _ => trivial

theorem publishOrFail_filing {job : JobObject} (message : String) {stage : FilingStage}
    (holds : Holds job stage) : filing env (publishOrFail job message) (fun _ _ => True) stage := by
  obtain ⟨fresh, rfl⟩ := holds
  refine (wp_tryCatch _ _ _ _ _).mpr (wp_seq (R := fun _ _ => True) _ ?_ (fun _ _ _ => trivial)
    fun error stage _ => ?_)
  · simp only [publishJob, buildEvent, JobObject.attributes, fresh, Bool.false_eq_true, if_false]
    refine (wp_bind _ _ _ _ _).mpr ((wp_bind _ _ _ _ _).mpr ((wp_lift _ _ _ _).mpr ?_))
    refine wp_tracking_then trivial (fun eventId _ => ?_) fun _ impossible => impossible.elim
    refine (wp_tryCatch _ _ _ _ _).mpr (wp_tracking_perform
      ⟨_, _, _, _, rfl, rfl, rfl, rfl, rfl, rfl⟩ (fun _ _ => trivial) fun error _ => ?_)
    dsimp only
    split <;> trivial
  · refine filing_of_avoids env ?_ stage
    split
    · exact .bind (markFailed_files _ _) fun _ => trivial
    · trivial

theorem providedSession_filing {body : Prog ApiResponse} {stage : FilingStage}
    (h : filing env body (fun _ _ => True) stage) :
    filing env (providedSession body) (fun _ _ => True) stage := by
  refine wp_tracking_then trivial (fun _ _ => ?_) fun _ _ => trivial
  rw [FilingStage.next_openSession]
  refine (wp_andFinally _ _ _ _ _).mpr ((wp_tryCatch _ _ _ _ _).mpr (wp_mono _ ?_ h))
  rintro (error | response) stage -
  · refine wp_tracking_then trivial (fun _ _ => ?_) fun _ _ => ?_
    · exact wp_tracking_perform trivial (fun _ _ => trivial) fun _ _ => trivial
    · exact wp_tracking_perform trivial (fun _ _ => trivial) fun _ _ => trivial
  · exact wp_tracking_perform trivial (fun _ _ => trivial) fun _ _ => trivial

theorem resetForManualRetry_filing {job : JobObject} {stage : FilingStage} (holds : Holds job stage) :
    filing env (resetForManualRetry job) (fun r stage => match r with
      | .ok other => Holds other stage
      | .error _ => True) stage := by
  obtain ⟨fresh, rfl⟩ := holds
  simp only [resetForManualRetry, JobObject.attributes, fresh, Bool.false_eq_true, if_false]
  refine (wp_bind _ _ _ _ _).mpr ((wp_lift _ _ _ _).mpr ?_)
  refine (wp_bind _ _ _ _ _).mpr ((wp_lift _ _ _ _).mpr ?_)
  cases ensureTransitionAllowed job.row.status .queued with
  | error error => trivial
  | ok _ =>
    refine wp_tracking_then trivial (fun now _ => ?_) fun _ impossible => impossible.elim
    refine (wp_bind _ _ _ _ _).mpr (wp_tracking_then trivial (fun _ _ => ?_) fun _ _ => trivial)
    exact wp_tracking_perform trivial (fun _ _ => ⟨rfl, rfl⟩) fun _ _ => trivial

theorem retryJob_filing (jobId : Nat) (stage : FilingStage) :
    filing env (retryJob jobId) (fun _ _ => True) stage := by
  refine providedSession_filing env ?_
  refine wp_seq (R := fun r stage => match r with
    | .ok job => Holds job stage
    | .error _ => True) _ ?_ ?_ fun _ _ _ => trivial
  · refine wp_tracking_then trivial (fun found _ => ?_) fun _ _ => trivial
    cases found with
    | none => trivial
    | some pair => exact ⟨rfl, FilingStage.next_selectJob stage jobId pair⟩
  · intro job stage holds
    refine wp_seq _ (resetForManualRetry_filing env holds) ?_ fun _ _ _ => trivial
    intro other stage holds
    exact wp_seq _ (publishOrFail_filing env _ holds) (fun _ _ _ => trivial) fun _ _ _ => trivial

theorem uploadDocument_filing (file : UploadFile) (documentType : Option DocumentType) :
    filing env (uploadDocument env file documentType) (fun _ _ => True)
      (FilingStage.first env (.upload file documentType)) := by
  refine providedSession_filing env ((wp_bind _ _ _ _ _).mpr ((wp_lift _ _ _ _).mpr ?_))
  simp only [FilingStage.first]
  cases env.uploadGate file with
  | error error => trivial
  | ok upload =>
    refine wp_seq _ (save_filing env upload) ?_ fun _ _ _ => trivial
    rintro stored _ ⟨uuid, today, rfl, rfl⟩
    refine wp_seq _ (createDocumentAndJob_filing env upload uuid today _ _ _ _) ?_ fun _ _ _ => trivial
    intro job stage created
    exact wp_seq _ (publishOrFail_filing env _ created) (fun _ _ _ => trivial)
      fun _ _ _ => trivial

end Filing
end DocumentPipeline

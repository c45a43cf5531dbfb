import DocumentPipeline.Acceptance
import DocumentPipeline.Permanence
import DocumentPipeline.Pagination

/-! What clients see of jobs while the system goes on. `get_job` and `list_jobs`
issue several SELECTs, each of which may find a later state than the one before:
the jobs first, then their results and documents (`selectinload`), and for a
page the count last. Rows are never deleted and results never change, and with
the statements in this order a response fits together and fits every later one. -/

namespace DocumentPipeline
open EffectProgram Transition Select JobService

structure Database.Onward (db db' : Database) : Prop where
  jobs : ∀ jobId row, db.jobs jobId = some row → ∃ row', db'.jobs jobId = some row' ∧ row.SameJob row'
  results : ∀ jobId result, db.results jobId = some result → db'.results jobId = some result
  documents : ∀ id document, db.documents id = some document → db'.documents id = some document

structure Database.Whole (db : Database) : Prop where
  keyed : db.Keyed
  filed : ∀ jobId row, db.jobs jobId = some row →
    ∃ document, db.documents row.documentId = some document
  owned : ∀ jobId result, db.results jobId = some result → result.jobId = jobId
  completed : ∀ jobId row, db.jobs jobId = some row → row.status = .completed →
    (db.results jobId).isSome = true

section Runs
variable {env : Env} {s s' : System}

theorem Database.Onward.refl (db : Database) : db.Onward db :=
  ⟨fun _ row found => ⟨row, found, rfl, rfl, rfl, rfl⟩, fun _ _ found => found, fun _ _ found => found⟩

theorem Database.Onward.trans {db db' db'' : Database} (h : db.Onward db') (h' : db'.Onward db'') :
    db.Onward db'' where
  jobs jobId row found := by
    obtain ⟨row', found', same⟩ := h.jobs jobId row found
    obtain ⟨row'', found'', same'⟩ := h'.jobs jobId row' found'
    exact ⟨row'', found'', same.trans same'⟩
  results jobId result found := h'.results jobId result (h.results jobId result found)
  documents id document found := h'.documents id document (h.documents id document found)

theorem Reached.whole (h : Reached env anyRun s) : s.world.db.Whole := by
  obtain ⟨g, staged⟩ := h.staged
  have permanent := StagedRun.permanent staged
  exact ⟨staged.consistent.keyed, fun jobId row found =>
    Option.isSome_iff_exists.mp ((StagedRun.linked staged).linked jobId row found),
    permanent.keyed, permanent.completed⟩

theorem Reached.onward (h : Reached env anyRun s) (later : Reach (System.step env) s anyRun s') :
    Reached env anyRun s' ∧ s.world.db.Onward s'.world.db := by
  induction later with
  | start => exact ⟨h, .refl _⟩
  | step _ stepped free ih =>
    obtain ⟨reached, before⟩ := ih
    obtain ⟨g, staged⟩ := reached.staged
    have moved := stagedStep_of_step g stepped
    refine ⟨reached.step stepped free, before.trans ⟨fun jobId row found => sameJob_step staged moved found,
      fun jobId result found => results_step staged moved found, ?_⟩⟩
    exact ((StagedRun.linked staged).grows staged.consistent staged.locked (move_of_step moved)).documents

end Runs

/-- The SELECTs of the read endpoints: a job by its id, a page of jobs, a count,
and the two of `selectinload`. -/
inductive ReadOp
  | job (jobId : Nat)
  | page (query : Query ProcessingJob)
  | count (filters : List (ProcessingJob → Bool))
  | results (jobIds : List Nat)
  | documents (ids : List Nat)

@[reducible] def ReadOp.Val : ReadOp → Type
  | .job _ => Option ProcessingJob
  | .page _ => List ProcessingJob
  | .count _ => Nat
  | .results _ => List ExtractionResult
  | .documents _ => List (Nat × Document)

abbrev ReadProg (α : Type) := Program ReadOp ReadOp.Val Exn α

structure Database.Holds (db : Database) (table : List ProcessingJob) : Prop where
  distinct : (table.map (·.id)).Nodup
  rows : ∀ job, job ∈ table ↔ db.jobs job.id = some job

/-- What the database may reply; its errors are none of the application's own. -/
def ReadOp.Replies (db : Database) : (o : ReadOp) → Except Exn o.Val → Prop
  | .job jobId, .ok found => found = db.jobs jobId
  | .page query, .ok jobs => ∃ table, db.Holds table ∧ query.Answers table jobs
  | .count filters, .ok total => ∃ table, db.Holds table ∧ total = (table.filter (wanted filters)).length
  | .results jobIds, .ok found =>
    ∀ result, result ∈ found ↔ ∃ jobId ∈ jobIds, db.results jobId = some result
  | .documents ids, .ok found =>
    ∀ id document, (id, document) ∈ found ↔ id ∈ ids ∧ db.documents id = some document
  | _, .error error => ∀ app, error ≠ .app app

structure LoadedJob where
  row : ProcessingJob
  result : Option ExtractionResult
  document : Option Document

structure JobSummary where
  id : Nat
  documentId : Nat
  status : JobStatus
  retryCount : Int
  maxRetries : Int
  errorMessage : Option String
  queuedAt : Time
  startedAt : Option Time
  completedAt : Option Time
  processingDurationMs : Option Int
  createdAt : Time
  originalFilename : Option String
  detectedDocumentType : Option DocumentType

structure ExtractionResultResponse where
  detectedDocumentType : DocumentType
  extractedData : Json
  modelProvider : String
  modelName : String
  promptVersion : String
  inputTokens : Option Int
  outputTokens : Option Int
  confidenceScore : Option ℚ

structure JobDetail extends JobSummary where
  result : Option ExtractionResultResponse
  consumerName : Option String

structure JobPage where
  items : List JobSummary
  total : Nat
  limit : Nat
  offset : Nat

/-- Whether further rows exist beyond this page. -/
def JobPage.hasMore (page : JobPage) : Bool := page.offset + page.items.length < page.total

namespace Views

/-- The `selectinload` options of `_job_query`. -/
def loadRelated (jobs : List ProcessingJob) : ReadProg (List LoadedJob) :=
  if jobs.isEmpty then return [] else do
    let results : List ExtractionResult ← Program.perform (ReadOp.results (jobs.map (·.id)))
    let documents : List (Nat × Document) ← Program.perform (ReadOp.documents (jobs.map (·.documentId)))
    return jobs.map fun job => {
      row := job
      result := results.find? (·.jobId = job.id)
      document := (documents.find? (·.1 = job.documentId)).map (·.2) }

def getJob (jobId : Nat) : ReadProg LoadedJob := do
  let found : Option ProcessingJob ← Program.perform (ReadOp.job jobId)
  let jobs ← loadRelated found.toList
  match jobs with
  | [] => throw (jobNotFound jobId)
  | job :: _ => return job

def listJobs (status : Option JobStatus) (limit offset : Nat) : ReadProg (List LoadedJob × Nat) := do
  let rows : List ProcessingJob ← Program.perform (ReadOp.page (pageQuery status limit offset))
  let jobs ← loadRelated (unique rows)
  let total : Nat ← Program.perform (ReadOp.count (filters status))
  return (jobs, total)

/-- `_to_summary`. -/
def toSummary (job : LoadedJob) : JobSummary where
  id := job.row.id
  documentId := job.row.documentId
  status := job.row.status
  retryCount := job.row.retryCount
  maxRetries := job.row.maxRetries
  errorMessage := job.row.errorMessage
  queuedAt := job.row.queuedAt
  startedAt := job.row.startedAt
  completedAt := job.row.completedAt
  processingDurationMs := job.row.processingDurationMs
  createdAt := job.row.createdAt
  originalFilename := job.document.map (·.originalFilename)
  detectedDocumentType := job.result.map (·.detectedDocumentType)

def toResponse (result : ExtractionResult) : ExtractionResultResponse where
  detectedDocumentType := result.detectedDocumentType
  extractedData := result.extractedData
  modelProvider := result.modelProvider
  modelName := result.modelName
  promptVersion := result.promptVersion
  inputTokens := result.inputTokens
  outputTokens := result.outputTokens
  confidenceScore := result.confidenceScore

/-- `GET /jobs/{job_id}`. -/
def jobDetail (jobId : Nat) : ReadProg JobDetail := do
  let job ← getJob jobId
  return { toSummary job with
    result := job.result.map toResponse
    consumerName := job.row.consumerName }

/-- `GET /jobs`. -/
def jobPage (status : Option JobStatus) (limit offset : Nat) : ReadProg JobPage := do
  let (jobs, total) ← listJobs status limit offset
  return { items := jobs.map toSummary, total, limit, offset }

def following : Protocol ReadOp ReadOp.Val Exn Database where
  permits _ _ := True
  next db o reply db' := db.Onward db' ∧ db'.Whole ∧ o.Replies db' reply

/-- The statements of a request to a running system. -/
def browsing (env : Env) : Protocol ReadOp ReadOp.Val Exn System where
  permits _ _ := True
  next s o reply s' := Reach (System.step env) s anyRun s' ∧ o.Replies s'.world.db reply

theorem follows_of_browses {env : Env} {α : Type} {p : ReadProg α} {s s' : System} {r : Except Exn α}
    (h : Reached env anyRun s) (ended : p.Ends (browsing env) s r s') :
    p.Ends following s.world.db r s'.world.db ∧ Reached env anyRun s' ∧
      s.world.db.Onward s'.world.db := by
  induction ended with
  | ret value s => exact ⟨.ret value _, h, .refl _⟩
  | raise error s => exact ⟨.raise error _, h, .refl _⟩
  | call moved _ ih =>
    obtain ⟨reached, onward⟩ := h.onward moved.1
    obtain ⟨rest, reached', onward'⟩ := ih reached
    exact ⟨.call ⟨onward, reached.whole, moved.2⟩ rest, reached', onward.trans onward'⟩

/-- What a loaded job shows of the rows from when it was found until it was loaded. -/
structure Faithful (db db' : Database) (job : LoadedJob) : Prop where
  row : db.jobs job.row.id = some job.row
  document : ∃ document, db'.documents job.row.documentId = some document ∧ job.document = some document
  kept : ∀ result, db.results job.row.id = some result → job.result = some result
  result : ∀ result, job.result = some result → db'.results job.row.id = some result

def Yields {α : Type} (R : α → Prop) (r : Except Exn α) : Prop :=
  (∀ value, r = .ok value → R value) ∧ ∀ error, r = .error error → ∀ app, error ≠ .app app

section Statements
variable {db : Database} {α : Type}

theorem yields_ok {R : α → Prop} {value : α} (h : R value) : Yields R (.ok value) :=
  ⟨fun _ same => (by cases same; exact h), fun _ same => (by cases same)⟩

theorem yields_error {R : α → Prop} {error : Exn} (h : ∀ app, error ≠ .app app) :
    Yields R (.error error) :=
  ⟨fun _ same => (by cases same), fun _ same => (by cases same; exact h)⟩

theorem find?_eq_of_unique {β : Type} {holds : β → Bool} {l : List β} {b : β} (mem : b ∈ l)
    (own : holds b = true) (only : ∀ other ∈ l, holds other = true → other = b) :
    l.find? holds = some b := by
  cases found : l.find? holds with
  | none => exact absurd own (List.find?_eq_none.mp found b mem)
  | some other => rw [only other (List.mem_of_find?_eq_some found) (List.find?_some found)]

theorem follows_then {o : ReadOp} {f : o.Val → ReadProg α} {Q : Except Exn α → Database → Prop}
    (ok : ∀ value db', db.Onward db' → db'.Whole → o.Replies db' (.ok value) → wp following (f value) Q db')
    (failed : ∀ error db', db.Onward db' → db'.Whole → (∀ app, error ≠ .app app) → Q (.error error) db') :
    wp following (Program.perform o >>= f) Q db := by
  refine (wp_bind _ _ _ _ _).mpr ((wp_perform _ _ _ _).mpr ⟨trivial, fun reply db' moved => ?_⟩)
  obtain ⟨onward, whole, replied⟩ := moved
  cases reply with
  | ok value => exact ok value db' onward whole replied
  | error error => exact failed error db' onward whole (by cases o <;> exact replied)

theorem loadRelated_follows (whole : db.Whole) {jobs : List ProcessingJob}
    (stored : ∀ job ∈ jobs, db.jobs job.id = some job) :
    wp following (loadRelated jobs) (fun r db' => db.Onward db' ∧ db'.Whole ∧
      Yields (fun loaded => loaded.map (·.row) = jobs ∧ ∀ job ∈ loaded, Faithful db db' job) r) db := by
  unfold loadRelated
  split
  · rename_i none_
    rw [List.isEmpty_iff.mp none_]
    exact ⟨.refl db, whole, yields_ok ⟨rfl, fun _ absurd => (List.not_mem_nil absurd).elim⟩⟩
  · refine follows_then (fun results db₁ onward₁ whole₁ isResults => ?_)
      fun error db₁ onward whole other => ⟨onward, whole, yields_error other⟩
    refine follows_then (fun documents db₂ onward₂ whole₂ isDocuments => ?_)
      fun error db₂ onward whole other => ⟨onward₁.trans onward, whole, yields_error other⟩
    refine ⟨onward₁.trans onward₂, whole₂, yields_ok ⟨by simp [Function.comp_def], fun loaded among => ?_⟩⟩
    obtain ⟨job, mem, rfl⟩ := List.mem_map.mp among
    have row := stored job mem
    refine ⟨row, ?_, fun result found => ?_, fun result found => ?_⟩
    · obtain ⟨document, filed⟩ := whole.filed job.id job row
      have filed₂ := onward₂.documents _ _ (onward₁.documents _ _ filed)
      refine ⟨document, filed₂, ?_⟩
      have loads : documents.find? (·.1 = job.documentId) = some (job.documentId, document) := by
        refine find?_eq_of_unique ((isDocuments _ _).mpr ⟨List.mem_map_of_mem mem, filed₂⟩)
          (decide_eq_true rfl) fun other among own => ?_
        obtain ⟨id, document'⟩ := other
        obtain rfl : id = job.documentId := of_decide_eq_true own
        cases ((isDocuments _ _).mp among).2.symm.trans filed₂
        rfl
      rw [loads]
      rfl
    · have found₁ := onward₁.results _ _ found
      have owner := whole.owned _ _ found
      refine find?_eq_of_unique ((isResults _).mpr ⟨job.id, List.mem_map_of_mem mem, found₁⟩)
        (decide_eq_true owner) fun other among own => ?_
      obtain ⟨jobId, -, found'⟩ := (isResults other).mp among
      obtain rfl : jobId = job.id :=
        (whole₁.owned _ _ found').symm.trans (of_decide_eq_true own)
      exact Option.some.inj (found'.symm.trans found₁)
    · have loads : results.find? (fun other => other.jobId = job.id) = some result := found
      obtain ⟨jobId, -, found'⟩ := (isResults result).mp (List.mem_of_find?_eq_some loads)
      have own := List.find?_some loads
      obtain rfl : jobId = job.id := (whole₁.owned _ _ found').symm.trans (of_decide_eq_true own)
      exact onward₂.results _ _ found'

end Statements

section Detail
variable {db db' : Database} {jobId : Nat}

theorem Faithful.completed {job : LoadedJob} (h : Faithful db db' job) (whole : db.Whole)
    (completed : job.row.status = .completed) : job.result.isSome = true := by
  obtain ⟨result, stored⟩ := Option.isSome_iff_exists.mp (whole.completed _ _ h.row completed)
  rw [h.kept result stored]
  rfl

theorem getJob_follows : wp following (getJob jobId) (fun r db' =>
    (∀ job, r = .ok job → job.row.id = jobId ∧
      ∃ db₁, db.Onward db₁ ∧ db₁.Whole ∧ db₁.Onward db' ∧ Faithful db₁ db' job) ∧
    (r = .error (jobNotFound jobId) → db.jobs jobId = none)) db := by
  refine follows_then (fun found db₁ onward whole isFound => ?_) fun error db₁ _ _ other =>
    ⟨fun _ same => (by cases same), fun same => absurd (Except.error.inj same) (other _)⟩
  have stored : ∀ job ∈ found.toList, db₁.jobs job.id = some job := fun job mem => by
    obtain rfl := Option.mem_toList.mp mem
    rw [whole.keyed jobId job isFound.symm]
    exact isFound.symm
  refine wp_seq _ (loadRelated_follows whole stored) ?_ ?_
  · rintro loaded db₂ ⟨onward₂, -, yields⟩
    obtain ⟨rows, faithful⟩ := yields.1 loaded rfl
    cases loaded with
    | nil =>
      refine ⟨fun _ same => (by cases same), fun _ => ?_⟩
      have absent : found = none := Option.toList_eq_nil_iff.mp rows.symm
      cases before : db.jobs jobId with
      | none => rfl
      | some row =>
        obtain ⟨row', after, -⟩ := onward.jobs jobId row before
        cases (absent.symm.trans isFound).trans after
    | cons job rest =>
      refine ⟨fun _ same => ?_, fun same => (by cases same)⟩
      cases same
      refine ⟨?_, db₁, onward, whole, onward₂, faithful job List.mem_cons_self⟩
      have among : job.row ∈ found.toList := rows ▸ List.mem_cons_self
      exact whole.keyed jobId job.row (isFound.symm.trans (Option.mem_toList.mp among))
  · rintro error db₂ ⟨-, -, yields⟩
    exact ⟨fun _ same => (by cases same), fun same => absurd (Except.error.inj same) (yields.2 error rfl _)⟩

/-- What the response about a job says of the rows before and after the request. -/
structure Shows (db db' : Database) (detail : JobDetail) : Prop where
  job : ∃ row, db'.jobs detail.id = some row ∧ row.documentId = detail.documentId ∧
    row.maxRetries = detail.maxRetries ∧ row.createdAt = detail.createdAt
  document : ∃ document, db'.documents detail.documentId = some document ∧
    detail.originalFilename = some document.originalFilename
  known : ∀ result, db.results detail.id = some result → detail.result = some (toResponse result)
  result : ∀ response, detail.result = some response →
    ∃ result, db'.results detail.id = some result ∧ response = toResponse result
  type : detail.detectedDocumentType = detail.result.map (·.detectedDocumentType)
  completed : detail.status = .completed → detail.result.isSome = true

theorem jobDetail_follows : wp following (jobDetail jobId) (fun r db' =>
    (∀ detail, r = .ok detail → detail.id = jobId ∧ Shows db db' detail) ∧
    (r = .error (jobNotFound jobId) → db.jobs jobId = none)) db := by
  refine wp_seq _ getJob_follows ?_ fun error db' h => ⟨fun _ same => (by cases same), fun same => ?_⟩
  swap
  · cases same
    exact h.2 rfl
  rintro job db' ⟨loads, -⟩
  obtain ⟨own, db₁, onward, whole, onward₁, faithful⟩ := loads job rfl
  refine ⟨fun detail same => ?_, fun same => (by cases same)⟩
  cases same
  refine ⟨own, ⟨?_, ?_, fun result stored => ?_, fun response shown => ?_, ?_, fun completed => ?_⟩⟩
  · obtain ⟨row, found, same⟩ := onward₁.jobs _ _ faithful.row
    exact ⟨row, found, same.documentId, same.maxRetries, same.createdAt⟩
  · obtain ⟨document, filed, loaded⟩ := faithful.document
    exact ⟨document, filed, congrArg (Option.map Document.originalFilename) loaded⟩
  · exact congrArg (Option.map toResponse) (faithful.kept result (onward.results _ _ stored))
  · obtain ⟨result, loaded, rfl⟩ := Option.map_eq_some_iff.mp shown
    exact ⟨result, faithful.result result loaded, rfl⟩
  · change job.result.map _ = (job.result.map toResponse).map _
    rw [Option.map_map]
    rfl
  · exact Option.isSome_map.trans (faithful.completed whole completed)

end Detail

/-- What a response leaves to later ones. -/
structure Continues (detail detail' : JobDetail) : Prop where
  id : detail'.id = detail.id
  documentId : detail'.documentId = detail.documentId
  maxRetries : detail'.maxRetries = detail.maxRetries
  createdAt : detail'.createdAt = detail.createdAt
  originalFilename : detail'.originalFilename = detail.originalFilename
  result : ∀ response, detail.result = some response → detail'.result = some response

/-- A client that polls a job. A completed job is shown with its result, every
job with its filename; later polls find the job, and whatever result was shown
they show again. -/
theorem polls_agree {env : Env} {s s' : System} (h : Reached env anyRun s) {jobId : Nat} {detail : JobDetail}
    (shown : (jobDetail jobId).Ends (browsing env) s (.ok detail) s') :
    detail.id = jobId ∧ detail.originalFilename.isSome = true ∧
    (detail.status = .completed → detail.result.isSome = true) ∧
    detail.detectedDocumentType = detail.result.map (·.detectedDocumentType) ∧
    ∀ r s'', (jobDetail jobId).Ends (browsing env) s' r s'' →
      r ≠ .error (jobNotFound jobId) ∧ ∀ detail', r = .ok detail' → Continues detail detail' := by
  obtain ⟨ended, reached, -⟩ := follows_of_browses h shown
  obtain ⟨own, shows⟩ := (ended.post jobDetail_follows).1 detail rfl
  obtain ⟨document, filed, name⟩ := shows.document
  refine ⟨own, by rw [name]; rfl, shows.completed, shows.type, fun r s'' again => ?_⟩
  obtain ⟨ended', -, onward⟩ := follows_of_browses reached again
  have follows := ended'.post jobDetail_follows
  obtain ⟨row, found, documentId, maxRetries, createdAt⟩ := shows.job
  refine ⟨fun absent => ?_, fun detail' same => ?_⟩
  · cases (follows.2 absent).symm.trans (own ▸ found)
  · obtain ⟨own', shows'⟩ := follows.1 detail' same
    obtain ⟨row₁, found₁, kept⟩ := onward.jobs _ row found
    obtain ⟨row', found', documentId', maxRetries', createdAt'⟩ := shows'.job
    have sameId : detail'.id = detail.id := own'.trans own.symm
    rw [sameId] at found'
    cases found₁.symm.trans found'
    have sameDocument : detail'.documentId = detail.documentId := by
      rw [← documentId', kept.documentId, documentId]
    refine ⟨sameId, sameDocument, ?_, ?_, ?_, fun response was => ?_⟩
    · rw [← maxRetries', kept.maxRetries, maxRetries]
    · rw [← createdAt', kept.createdAt, createdAt]
    · obtain ⟨document', filed', name'⟩ := shows'.document
      rw [sameDocument] at filed'
      cases (onward.documents _ _ filed).symm.trans filed'
      exact name'.trans name.symm
    · obtain ⟨result, stored, rfl⟩ := shows.result response was
      exact shows'.known result (sameId ▸ stored)

def named : Routes.ApiResponse → Nat
  | .jobRetry jobId _ _ => jobId
  | .uploadAccepted _ jobId _ => jobId

/-- A client that has been told of a job finds it from then on, with the document
it has been told of. -/
theorem accepted_visible (env : Env) (unicode : FileValidation.Unicode)
    (settings : FileValidation.UploadSettings) (ascii : unicode.LowersAscii) {s s' : System}
    (h : Reached (env.withUploadGate unicode settings) anyRun s) {t : Nat}
    {response : Routes.ApiResponse} (answered : .answered t (.ok response) ∈ s.world.history)
    {r : Except Exn JobDetail}
    (asked : (jobDetail (named response)).Ends (browsing (env.withUploadGate unicode settings)) s r s') :
    r ≠ .error (jobNotFound (named response)) ∧
    ∀ detail, r = .ok detail → detail.id = named response ∧ detail.originalFilename.isSome = true ∧
      ∀ documentId jobId status, response = .uploadAccepted documentId jobId status →
        detail.documentId = documentId := by
  obtain ⟨event, -, describes, -, jobId, documentId, document, ⟨row, found, filed, -⟩, names⟩ :=
    h.accepted (gatesExtensions ascii env settings) answered
  have own : event.jobId = named response := by
    cases response with
    | jobRetry jobId status retryCount => exact describes
    | uploadAccepted documentId jobId status => exact describes.1
  obtain rfl : jobId = named response := names.jobId.symm.trans own
  obtain ⟨ended, -, onward⟩ := follows_of_browses h asked
  have follows := ended.post jobDetail_follows
  refine ⟨fun absent => ?_, fun detail same => ?_⟩
  · cases (follows.2 absent).symm.trans found
  · obtain ⟨sameJob, shows⟩ := follows.1 detail same
    obtain ⟨document', -, name⟩ := shows.document
    refine ⟨sameJob, name ▸ rfl, ?_⟩
    rintro documentId' jobId' status rfl
    obtain ⟨row₁, found₁, kept⟩ := onward.jobs _ row found
    obtain ⟨row₂, found₂, shown, -⟩ := shows.job
    rw [sameJob] at found₂
    cases found₁.symm.trans found₂
    rw [← shown, kept.documentId, filed, ← names.documentId]
    exact describes.2

section Answers
variable {s : System}

theorem mem_found_documents (db : Database) (ids : List Nat) (id : Nat) (document : Document) :
    (id, document) ∈ ids.filterMap (fun id => (db.documents id).map (id, ·)) ↔
      id ∈ ids ∧ db.documents id = some document := by
  simp only [List.mem_filterMap, Option.map_eq_some_iff, Prod.mk.injEq]
  constructor
  · rintro ⟨other, mem, found, is, rfl, rfl⟩
    exact ⟨mem, is⟩
  · rintro ⟨mem, is⟩
    exact ⟨id, mem, document, is, rfl, rfl⟩

theorem loadRelated_answered (env : Env) (s : System) (jobs : List ProcessingJob) :
    ∃ loaded, loaded.map (·.row) = jobs ∧ (loadRelated jobs).Ends (browsing env) s (.ok loaded) s := by
  unfold loadRelated
  split
  · rename_i none_
    exact ⟨[], (List.isEmpty_iff.mp none_).symm, .ret [] s⟩
  · have results : (browsing env).next s (.results (jobs.map (·.id)))
        (.ok ((jobs.map (·.id)).filterMap s.world.db.results)) s :=
      ⟨.start, fun result => List.mem_filterMap⟩
    have documents : (browsing env).next s (.documents (jobs.map (·.documentId)))
        (.ok ((jobs.map (·.documentId)).filterMap fun id => (s.world.db.documents id).map (id, ·))) s :=
      ⟨.start, mem_found_documents s.world.db _⟩
    exact ⟨_, by simp [Function.comp_def], .call results (.call documents (.ret _ s))⟩

theorem jobDetail_answered (env : Env) {jobId : Nat} {row : ProcessingJob}
    (found : s.world.db.jobs jobId = some row) :
    ∃ detail, (jobDetail jobId).Ends (browsing env) s (.ok detail) s ∧ detail.status = row.status := by
  obtain ⟨loaded, rows, answered⟩ := loadRelated_answered env s [row]
  cases loaded with
  | nil => cases rows
  | cons job rest =>
    have finds : (browsing env).next s (.job jobId) (.ok (some row)) s := ⟨.start, found.symm⟩
    have loads : (getJob jobId).Ends (browsing env) s (.ok job) s :=
      .call finds (answered.bind (.ret job s))
    have own : job.row = row := (List.cons.inj rows).1
    exact ⟨_, loads.bind (.ret _ s), congrArg ProcessingJob.status own⟩

end Answers

theorem polls_agree_completed : ∃ s detail, Reached sampleEnv anyRun s ∧
    (jobDetail 2).Ends (browsing sampleEnv) s (.ok detail) s ∧ detail.status = .completed ∧
      detail.result.isSome = true := by
  obtain ⟨s, reached, accepted⟩ := Reached.exists_run sampleEnv anyRun (fun _ _ _ => true)
    (fun s => (s.world.db.jobs 2).any (·.status = .completed)) (fun _ _ _ _ => trivial) completedRun
    (by decide +kernel)
  obtain ⟨row, found, completed⟩ := (Option.any_eq_true _ _).mp accepted
  obtain ⟨detail, shown, status⟩ := jobDetail_answered sampleEnv found
  have done : detail.status = .completed := status.trans (of_decide_eq_true completed)
  exact ⟨s, detail, reached, shown, done, (polls_agree reached shown).2.2.1 done⟩

theorem accepted_visible_txt : ∃ s detail, Reached (sampleEnv.withUploadGate asciiUnicode {}) anyRun s ∧
    (jobDetail 2).Ends (browsing (sampleEnv.withUploadGate asciiUnicode {})) s (.ok detail) s ∧
      detail.documentId = 1 := by
  obtain ⟨s, h, answered, stored⟩ := exists_accepted
  obtain ⟨row, found⟩ := Option.isSome_iff_exists.mp stored
  obtain ⟨detail, shown, -⟩ :=
    jobDetail_answered (sampleEnv.withUploadGate asciiUnicode {}) found
  have visible := accepted_visible sampleEnv asciiUnicode {} (fun _ _ => rfl) h answered shown
  exact ⟨s, detail, h, shown, (visible.2 detail rfl).2.2 1 2 .queued rfl⟩

end Views
end DocumentPipeline

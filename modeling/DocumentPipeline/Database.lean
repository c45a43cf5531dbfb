import DocumentPipeline.Records
import Mathlib.Logic.Function.Basic

/-! PostgreSQL under READ COMMITTED, one statement or commit at a time.
A transaction's writes are invisible until it commits. Writing a job row, or
inserting its key, takes a lock that is held until commit or rollback; a
statement that needs a lock held by another session cannot run yet. Reads see the last committed version, and a
conditional UPDATE evaluates its WHERE clause on that version before it waits.
A failed statement or commit ends the transaction; a failed commit may
nevertheless have been applied. -/

namespace DocumentPipeline

/-- How the environment answers a call. `lost`: applied, but the client sees
an error. -/
inductive Choice
  | ok
  | fails (error : Exn)
  | lost (error : Exn)
  | classified (output : ClassificationOutput)
  | extracted (output : ExtractionOutput)
  | drawn (value : ℚ)

def Choice.applied : Choice → Bool
  | .fails _ => false
  | _ => true

/-- A write to a job row: `base` is the committed version it replaces and
`loaded` the version an ORM session read before. -/
inductive Write
  | insert (row : ProcessingJob)
  | claim (base row : ProcessingJob)
  | update (loaded base row : ProcessingJob)

def Write.row : Write → ProcessingJob
  | .insert row | .claim _ row | .update _ _ row => row

structure Transaction where
  document : Option (Nat × Document) := none
  write : Option Write := none
  result : Option ExtractionResult := none

structure Database where
  documents : Nat → Option Document
  jobs : Nat → Option ProcessingJob
  results : Nat → Option ExtractionResult
  lock : Nat → Option Nat

inductive DbOp
  | openSession
  | closeSession
  | executeClaim (jobId : Nat) (consumerName : String) (now staleCutoff : Time)
  | selectJob (jobId : Nat)
  | selectDocument (id : Nat)
  | updateJob (loaded current : ProcessingJob)
  | insertDocument (id : Nat) (document : Document)
  | insertJob (job : ProcessingJob)
  | insertResult (result : ExtractionResult)
  | commit
  | rollback

@[reducible] def DbOp.Val : DbOp → Type
  | .executeClaim .. => Option Nat
  | .selectJob _ => Option (ProcessingJob × Document)
  | .selectDocument _ => Option Document
  | _ => Unit

/-- The WHERE clause of `claim_job`. -/
def claimMatches (job : ProcessingJob) (staleCutoff : Time) : Bool :=
  job.status ∈ claimableStatuses ||
    (job.status = .processing && match job.startedAt with
      | none => false
      | some startedAt => startedAt < staleCutoff)

/-- The VALUES of `claim_job`. -/
def ProcessingJob.claimed (job : ProcessingJob) (consumerName : String) (now : Time) :
    ProcessingJob :=
  { job with status := .processing, startedAt := some now, consumerName := some consumerName }

namespace Database

def free (db : Database) (t jobId : Nat) : Bool :=
  match db.lock jobId with
  | none => true
  | some holder => holder = t

def acquire (db : Database) (t jobId : Nat) : Database :=
  { db with lock := Function.update db.lock jobId (some t) }

def release (db : Database) (t : Nat) : Database :=
  { db with lock := fun jobId => if db.lock jobId = some t then none else db.lock jobId }

/-- Make the writes of a transaction the committed versions. -/
def apply (db : Database) (tx : Transaction) : Database :=
  { db with
    documents := match tx.document with
      | none => db.documents
      | some (id, document) => Function.update db.documents id (some document)
    jobs := match tx.write with
      | none => db.jobs
      | some write => Function.update db.jobs write.row.id (some write.row)
    results := match tx.result with
      | none => db.results
      | some result => Function.update db.results result.jobId (some result) }

structure Reply (o : DbOp) where
  db : Database
  tx : Transaction
  answer : Except Exn o.Val

/-- A call that succeeds, violates a constraint, or (`none`) has to wait. -/
def run (now : Time) (t : Nat) (db : Database) (tx : Transaction) : (o : DbOp) → Option (Reply o)
  | .openSession => some ⟨db, {}, .ok ()⟩
  | .closeSession => some ⟨db.release t, {}, .ok ()⟩
  | .rollback => some ⟨db.release t, {}, .ok ()⟩
  | .executeClaim jobId consumerName started staleCutoff =>
    match db.jobs jobId with
    | none => some ⟨db, tx, .ok none⟩
    | some row =>
      if claimMatches row staleCutoff then
        if db.free t jobId then
          some ⟨db.acquire t jobId,
            { tx with write := some (.claim row (row.claimed consumerName started)) },
            .ok (some jobId)⟩
        else none
      else some ⟨db, tx, .ok none⟩
  | .selectJob jobId =>
    some ⟨db, tx, .ok ((db.jobs jobId).bind fun row =>
      (db.documents row.documentId).map fun document => (row, document))⟩
  | .selectDocument id => some ⟨db, tx, .ok (db.documents id)⟩
  | .updateJob loaded current =>
    match db.jobs loaded.id with
    | none => some ⟨db.release t, {}, .error (.other "StaleDataError" "0 were matched.")⟩
    | some row =>
      if db.free t loaded.id then
        some ⟨db.acquire t loaded.id,
          { tx with write := some (.update loaded row (loaded.flushed current row)) }, .ok ()⟩
      else none
  | .insertDocument id document => some ⟨db, { tx with document := some (id, document) }, .ok ()⟩
  | .insertJob job =>
    -- the server defaults stamp `queued_at` and `created_at`
    if (db.jobs job.id).isSome then
      some ⟨db.release t, {}, .error (.dbapi .integrity "pk_processing_jobs")⟩
    else if db.free t job.id then
      some ⟨db.acquire t job.id,
        { tx with write := some (.insert { job with queuedAt := now, createdAt := now }) }, .ok ()⟩
    else none
  | .insertResult result =>
    if (db.results result.jobId).isSome then
      some ⟨db.release t, {}, .error (.dbapi .integrity "uq_extraction_results_job_id")⟩
    else some ⟨db, { tx with result := some result }, .ok ()⟩
  | .commit => some ⟨(db.apply tx).release t, {}, .ok ()⟩

/-- Opening and closing a session issue no statement of their own. -/
def fallible : DbOp → Bool
  | .openSession | .closeSession => false
  | _ => true

def execute (now : Time) (t : Nat) (db : Database) (tx : Transaction) (o : DbOp) :
    Choice → Option (Reply o)
  | .ok => db.run now t tx o
  | .fails error =>
    -- a constraint error occurs only where `run` finds the constraint violated
    if fallible o && !error.isIntegrityError then some ⟨db.release t, {}, .error error⟩ else none
  | .lost error =>
    match o with
    | .commit =>
      if !error.isIntegrityError then some ⟨(db.apply tx).release t, {}, .error error⟩ else none
    | _ => none
  | _ => none

end Database
end DocumentPipeline

import DocumentPipeline.Sessions

/-! What the columns of a job row say at each status. Six operations write
eight nullable columns, each a different subset; the invariant of a status says
what every earlier operation has left there. -/

namespace DocumentPipeline
open EffectProgram

/-- The columns a reader may rely on at each status. -/
def ProcessingJob.RowConsistent (row : ProcessingJob) : Prop :=
  match row.status with
  | .queued => row.retryCount = 0 ∧ row.startedAt = none ∧ row.completedAt = none ∧
    row.processingDurationMs = none ∧ row.consumerName = none ∧ row.errorMessage = none
  | .processing => row.startedAt.isSome = true ∧ row.consumerName.isSome = true ∧
    row.completedAt = none ∧ row.processingDurationMs = none
  | .retrying => 1 ≤ row.retryCount ∧ row.errorMessage.isSome = true ∧ row.completedAt = none
  | .completed => row.startedAt.isSome = true ∧ row.completedAt.isSome = true ∧
    (∃ duration, row.processingDurationMs = some duration ∧ 0 ≤ duration) ∧ row.errorMessage = none
  | .failed => row.completedAt.isSome = true ∧ row.errorMessage.isSome = true ∧
    (row.processingDurationMs.isSome = true ↔ row.startedAt.isSome = true) ∧
      ∀ duration, row.processingDurationMs = some duration → 0 ≤ duration

/-- The invariant behind it: the retry count is never negative, and a job that
waits for another attempt carries no duration. -/
structure ProcessingJob.RowInvariant (row : ProcessingJob) : Prop where
  consistent : row.RowConsistent
  counted : 0 ≤ row.retryCount
  untimed : row.status = .retrying → row.processingDurationMs = none

namespace JobService

inductive JobOperation
  | create (stored : StoredFile) (originalFilename contentType : String)
      (requestedDocumentType : Option DocumentType) (maxRetries : Int)
  | claim (jobId : Nat) (consumerName : String) (staleAfterSeconds : Int)
  | complete (jobId : Nat)
  | retry (jobId : Nat) (errorMessage : String)
  | fail (jobId : Nat) (errorMessage : String)
  | requeue (jobId : Nat)

/-- `mark_completed(commit=True)`. -/
def markCompletedNow (job : JobObject) : Prog JobObject := do
  let completed ← markCompleted job
  flushAndCommit job.row completed.row
  return completed

def JobOperation.program : JobOperation → Prog Unit
  | .create stored originalFilename contentType requestedDocumentType maxRetries => do
    let _ ← createDocumentAndJob stored originalFilename contentType requestedDocumentType maxRetries
    return ()
  | .claim jobId consumerName staleAfterSeconds => do
    let _ ← claimJob jobId consumerName staleAfterSeconds
    return ()
  | .complete jobId => do
    let job ← getJob jobId
    let _ ← markCompletedNow job
    return ()
  | .retry jobId errorMessage => do
    let job ← getJob jobId
    let _ ← markRetrying job errorMessage
    return ()
  | .fail jobId errorMessage => do
    let job ← getJob jobId
    let _ ← markFailed job errorMessage
    return ()
  | .requeue jobId => do
    let job ← getJob jobId
    let _ ← resetForManualRetry job
    return ()

/-- A session on its own, every call of which succeeds. -/
def alone (env : Env) (x : World × Local) (o : Op) :
    Option ((World × Local) × Except Exn o.Val) :=
  (o.execute env { thread := 0, proc := 0, item := none } x.1 x.2 .ok).map fun reply =>
    ((reply.world, reply.loc), reply.answer)

def JobOperation.apply (env : Env) (w : World) (now : Time) (operation : JobOperation) :
    Option World :=
  (operation.program.runWith (alone env) ({ w with now }, {})).map fun done => done.1.1

def applyAll (env : Env) : List (Time × JobOperation) → World → Option World
  | [], w => some w
  | (now, operation) :: rest, w => (operation.apply env w now).bind (applyAll env rest)

end JobService

namespace ProcessingJob.RowInvariant
open JobService
variable {row : ProcessingJob} (now : Time) (message : String)

theorem claimed (consumerName : String) {cut : Time} (h : row.RowInvariant)
    (claimable : claimMatches row cut = true) : (row.claimed consumerName now).RowInvariant := by
  obtain ⟨consistent, counted, untimed⟩ := h
  refine ⟨⟨rfl, rfl, ?_⟩, counted, nofun⟩
  unfold RowConsistent at consistent
  cases status : row.status <;> rw [status] at consistent
  case queued => exact ⟨consistent.2.2.1, consistent.2.2.2.1⟩
  case processing => exact consistent.2.2
  case retrying => exact ⟨consistent.2.2, untimed status⟩
  all_goals simp [claimMatches, status, claimableStatuses] at claimable

theorem completed (h : row.RowInvariant) (allowed : isTransitionAllowed row.status .completed = true) :
    (completedRow row now).RowInvariant := by
  obtain ⟨consistent, counted, -⟩ := h
  unfold RowConsistent at consistent
  cases status : row.status <;> rw [status] at consistent allowed
  case processing =>
    obtain ⟨startedAt, started⟩ := Option.isSome_iff_exists.mp consistent.1
    refine ⟨⟨consistent.1, rfl, ⟨elapsedMs startedAt now, ?_, elapsedMs_nonneg _ _⟩, rfl⟩, counted,
      nofun⟩
    simp only [completedRow, stampEnd, started]
  all_goals cases allowed

theorem retrying (h : row.RowInvariant) (allowed : isTransitionAllowed row.status .retrying = true) :
    (retryingRow row message).RowInvariant := by
  obtain ⟨consistent, counted, -⟩ := h
  unfold RowConsistent at consistent
  cases status : row.status <;> rw [status] at consistent allowed
  case processing =>
    have more : 1 ≤ row.retryCount + 1 := by omega
    exact ⟨⟨more, rfl, consistent.2.2.1⟩, by simp only [retryingRow]; omega,
      fun _ => consistent.2.2.2⟩
  all_goals cases allowed

theorem failed (h : row.RowInvariant) (allowed : isTransitionAllowed row.status .failed = true) :
    (failedRow row message now).RowInvariant := by
  obtain ⟨consistent, counted, untimed⟩ := h
  have unset : row.processingDurationMs = none := by
    unfold RowConsistent at consistent
    cases status : row.status <;> rw [status] at consistent allowed
    case queued => exact consistent.2.2.2.1
    case processing => exact consistent.2.2.2
    case retrying => exact untimed status
    all_goals exact absurd allowed (by decide)
  refine ⟨⟨rfl, rfl, ?_, fun duration stamped => ?_⟩, counted, nofun⟩
  · simp only [failedRow, stampEnd]
    cases row.startedAt <;> simp [unset]
  · simp only [failedRow, stampEnd, unset] at stamped
    cases started : row.startedAt <;> rw [started] at stamped <;> cases stamped
    exact elapsedMs_nonneg _ _

theorem requeued : (requeuedRow row now).RowInvariant :=
  ⟨⟨rfl, rfl, rfl, rfl, rfl, rfl⟩, le_rfl, nofun⟩

end ProcessingJob.RowInvariant

/-- Between two operations no lock is held and every row is consistent. -/
structure Settled (w : World) : Prop where
  free : ∀ jobId, w.db.lock jobId = none
  keyed : w.db.Keyed
  rows : ∀ jobId row, w.db.jobs jobId = some row → row.RowInvariant

theorem Settled.commit {w w' : World} (settled : Settled w) (write : Write)
    (document : Option (Nat × Document)) (consistent : write.row.RowInvariant)
    (same : w'.db = ((w.db.acquire 0 write.row.id).apply { document, write := some write }).release 0) :
    Settled w' := by
  have jobs : w'.db.jobs = Function.update w.db.jobs write.row.id (some write.row) := by
    rw [same]
    rfl
  refine ⟨fun jobId => ?_, fun jobId row found => ?_, fun jobId row found => ?_⟩
  · rw [same]
    simp only [Database.release, Database.apply, Database.acquire]
    by_cases own : jobId = write.row.id
    · simp [own]
    · simp [Function.update_of_ne own, settled.free]
  all_goals
    rw [jobs] at found
    by_cases own : jobId = write.row.id
  · subst own
    rw [Function.update_self] at found
    cases found
    rfl
  · rw [Function.update_of_ne own] at found
    exact settled.keyed jobId row found
  · subst own
    rw [Function.update_self] at found
    cases found
    exact consistent
  · rw [Function.update_of_ne own] at found
    exact settled.rows jobId row found

theorem Settled.release {w w' : World} (settled : Settled w) (same : w'.db = w.db.release 0) :
    Settled w' := by
  refine ⟨fun jobId => ?_, ?_, ?_⟩ <;> rw [same]
  · simp [Database.release, settled.free]
  · exact settled.keyed
  · exact settled.rows

namespace JobService
variable {env : Env} {w : World} {loc : Local}

abbrev machine (env : Env) : Protocol Op Op.Val Exn (World × Local) := .answering (alone env)

theorem getJob_alone {jobId : Nat} {β : Type} {f : JobObject → Prog β}
    {Q : Except Exn β → World × Local → Prop} (missing : ∀ error, Q (.error error) (w, loc))
    (found : ∀ row document, w.db.jobs jobId = some row →
      wp (machine env) (f { row, document }) Q (w, loc)) :
    wp (machine env) (getJob jobId >>= f) Q (w, loc) := by
  refine (wp_bind _ _ _ _ _).mpr (wp_answering_then (show alone env (w, loc) (.db (.selectJob jobId)) =
    some ((w, loc), .ok _) from rfl) ?_)
  cases selected : (w.db.jobs jobId).bind fun row =>
    (w.db.documents row.documentId).map fun document => (row, document) with
  | none => exact missing _
  | some pair => exact found pair.1 pair.2 (select_found selected)

theorem commit_alone (env : Env) (w : World) (loc : Local) : ∃ w' loc',
    alone env (w, loc) (.db .commit) = some ((w', loc'), .ok ()) ∧
      w'.db = (w.db.apply loc.tx).release 0 :=
  ⟨_, _, rfl, rfl⟩

theorem flushAndCommit_alone {row current : ProcessingJob} {β : Type} (value : β)
    (settled : Settled w) (found : w.db.jobs row.id = some row) (consistent : current.RowInvariant)
    (flushed : row.flushed current row = current) :
    wp (machine env) (do
      flushAndCommit row current
      return value) (fun _ x => Settled x.1) (w, {}) := by
  have free : w.db.free 0 row.id = true := by simp only [Database.free, settled.free]
  have updates : alone env (w, {}) (.db (.updateJob row current)) =
      some (({ w with db := w.db.acquire 0 row.id },
        { tx := { write := some (.update row row current) } }), .ok ()) := by
    simp only [alone, Op.execute, Database.execute, Database.run, found, free, if_true, flushed,
      Option.map_some]
    rfl
  obtain ⟨w', loc', committed, same⟩ := commit_alone env { w with db := w.db.acquire 0 row.id }
    { tx := { write := some (.update row row current) } }
  refine (wp_bind _ _ _ _ _).mpr (wp_answering_then updates (wp_answering committed ?_))
  have key : current.id = row.id := by rw [← flushed, ProcessingJob.flushed_id]
  exact settled.commit (.update row row current) none consistent (by rw [Write.row, key]; exact same)

theorem mark_alone {row : ProcessingJob} {target : JobStatus} {β : Type} {mark : Prog β}
    {Q : Except Exn β → World × Local → Prop} (refused : ∀ error, Q (.error error) (w, {}))
    (allowed : isTransitionAllowed row.status target = true → wp (machine env) mark Q (w, {})) :
    wp (machine env) (do
      Program.lift (ensureTransitionAllowed row.status target)
      mark) Q (w, {}) := by
  refine (wp_bind _ _ _ _ _).mpr ((wp_lift _ _ _ _).mpr ?_)
  cases checked : ensureTransitionAllowed row.status target with
  | error error => exact refused error
  | ok _ => exact allowed (allowed_of_ensured checked)

theorem utcnow_alone {β : Type} {f : Time → Prog β} {Q : Except Exn β → World × Local → Prop}
    (onward : ∀ now, wp (machine env) (f now) Q (w, loc)) :
    wp (machine env) (utcnow >>= f) Q (w, loc) :=
  wp_answering_then (show alone env (w, loc) (.runtime .utcnow) = some ((w, loc), .ok _) from rfl)
    (onward _)

section Operations
variable (settled : Settled w)
include settled

theorem marking_alone (jobId : Nat) {β : Type} {mark : JobObject → Prog β}
    (marked : ∀ row document, w.db.jobs row.id = some row → row.RowInvariant →
      wp (machine env) (mark { row, document }) (fun _ x => Settled x.1) (w, {})) :
    wp (machine env) (do
      let job ← getJob jobId
      let _ ← mark job
      return ()) (fun _ x => Settled x.1) (w, {}) := by
  refine getJob_alone (fun _ => settled) fun row document found => ?_
  have key := settled.keyed jobId row found
  subst key
  exact wp_seq _ (marked row document found (settled.rows _ row found)) (fun _ _ post => post)
    fun _ _ post => post

theorem complete_alone (jobId : Nat) : wp (machine env) (JobOperation.complete jobId).program
    (fun _ x => Settled x.1) (w, {}) := by
  refine marking_alone settled jobId fun row document found consistent => ?_
  refine (wp_bind _ _ _ _ _).mpr (mark_alone (fun _ => settled) fun allowed => ?_)
  refine utcnow_alone fun now => ?_
  exact flushAndCommit_alone _ settled found (consistent.completed now allowed)
    (ProcessingJob.flushed_self rfl rfl rfl rfl)

theorem retry_alone (jobId : Nat) (message : String) : wp (machine env)
    (JobOperation.retry jobId message).program (fun _ x => Settled x.1) (w, {}) := by
  refine marking_alone settled jobId fun row document found consistent => ?_
  refine mark_alone (fun _ => settled) fun allowed => ?_
  exact flushAndCommit_alone _ settled found (consistent.retrying message allowed)
    (ProcessingJob.flushed_self rfl rfl rfl rfl)

theorem fail_alone (jobId : Nat) (message : String) : wp (machine env)
    (JobOperation.fail jobId message).program (fun _ x => Settled x.1) (w, {}) := by
  refine marking_alone settled jobId fun row document found consistent => ?_
  refine mark_alone (fun _ => settled) fun allowed => ?_
  refine utcnow_alone fun now => ?_
  exact flushAndCommit_alone _ settled found (consistent.failed now message allowed)
    (ProcessingJob.flushed_self rfl rfl rfl rfl)

theorem requeue_alone (jobId : Nat) : wp (machine env) (JobOperation.requeue jobId).program
    (fun _ x => Settled x.1) (w, {}) := by
  refine marking_alone settled jobId fun row document found consistent => ?_
  refine mark_alone (fun _ => settled) fun allowed => ?_
  refine utcnow_alone fun now => ?_
  exact flushAndCommit_alone _ settled found (ProcessingJob.RowInvariant.requeued now)
    (ProcessingJob.flushed_self rfl rfl rfl rfl)

theorem claim_alone (jobId : Nat) (consumerName : String) (staleAfterSeconds : Int) :
    wp (machine env) (JobOperation.claim jobId consumerName staleAfterSeconds).program
      (fun _ x => Settled x.1) (w, {}) := by
  refine (wp_bind _ _ _ _ _).mpr (utcnow_alone fun now => ?_)
  by_cases matched : ∃ row, w.db.jobs jobId = some row ∧
    claimMatches row (now - seconds staleAfterSeconds) = true
  · obtain ⟨row, found, claimable⟩ := matched
    have free : w.db.free 0 jobId = true := by simp only [Database.free, settled.free]
    have answered : alone env (w, {}) (.db (.executeClaim jobId consumerName now
        (now - seconds staleAfterSeconds))) = some (({ w with db := w.db.acquire 0 jobId },
          { tx := { write := some (.claim row (row.claimed consumerName now)) } }),
          .ok (some jobId)) := by
      simp only [alone, Op.execute, Database.execute, Database.run, found, claimable, free, if_true]
      rfl
    have key := settled.keyed jobId row found
    subst key
    obtain ⟨w', loc', committed, same⟩ := commit_alone env { w with db := w.db.acquire 0 row.id }
      { tx := { write := some (.claim row (row.claimed consumerName now)) } }
    have after : Settled w' := settled.commit (.claim row (row.claimed consumerName now)) none
      ((settled.rows _ row found).claimed now consumerName claimable) same
    refine wp_answering_then answered (wp_answering_then committed ?_)
    exact getJob_alone (fun _ => after) fun _ _ _ => after
  · -- a claim that matches no row ends with a rollback
    have answered : alone env (w, {}) (.db (.executeClaim jobId consumerName now
        (now - seconds staleAfterSeconds))) = some ((w, {}), .ok none) := by
      simp only [alone, Op.execute, Database.execute, Database.run]
      cases found : w.db.jobs jobId with
      | none => rfl
      | some row =>
        have rejected : ¬claimMatches row (now - seconds staleAfterSeconds) = true := fun claimable =>
          matched ⟨row, found, claimable⟩
        simp only [rejected]
        rfl
    exact wp_answering_then answered (wp_answering_then rfl (settled.release rfl))

theorem insertJob_alone {row : ProcessingJob} {content : Document} {document : Option (Nat × Document)}
    (consistent : { row with queuedAt := w.now, createdAt := w.now }.RowInvariant) :
    wp (machine env) (do
      sql (.insertJob row)
      sql .commit
      let job ← refresh { row, document := content }
      refreshDocument job) (fun _ x => Settled x.1) (w, { tx := { document } }) := by
  cases taken : (w.db.jobs row.id).isSome with
  | true =>
    have refused : alone env (w, { tx := { document } }) (.db (.insertJob row)) =
        some (({ w with db := w.db.release 0 }, {}),
          .error (.dbapi .integrity "pk_processing_jobs")) := by
      simp only [alone, Op.execute, Database.execute, Database.run, taken, if_true]
      rfl
    exact (wp_bind _ _ _ _ _).mpr (wp_answering refused (settled.release rfl))
  | false =>
    have free : w.db.free 0 row.id = true := by simp only [Database.free, settled.free]
    let inserted := Write.insert { row with queuedAt := w.now, createdAt := w.now }
    have inserts : alone env (w, { tx := { document } }) (.db (.insertJob row)) =
        some (({ w with db := w.db.acquire 0 row.id },
          { tx := { document, write := some inserted } }), .ok ()) := by
      simp only [alone, Op.execute, Database.execute, Database.run, taken, free, if_true,
        Bool.false_eq_true, if_false]
      rfl
    obtain ⟨w', loc', committed, same⟩ := commit_alone env { w with db := w.db.acquire 0 row.id }
      { tx := { document, write := some inserted } }
    have after : Settled w' := settled.commit inserted document consistent same
    refine wp_answering_then inserts (wp_answering_then committed ?_)
    refine (wp_bind _ _ _ _ _).mpr (wp_answering_then (show alone env (w', loc')
      (.db (.selectJob row.id)) = some ((w', loc'), .ok _) from rfl) ?_)
    cases (w'.db.jobs row.id).bind fun row =>
      (w'.db.documents row.documentId).map fun document => (row, document) with
    | none => exact after
    | some pair =>
      refine wp_answering_then (show alone env (w', loc') (.db (.selectDocument pair.1.documentId)) =
        some ((w', loc'), .ok _) from rfl) ?_
      cases w'.db.documents pair.1.documentId <;> exact after

theorem createDocumentAndJob_alone (stored : StoredFile) (originalFilename contentType : String)
    (requestedDocumentType : Option DocumentType) (maxRetries : Int) : wp (machine env)
      (createDocumentAndJob stored originalFilename contentType requestedDocumentType maxRetries)
      (fun _ x => Settled x.1) (w, {}) := by
  refine wp_answering_then (show alone env (w, {}) (.runtime .uuid4) =
    some (({ w with uuids := w.uuids + 1 }, {}), .ok w.uuids) from rfl) ?_
  refine wp_answering_then (show alone env ({ w with uuids := w.uuids + 1 }, {}) (.runtime .uuid4) =
    some (({ w with uuids := w.uuids + 2 }, {}), .ok (w.uuids + 1)) from rfl) ?_
  have drawn : Settled { w with uuids := w.uuids + 2 } := ⟨settled.free, settled.keyed, settled.rows⟩
  generalize { w with uuids := w.uuids + 2 } = w₂ at drawn ⊢
  refine wp_answering_then (show alone env (w₂, {}) (.db (.insertDocument w.uuids _)) =
    some ((w₂, { tx := { document := some (w.uuids, _) } }), .ok ()) from rfl)
    (insertJob_alone drawn ?_)
  exact ⟨⟨rfl, rfl, rfl, rfl, rfl, rfl⟩, le_rfl, nofun⟩

theorem create_alone (stored : StoredFile) (originalFilename contentType : String)
    (requestedDocumentType : Option DocumentType) (maxRetries : Int) : wp (machine env)
      (JobOperation.create stored originalFilename contentType requestedDocumentType
        maxRetries).program (fun _ x => Settled x.1) (w, {}) :=
  wp_seq _ (createDocumentAndJob_alone settled _ _ _ _ _) (fun _ _ post => post) fun _ _ post => post

theorem program_alone (operation : JobOperation) : wp (machine env) operation.program
    (fun _ x => Settled x.1) (w, {}) := by
  cases operation with
  | create => exact create_alone settled _ _ _ _ _
  | claim => exact claim_alone settled _ _ _
  | complete => exact complete_alone settled _
  | retry => exact retry_alone settled _ _
  | fail => exact fail_alone settled _ _
  | requeue => exact requeue_alone settled _

end Operations

theorem apply_settled (env : Env) (settled : Settled w) (now : Time) (operation : JobOperation) :
    ∃ w', operation.apply env w now = some w' ∧ Settled w' := by
  have reading : Settled { w with now } := ⟨settled.free, settled.keyed, settled.rows⟩
  obtain ⟨x, r, ran, after⟩ := Program.runWith_of_wp (program_alone reading operation)
  exact ⟨x.1, by rw [JobOperation.apply, ran]; rfl, after⟩

theorem applyAll_settled (env : Env) (operations : List (Time × JobOperation)) {w : World}
    (settled : Settled w) : ∃ w', applyAll env operations w = some w' ∧ Settled w' := by
  induction operations generalizing w with
  | nil => exact ⟨w, rfl, settled⟩
  | cons step rest ih =>
    obtain ⟨now, operation⟩ := step
    obtain ⟨w', applied, settled'⟩ := apply_settled env settled now operation
    obtain ⟨w'', done, settled''⟩ := ih settled'
    exact ⟨w'', by rw [applyAll, applied, Option.bind_some, done], settled''⟩

/-- Whatever operations are applied to the jobs of an empty database, one at a
time and at arbitrary clock readings, every row stays consistent. -/
theorem rows_consistent (env : Env) (operations : List (Time × JobOperation)) :
    ∃ w, applyAll env operations System.init.world = some w ∧
      ∀ jobId row, w.db.jobs jobId = some row → row.RowConsistent := by
  have empty : Settled System.init.world :=
    ⟨fun _ => rfl, fun _ _ found => by (cases found), fun _ _ found => by (cases found)⟩
  obtain ⟨w, applied, settled⟩ := applyAll_settled env operations empty
  exact ⟨w, applied, fun jobId row found => (settled.rows jobId row found).consistent⟩

end JobService
end DocumentPipeline

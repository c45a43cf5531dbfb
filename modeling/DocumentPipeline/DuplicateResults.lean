import DocumentPipeline.StoredResults
import DocumentPipeline.Effects
import DocumentPipeline.System

/-! A result refused because another attempt has stored one. The handler of the
`IntegrityError` logs `job.id` after the rollback, so it raises in its turn, and
`_handle_failure` finds a job that no mark may leave: the delivery is neither
reported as completed nor acknowledged, in whatever company the attempt runs. -/

namespace DocumentPipeline
open EffectProgram JobService Processor

/-- What a refused result found committed for its job. -/
structure Duplicate where
  jobId : Nat
  row : ProcessingJob
  result : ExtractionResult

namespace Duplicate

structure Kept (duplicate : Duplicate) (db : Database) : Prop where
  row : db.jobs duplicate.jobId = some duplicate.row
  result : db.results duplicate.jobId = some duplicate.result

/-- The unique constraint on `job_id` fired. -/
def of? (db : Database) : (o : Op) → Except Exn o.Val → Option Duplicate
  | .db (.insertResult result), .error error =>
    if error.isIntegrityError then
      (db.jobs result.jobId).bind fun row =>
        (db.results result.jobId).map fun stored => ⟨result.jobId, row, stored⟩
    else none
  | _, _ => none

end Duplicate

def Op.acknowledges : Op → Bool
  | .redis (.xack _) => true
  | _ => false

/-- An attempt under watch: the stores, its own session, the refusal of its
result, and whether it acknowledged an entry. -/
structure Watch where
  world : World
  loc : Local := {}
  refused : Option Duplicate := none
  acknowledged : Bool := false

def Watch.see (s : Watch) (found : World) (o : Op) (reply : Reply o) : Watch where
  world := reply.world
  loc := reply.loc
  refused := s.refused.or (Duplicate.of? found.db o reply.answer)
  acknowledged := s.acknowledged || o.acknowledges

/-- The calls of one attempt while the rest of the pipeline does `others` between them. -/
def amid (env : Env) (ctx : Context) (others : World → World → Prop) :
    Protocol Op Op.Val Exn Watch where
  permits _ _ := True
  next s o answer s' := ∃ found choice reply, others s.world found ∧
    Op.execute env ctx found s.loc o choice = some reply ∧ answer = reply.answer ∧
      s' = s.see found o reply

/-- Whatever else runs, a completed job and its result stay as they are. -/
def KeepsCompleted (others : World → World → Prop) : Prop :=
  ∀ (w w' : World) (duplicate : Duplicate), others w w' → duplicate.row.status = .completed →
    duplicate.Kept w.db → duplicate.Kept w'.db

/-- The duplicate is ignored: both rows are as the other attempt committed them,
`process` returned COMPLETED, and the entry is acknowledged. -/
structure IgnoredCleanly (duplicate : Duplicate) (answer : Except Exn (Option ProcessingOutcome))
    (finish : Watch) : Prop where
  kept : duplicate.Kept finish.world.db
  completed : answer = .ok (some .completed)
  acknowledged : finish.acknowledged = true

def Op.stages : Op → Prop
  | .db (.executeClaim ..) | .db (.updateJob ..) | .db (.insertDocument ..) | .db (.insertJob _)
  | .db (.insertResult _) => True
  | _ => False

def Op.decides : Op → Prop
  | .db (.insertResult _) | .redis (.xack _) => True
  | _ => False

section Calls
variable {env : Env} {ctx : Context} {w : World} {loc : Local} {choice : Choice} {o : Op}
  {reply : Reply o}

theorem execute_unstaged (ran : o.execute env ctx w loc choice = some reply) (clean : loc.tx = {})
    (unstaged : ¬o.stages) :
    reply.loc.tx = {} ∧ reply.world.db.jobs = w.db.jobs ∧ reply.world.db.results = w.db.results := by
  cases o with
  | runtime o =>
    obtain ⟨done, did, rfl⟩ := execute_runtime ran
    exact ⟨clean, congrArg Database.jobs (runRuntime_stores did).1,
      congrArg Database.results (runRuntime_stores did).1⟩
  | redis o =>
    have kept : ∀ choice, (w.noteRedis ctx loc w.redis o choice).2.tx = {} := by
      intro choice
      cases o <;> cases choice <;> exact clean
    obtain ⟨-, rfl⟩ | ⟨error, -, -, rfl⟩ | ⟨error, -, -, rfl⟩ := execute_redis ran
    all_goals
      exact ⟨kept _, congrArg Database.jobs (noteRedis_stores w.redis o _).1,
        congrArg Database.results (noteRedis_stores w.redis o _).1⟩
  | db o =>
    by_cases commit : o = .commit
    · subst commit
      obtain ⟨rfl, rfl⟩ | ⟨error, rfl, -, rfl⟩ | ⟨error, rfl, -, rfl⟩ := execute_commit ran
      all_goals simp [clean, Database.apply, Database.release]
    · obtain ⟨-, done, did, rfl⟩ | ⟨error, -, -, -, rfl⟩ := execute_db ran commit
      · have rows := Database.run_jobs did commit
        refine ⟨?_, rows.1, rows.2.2⟩
        cases o <;> first | exact absurd trivial unstaged | exact absurd rfl commit | skip
        all_goals
          cases did
          first | exact clean | rfl
      · exact ⟨rfl, rfl, rfl⟩

theorem Duplicate.of?_other {db : Database} {answer : Except Exn o.Val}
    (other : ∀ result, o ≠ .db (.insertResult result)) : Duplicate.of? db o answer = none := by
  unfold Duplicate.of?
  split
  · exact absurd rfl (other _)
  · rfl

theorem Op.undecided_other (undecided : ¬o.decides) (result : ExtractionResult) :
    o ≠ .db (.insertResult result) := by
  rintro rfl
  exact undecided trivial

theorem Duplicate.of?_insert {db : Database} {result : ExtractionResult} {answer : Except Exn Unit}
    {duplicate : Duplicate} (refused : Duplicate.of? db (.db (.insertResult result)) answer = some duplicate) :
    duplicate.jobId = result.jobId ∧ duplicate.Kept db ∧ ∃ error, answer = .error error := by
  cases answer with
  | ok _ => cases refused
  | error error =>
    dsimp only [Duplicate.of?] at refused
    split at refused
    · obtain ⟨row, isRow, refused⟩ := Option.bind_eq_some_iff.mp refused
      obtain ⟨stored, isStored, rfl⟩ := Option.map_eq_some_iff.mp refused
      exact ⟨rfl, ⟨isRow, isStored⟩, error, rfl⟩
    · cases refused

theorem execute_insertResult {result : ExtractionResult} {reply : Reply (.db (.insertResult result))}
    {error : Exn} (ran : Op.execute env ctx w loc (.db (.insertResult result)) choice = some reply)
    (failed : reply.answer = .error error) :
    reply.loc.tx = {} ∧ reply.world.db.jobs = w.db.jobs ∧ reply.world.db.results = w.db.results := by
  obtain ⟨-, done, did, rfl⟩ | ⟨error, -, -, -, rfl⟩ := execute_db ran nofun
  · simp only [Database.run] at did
    split at did
    · cases did
      exact ⟨rfl, rfl, rfl⟩
    · cases did
      cases failed
  · exact ⟨rfl, rfl, rfl⟩

theorem Op.acknowledges_undecided (undecided : ¬o.decides) : o.acknowledges = false := by
  unfold Op.acknowledges
  split
  · exact absurd trivial undecided
  · rfl

end Calls

structure Calm (s : Watch) : Prop where
  refused : s.refused = none
  unacknowledged : s.acknowledged = false

/-- The result for the job was refused. What the other attempt committed is still
there, and this one holds nothing it could commit. -/
structure Undone (others : World → World → Prop) (duplicate : Duplicate) (s : Watch) : Prop where
  refused : s.refused = some duplicate
  unacknowledged : s.acknowledged = false
  clean : s.loc.tx = {}
  kept : KeepsCompleted others → duplicate.row.status = .completed → duplicate.Kept s.world.db

section Steps
variable {env : Env} {ctx : Context} {others : World → World → Prop} {s s' : Watch} {o : Op}
  {answer : Except Exn o.Val} {duplicate : Duplicate}

theorem Calm.step (calm : Calm s) (undecided : ¬o.decides)
    (moved : (amid env ctx others).next s o answer s') : Calm s' := by
  obtain ⟨found, choice, reply, -, -, -, rfl⟩ := moved
  constructor
  · rw [Watch.see, calm.refused, Duplicate.of?_other (Op.undecided_other undecided)]
    rfl
  · rw [Watch.see, calm.unacknowledged, Op.acknowledges_undecided undecided]
    rfl

theorem Undone.step (undone : Undone others duplicate s) (unstaged : ¬o.stages)
    (silent : o.acknowledges = false) (moved : (amid env ctx others).next s o answer s') :
    Undone others duplicate s' := by
  obtain ⟨found, choice, reply, interfered, ran, -, rfl⟩ := moved
  obtain ⟨clean, jobs, results⟩ := execute_unstaged ran undone.clean unstaged
  refine ⟨?_, ?_, clean, fun settled completed => ?_⟩
  · rw [Watch.see, undone.refused]
    rfl
  · rw [Watch.see, undone.unacknowledged, silent]
    rfl
  · have kept := settled _ _ duplicate interfered completed (undone.kept settled completed)
    exact ⟨(congrFun jobs _).trans kept.row, (congrFun results _).trans kept.result⟩

theorem Watch.refused_step (refused : s.refused = some duplicate) (unacknowledged : s.acknowledged = false)
    (silent : o.acknowledges = false) (moved : (amid env ctx others).next s o answer s') :
    s'.refused = some duplicate ∧ s'.acknowledged = false := by
  obtain ⟨found, choice, reply, -, -, -, rfl⟩ := moved
  constructor
  · rw [Watch.see, refused]
    rfl
  · rw [Watch.see, unacknowledged, silent]
    rfl

theorem Calm.insertResult {result : ExtractionResult} {answer : Except Exn Unit} (calm : Calm s)
    (moved : (amid env ctx others).next s (.db (.insertResult result)) answer s') :
    Calm s' ∨ ∃ duplicate, duplicate.jobId = result.jobId ∧ Undone others duplicate s' ∧
      ∃ error, answer = .error error := by
  obtain ⟨found, choice, reply, -, ran, rfl, rfl⟩ := moved
  have quiet : (s.see found _ reply).acknowledged = false := by
    rw [Watch.see, calm.unacknowledged]
    rfl
  have taken : (s.see found _ reply).refused = Duplicate.of? found.db _ reply.answer := by
    rw [Watch.see, calm.refused]
    rfl
  cases refused : Duplicate.of? found.db (.db (.insertResult result)) reply.answer with
  | none => exact .inl ⟨taken.trans refused, quiet⟩
  | some duplicate =>
    obtain ⟨same, kept, error, failed⟩ := Duplicate.of?_insert refused
    obtain ⟨clean, jobs, results⟩ := execute_insertResult ran failed
    refine .inr ⟨duplicate, same, ⟨taken.trans refused, quiet, clean, fun _ _ => ?_⟩, error, failed⟩
    exact ⟨(congrFun jobs _).trans kept.row, (congrFun results _).trans kept.result⟩

/-- How an attempt to store the result of a job ends. -/
def Tried (others : World → World → Prop) (jobId : Nat) {α : Type} (r : Except Exn α) (s : Watch) :
    Prop :=
  Calm s ∨ ∃ duplicate, duplicate.jobId = jobId ∧ Undone others duplicate s ∧ ∃ error, r = .error error

theorem Tried.weaken {α β : Type} {jobId : Nat} {error : Exn}
    (tried : Tried others jobId (.error error : Except Exn α) s) :
    Tried others jobId (.error error : Except Exn β) s := by
  obtain calm | ⟨duplicate, same, undone, -⟩ := tried
  · exact .inl calm
  · exact .inr ⟨duplicate, same, undone, error, rfl⟩

theorem Tried.calm {α : Type} {jobId : Nat} {value : α}
    (tried : Tried others jobId (.ok value) s) : Calm s := by
  obtain calm | ⟨duplicate, -, -, error, raised⟩ := tried
  · exact calm
  · cases raised

end Steps

section Attempt
variable {env : Env} {ctx : Context} {others : World → World → Prop} {s : Watch}

theorem JobObject.row_of_attributes {job : JobObject} {row : ProcessingJob}
    (read : job.attributes = .ok row) : job.row = row := by
  unfold JobObject.attributes at read
  split at read <;> cases read
  rfl

theorem decides_beyond (o : Op) (decides : o.decides) : beyondBookkeeping o := by
  unfold Op.decides at decides
  split at decides
  · trivial
  · trivial
  · exact decides.elim

theorem read_undecided (path : String) : (FileStorage.read env path).Avoids Op.decides := by
  refine .bind (.lift _) fun target => .tryCatch (.perform nofun) fun error => ?_
  split
  · trivial
  · split <;> trivial

theorem resolveType_undecided (event : DocumentProcessingEvent) (text : Text) :
    (resolveType env event text).Avoids Op.decides := by
  unfold resolveType
  split
  · trivial
  · exact .bind (.perform nofun) fun _ => trivial

theorem wp_calm {α : Type} {p : Prog α} (undecided : p.Avoids Op.decides) (calm : Calm s) :
    wp (amid env ctx others) p (fun _ s' => Calm s') s :=
  undecided.wp (fun _ _ _ _ => trivial) (fun _ _ _ _ calm undecided moved => calm.step undecided moved)
    calm

/-- The `except` branch rolls back, so that `job.id` can no longer be read. -/
theorem ignore_tried (job : JobObject) {jobId : Nat} {error : Exn}
    (tried : Tried others jobId (.error error : Except Exn Unit) s) :
    wp (amid env ctx others) (do
      let job ← JobService.rollback job
      let _ ← Program.lift job.attributes
      return ()) (Tried others jobId) s := by
  refine (wp_bind _ _ _ _ _).mpr ((wp_bind _ _ _ _ _).mpr ((wp_perform _ _ _ _).mpr ⟨trivial, ?_⟩))
  intro answer s' moved
  have plain : ¬(Op.db .rollback).decides ∧ ¬(Op.db .rollback).stages := ⟨nofun, nofun⟩
  have rolled (r : Except Exn Unit) (raised : ∃ error, r = .error error) : Tried others jobId r s' := by
    obtain calm | ⟨duplicate, same, undone, -⟩ := tried
    · exact .inl (calm.step plain.1 moved)
    · exact .inr ⟨duplicate, same, undone.step plain.2 rfl moved, raised⟩
  cases answer with
  | error error => exact rolled _ ⟨error, rfl⟩
  | ok _ => exact rolled _ ⟨_, rfl⟩

theorem flushResult_tried (loaded current : ProcessingJob) (result : ExtractionResult) (calm : Calm s) :
    wp (amid env ctx others) (flushResult loaded current result) (Tried others result.jobId) s := by
  refine wp_seq _ (wp_calm (.perform nofun) calm) (fun _ s calm => ?_) fun _ _ calm => .inl calm
  refine (wp_bind _ _ _ _ _).mpr ((wp_perform _ _ _ _).mpr ⟨trivial, fun answer s' moved => ?_⟩)
  obtain calm | ⟨duplicate, same, undone, error, rfl⟩ := calm.insertResult moved
  · cases answer with
    | error error => exact .inl calm
    | ok _ => exact wp_mono _ (fun _ _ calm => .inl calm) (wp_calm (.perform nofun) calm)
  · exact .inr ⟨duplicate, same, undone, error, rfl⟩

theorem persist_tried (job : JobObject) (output : ExtractionOutput) (rawText : Text) (calm : Calm s) :
    wp (amid env ctx others) (persist env job output rawText) (Tried others job.row.id) s := by
  refine (wp_bind _ _ _ _ _).mpr ((wp_lift _ _ _ _).mpr ?_)
  cases attributes : job.attributes with
  | error error => exact .inl calm
  | ok loaded =>
    have marking : (markCompleted job).Avoids Op.decides :=
      .bind (.lift _) fun _ => .bind (.lift _) fun _ => .bind (.perform nofun) fun _ => trivial
    rw [JobObject.row_of_attributes attributes]
    refine wp_seq _ (wp_calm marking calm) (fun completed s calm => ?_)
      fun _ _ calm => .inl calm
    refine (wp_tryCatch _ _ _ _ _).mpr (wp_mono _ (fun r s tried => ?_) (flushResult_tried _ _ _ calm))
    cases r with
    | ok _ => exact tried
    | error error =>
      simp only
      split
      · exact ignore_tried completed tried
      · exact tried

theorem run_tried (job : JobObject) (event : DocumentProcessingEvent) (calm : Calm s) :
    wp (amid env ctx others) (run env job event) (Tried others job.row.id) s := by
  refine wp_seq _ (wp_calm (.perform nofun) calm) (fun _ s calm => ?_) fun _ _ calm => .inl calm
  refine wp_seq _ (wp_calm (read_undecided _) calm) (fun data s calm => ?_) fun _ _ calm => .inl calm
  refine (wp_bind _ _ _ _ _).mpr ((wp_lift _ _ _ _).mpr ?_)
  cases env.extractText data (FileStorage.suffix job.document.storedFilename) with
  | error error => exact .inl calm
  | ok text =>
    refine wp_seq _ (wp_calm (resolveType_undecided _ _) calm) (fun documentType s calm => ?_)
      fun _ _ calm => .inl calm
    refine wp_seq _ (wp_calm (.perform nofun) calm) (fun output s calm => ?_) fun _ _ calm => .inl calm
    exact wp_seq _ (persist_tried job output text calm) (fun _ _ tried => .inl tried.calm)
      fun _ _ tried => tried.weaken

/-- No call of `_handle_failure` ends in COMPLETED. -/
theorem handleFailure_incomplete (job : JobObject) (event : DocumentProcessingEvent) (error : Exn) :
    wp .free (handleFailure env job event error) (fun r _ => r ≠ .ok .completed) () := by
  have failed (job : JobObject) (message : String) :
      wp .free (failPermanently job message) (fun r _ => r ≠ .ok .completed) () :=
    wp_seq _ (wp_free_true _) (fun _ _ _ => by simp) fun _ _ _ => by simp
  refine wp_seq _ (wp_free_true _) (fun job _ _ => ?_) fun _ _ _ => by simp
  refine wp_seq _ (wp_free_true _) (fun job _ _ => ?_) fun _ _ _ => by simp
  refine wp_seq _ (wp_free_true _) (fun row _ _ => ?_) fun _ _ _ => by simp
  split
  · refine wp_seq _ (wp_free_true _) (fun delay _ _ => ?_) fun _ _ _ => by simp
    refine wp_seq _ (wp_free_true _) (fun eventId _ _ => ?_) fun _ _ _ => by simp
    refine wp_seq _ (wp_free_true _) (fun scheduled _ _ => ?_) fun _ _ _ => by simp
    split
    · exact wp_seq _ (wp_free_true _) (fun _ _ _ => by simp) fun _ _ _ => by simp
    · exact failed _ _
  · exact failed _ _

def Op.disturbs : Op → Prop
  | .redis (.xack _) => True
  | o => o.stages

theorem Op.harmless {o : Op} (harmless : ¬o.disturbs) : ¬o.stages ∧ o.acknowledges = false := by
  unfold Op.disturbs at harmless
  unfold Op.acknowledges
  split at harmless
  · exact absurd trivial harmless
  · exact ⟨harmless, rfl⟩

theorem wp_undone {α : Type} {p : Prog α} {duplicate : Duplicate} (harmless : p.Avoids Op.disturbs)
    (undone : Undone others duplicate s) :
    wp (amid env ctx others) p (fun _ s' => Undone others duplicate s') s :=
  harmless.wp (fun _ _ _ _ => trivial)
    (fun _ _ _ _ undone harmless moved => undone.step (Op.harmless harmless).1 (Op.harmless harmless).2 moved)
    undone

section Completed
variable {row : ProcessingJob} (completed : row.status = .completed)
include completed

theorem markFailed_completed (document : Document) (message : String) :
    markFailed { row, document } message = .raise (invalidTransition .completed .failed) := by
  change (Program.lift (ensureTransitionAllowed row.status .failed)).bind _ = _
  rw [completed]
  rfl

theorem markRetrying_completed (document : Document) (message : String) :
    markRetrying { row, document } message = .raise (invalidTransition .completed .retrying) := by
  change (Program.lift (ensureTransitionAllowed row.status .retrying)).bind _ = _
  rw [completed]
  rfl

theorem failPermanently_completed (document : Document) (message : String) :
    failPermanently { row, document } message = .raise (invalidTransition .completed .failed) := by
  unfold failPermanently
  rw [markFailed_completed completed]
  rfl

theorem retryLater_completed (document : Document) (event : DocumentProcessingEvent) (message : String) :
    (retryLater env { row, document } row event message).Avoids Op.disturbs ∧
      wp .free (retryLater env { row, document } row event message)
        (fun r _ => ∃ error, r = .error error) () := by
  unfold retryLater
  simp only [markRetrying_completed completed, failPermanently_completed completed]
  constructor
  · have delaying : (RetryPolicy.computeDelay row.retryCount env.settings).Avoids Op.disturbs := by
      refine .bind (.lift _) fun _ => ?_
      split
      · trivial
      · exact .bind (.perform nofun) fun _ => trivial
    refine .bind delaying fun delay => .bind (.perform nofun) fun eventId =>
      .bind (.tryCatch (.bind (.bind (.perform nofun) fun _ => ?_) fun _ => trivial) fun error => ?_)
        fun scheduled => ?_
    · refine .tryCatch (.perform nofun) fun error => ?_
      split <;> trivial
    · split <;> trivial
    · split <;> trivial
  · refine wp_seq _ (wp_free_true _) (fun delay _ _ => ?_) fun error _ _ => ⟨error, rfl⟩
    refine wp_seq _ (wp_free_true _) (fun eventId _ _ => ?_) fun error _ _ => ⟨error, rfl⟩
    refine wp_seq _ (wp_free_true _) (fun scheduled _ _ => ?_) fun error _ _ => ⟨error, rfl⟩
    split
    · exact ⟨_, rfl⟩
    · exact ⟨_, rfl⟩

end Completed

theorem Undone.selectJob {s' : Watch} {duplicate : Duplicate}
    {answer : Except Exn (Option (ProcessingJob × Document))} (undone : Undone others duplicate s)
    (settled : KeepsCompleted others) (completed : duplicate.row.status = .completed)
    (moved : (amid env ctx others).next s (.db (.selectJob duplicate.jobId)) answer s') :
    ∀ row document, answer = .ok (some (row, document)) → row = duplicate.row := by
  obtain ⟨found, choice, reply, interfered, ran, rfl, -⟩ := moved
  have kept := settled _ _ duplicate interfered completed (undone.kept settled completed)
  intro row document answered
  obtain ⟨-, done, did, rfl⟩ | ⟨error, -, -, -, rfl⟩ := execute_db ran nofun
  · cases did
    have read := Except.ok.inj answered
    rw [kept.row, Option.bind_some] at read
    obtain ⟨_, -, same⟩ := Option.map_eq_some_iff.mp read
    exact (Prod.mk.inj same).1.symm
  · cases answered

/-- A job that the other attempt completed is refreshed and cannot be marked. -/
theorem handleFailure_raises {duplicate : Duplicate} (settled : KeepsCompleted others)
    (completed : duplicate.row.status = .completed) (job : JobObject) (event : DocumentProcessingEvent)
    (error : Exn) (same : duplicate.jobId = job.row.id) (undone : Undone others duplicate s) :
    wp (amid env ctx others) (handleFailure env job event error)
      (fun r s' => Undone others duplicate s' ∧ ∃ error, r = .error error) s := by
  refine (wp_bind _ _ _ _ _).mpr ((wp_bind _ _ _ _ _).mpr ((wp_perform _ _ _ _).mpr ⟨trivial, ?_⟩))
  intro answer s' moved
  have undone : Undone others duplicate s' := undone.step (o := .db .rollback) nofun rfl moved
  cases answer with
  | error error => exact ⟨undone, error, rfl⟩
  | ok _ =>
    refine (wp_bind _ _ _ _ _).mpr ((wp_bind _ _ _ _ _).mpr ((wp_perform _ _ _ _).mpr ⟨trivial, ?_⟩))
    dsimp only
    rw [← same]
    intro answer s' moved
    have reread := undone.selectJob settled completed moved
    have undone : Undone others duplicate s' := undone.step (o := .db (.selectJob _)) nofun rfl moved
    obtain error | _ | ⟨row, document⟩ := answer
    · exact ⟨undone, error, rfl⟩
    · exact ⟨undone, refreshFailed, rfl⟩
    · obtain rfl := reread row document rfl
      refine (wp_bind _ _ _ _ _).mpr ((wp_lift _ _ _ _).mpr ?_)
      simp only [JobObject.attributes, Bool.false_eq_true, if_false]
      split
      · obtain ⟨harmless, raises⟩ := retryLater_completed completed document event
          (RetryPolicy.describe error)
        exact wp_and _ (wp_undone harmless undone) (wp_of_free (fun _ _ => trivial) raises s')
      · rw [failPermanently_completed completed]
        exact ⟨undone, _, rfl⟩

/-- How `process` ends: nothing was refused, or it did not report COMPLETED. -/
def Spoiled (others : World → World → Prop) (r : Except Exn ProcessingOutcome) (s : Watch) : Prop :=
  Calm s ∨ ∃ duplicate, s.refused = some duplicate ∧ s.acknowledged = false ∧ r ≠ .ok .completed ∧
    (KeepsCompleted others → duplicate.row.status = .completed →
      Undone others duplicate s ∧ ∃ error, r = .error error)

theorem handleFailure_spoiled (job : JobObject) (event : DocumentProcessingEvent) (error : Exn)
    (tried : Tried others job.row.id (.error error : Except Exn ProcessingOutcome) s) :
    wp (amid env ctx others) (handleFailure env job event error) (Spoiled others) s := by
  have undecided : (handleFailure env job event error).Avoids Op.decides :=
    (handleFailure_quiet job error).fewer decides_beyond
  obtain calm | ⟨duplicate, same, undone, -⟩ := tried
  · exact wp_mono _ (fun _ _ calm => .inl calm) (wp_calm undecided calm)
  · by_cases final : KeepsCompleted others ∧ duplicate.row.status = .completed
    · refine wp_mono _ (fun r s ⟨undone, error, raised⟩ => ?_)
        (handleFailure_raises final.1 final.2 job event error same undone)
      exact .inr ⟨duplicate, undone.refused, undone.unacknowledged, by simp [raised],
        fun _ _ => ⟨undone, error, raised⟩⟩
    · have refused : wp (amid env ctx others) (handleFailure env job event error)
          (fun _ s' => s'.refused = some duplicate ∧ s'.acknowledged = false) s :=
        undecided.wp (fun _ _ _ _ => trivial) (fun _ o _ _ refused undecided moved =>
          Watch.refused_step refused.1 refused.2 (Op.acknowledges_undecided undecided) moved)
          ⟨undone.refused, undone.unacknowledged⟩
      have incomplete : wp (amid env ctx others) (handleFailure env job event error)
          (fun r _ => r ≠ .ok .completed) s :=
        wp_of_free (fun _ _ => trivial) (handleFailure_incomplete job event error) s
      refine wp_mono _ (fun r s ⟨refused, incomplete⟩ => ?_) (wp_and _ refused incomplete)
      exact .inr ⟨duplicate, refused.1, refused.2, incomplete,
        fun settled completed => absurd ⟨settled, completed⟩ final⟩

theorem closeSession_spoiled {r : Except Exn ProcessingOutcome} (spoiled : Spoiled others r s) :
    wp (amid env ctx others) (sql .closeSession) (fun _ s' =>
      ∀ r', (r' = r ∨ ∃ error, r' = .error error) → Spoiled others r' s') s := by
  refine (wp_perform _ _ _ _).mpr ⟨trivial, fun answer s' moved r' same => ?_⟩
  obtain calm | ⟨duplicate, refused, unacknowledged, incomplete, raised⟩ := spoiled
  · exact .inl (calm.step (o := .db .closeSession) nofun moved)
  · have refused := Watch.refused_step refused unacknowledged rfl moved
    refine .inr ⟨duplicate, refused.1, refused.2, ?_, fun settled completed => ?_⟩
    · obtain rfl | ⟨error, rfl⟩ := same
      · exact incomplete
      · simp
    · obtain ⟨undone, error, raised⟩ := raised settled completed
      refine ⟨undone.step (o := .db .closeSession) nofun rfl moved, ?_⟩
      obtain rfl | raises := same
      · exact ⟨error, raised⟩
      · exact raises

theorem process_spoiled (name : String) (delivered : DeliveredEvent) (calm : Calm s) :
    wp (amid env ctx others) (process env name delivered) (Spoiled others) s := by
  refine wp_seq _ (wp_calm (.perform nofun) calm) (fun _ s calm => ?_) fun _ _ calm => .inl calm
  refine (wp_andFinally _ _ _ _ _).mpr (wp_mono _ (fun r s spoiled => ?_)
    (Q := Spoiled others) ?_)
  · refine wp_mono _ (fun c s' kept => ?_) (closeSession_spoiled spoiled)
    cases c with
    | ok _ => exact kept r (.inl rfl)
    | error error => exact kept _ (.inr ⟨error, rfl⟩)
  refine wp_seq _ (wp_calm ((claimJob_quiet _ _ _).fewer decides_beyond) calm) (fun claimed s calm => ?_)
    fun _ _ calm => .inl calm
  cases claimed with
  | none => exact .inl calm
  | some job =>
    simp only
    split
    · have marking := (markFailed_quiet job (redeliveredTooOften delivered.deliveryCount)).fewer
        decides_beyond
      exact wp_mono _ (fun _ _ calm => .inl calm) (wp_calm (.bind marking fun _ => trivial) calm)
    · refine (wp_tryCatch _ _ _ _ _).mpr (wp_mono _ (fun r s tried => ?_)
        (run_tried job delivered.event calm))
      cases r with
      | ok outcome => exact .inl tried.calm
      | error error => exact handleFailure_spoiled job delivered.event error tried

/-- How `handle` ends when its result was refused. -/
def Dropped (others : World → World → Prop) (answer : Except Exn (Option ProcessingOutcome))
    (s : Watch) : Prop :=
  ∀ duplicate, s.refused = some duplicate → answer ≠ .ok (some .completed) ∧
    (KeepsCompleted others → duplicate.row.status = .completed →
      answer = .ok none ∧ duplicate.Kept s.world.db ∧ s.acknowledged = false)

theorem ack_refused (messageId : Nat) {refused : Option Duplicate} (same : s.refused = refused) :
    wp (amid env ctx others) (Queue.ack messageId) (fun _ s' => s'.refused = refused) s := by
  have acking : (Queue.ack messageId).Avoids Op.stages := by
    refine .tryCatch (.perform nofun) fun error => ?_
    split <;> trivial
  refine acking.wp (fun _ _ _ _ => trivial) (fun s o answer s' same unstaged moved => ?_) same
  obtain ⟨found, choice, reply, -, -, -, rfl⟩ := moved
  have other : ∀ result, o ≠ .db (.insertResult result) := by
    rintro result rfl
    exact unstaged trivial
  rw [Watch.see, same, Duplicate.of?_other other, Option.or_none]

theorem handle_dropped (name : String) (delivered : DeliveredEvent) (calm : Calm s) :
    wp (amid env ctx others) (handle env name delivered) (Dropped others) s := by
  refine (wp_bind _ _ _ _ _).mpr ((wp_tryCatch _ _ _ _ _).mpr ((wp_bind _ _ _ _ _).mpr
    (wp_mono _ (fun r s spoiled => ?_) (process_spoiled name delivered calm))))
  cases r with
  | error error =>
    intro duplicate refused
    obtain calm | ⟨_, same, unacknowledged, -, raised⟩ := spoiled
    · cases calm.refused.symm.trans refused
    · cases same.symm.trans refused
      exact ⟨by simp, fun settled completed =>
        ⟨rfl, (raised settled completed).1.kept settled completed, unacknowledged⟩⟩
  | ok outcome =>
    have concluded (answer : Except Exn (Option ProcessingOutcome)) (s' : Watch)
        (same : s'.refused = s.refused) (mine : answer = .ok (some .completed) → outcome = .completed) :
        Dropped others answer s' := by
      intro duplicate refused
      obtain calm | ⟨_, earlier, -, incomplete, raised⟩ := spoiled
      · cases calm.refused.symm.trans (same.symm.trans refused)
      · cases earlier.symm.trans (same.symm.trans refused)
        refine ⟨fun completed => incomplete (congrArg _ (mine completed)), fun settled completed => ?_⟩
        obtain ⟨-, error, raises⟩ := raised settled completed
        cases raises
    refine wp_seq _ (ack_refused delivered.messageId rfl) (fun _ s' same => ?_) fun error s' same => ?_
    · exact concluded _ s' same fun completed => by simpa using completed
    · exact concluded _ s' same nofun

end Attempt

/-- A delivery whose result is refused, because another attempt completed the
job first, is never ignored cleanly: `process` raises, `handle` returns nothing
and the entry stays pending. Only the rows are as they should be. -/
theorem duplicate_not_ignored {env : Env} {ctx : Context} {others : World → World → Prop}
    {name : String} {delivered : DeliveredEvent} {w : World} {loc : Local}
    {answer : Except Exn (Option ProcessingOutcome)} {finish : Watch} {duplicate : Duplicate}
    (handled : (handle env name delivered).Ends (amid env ctx others) { world := w, loc } answer finish)
    (refused : finish.refused = some duplicate) (completed : duplicate.row.status = .completed) :
    ¬IgnoredCleanly duplicate answer finish ∧ (KeepsCompleted others →
      answer = .ok none ∧ duplicate.Kept finish.world.db ∧ finish.acknowledged = false) := by
  have dropped := handled.post (handle_dropped name delivered ⟨rfl, rfl⟩) duplicate refused
  exact ⟨fun clean => dropped.1 clean.completed, fun settled => dropped.2 settled completed⟩

section Overlap

/-- Job 1, which worker `a` claimed at the start. -/
def staleRow : ProcessingJob where
  id := 1
  documentId := 0
  status := .processing
  retryCount := 0
  maxRetries := 3
  errorMessage := none
  queuedAt := 0
  startedAt := some 0
  completedAt := none
  processingDurationMs := none
  consumerName := some "a"
  createdAt := 0

def staleDocument : Document where
  originalFilename := "a.txt"
  storedFilename := "a.txt"
  contentType := "text/plain"
  fileSize := 1
  storagePath := "a.txt"
  checksum := "sum"
  requestedDocumentType := some .generic

def earlierResult : ExtractionResult where
  jobId := 1
  detectedDocumentType := .generic
  extractedData := .null
  rawText := ['A']
  modelProvider := "p"
  modelName := "m"
  promptVersion := "v1"
  inputTokens := none
  outputTokens := none
  confidenceScore := none

def earlierCommit (row : ProcessingJob) (now : Time) : Transaction where
  write := some (.update staleRow row { completedRow row now with id := 1 })
  result := some earlierResult

/-- Worker `a` commits its result while the job is still being processed. -/
def finishElsewhere (w : World) : World :=
  match w.db.jobs 1 with
  | some row =>
    if row.status = .processing then
      { w with db := w.db.apply (earlierCommit row w.now) }
    else w
  | none => w

def staleDelivery : DeliveredEvent where
  messageId := 0
  event := { eventId := 0, jobId := 1, documentId := 0, storagePath := "a.txt"
             requestedDocumentType := some .generic }
  deliveryCount := 2

def staleWorld : World :=
  { System.init.world with
    now := seconds 660
    files := fun _ => some [65]
    db :=
      { documents := fun _ => some staleDocument
        jobs := Function.update (fun _ => none) 1 (some staleRow)
        results := fun _ => none
        lock := fun _ => none } }

/-- Worker `a` finishes right before worker `b` flushes its result. -/
def overlapped (s : Watch) (o : Op) : Option (Watch × Except Exn o.Val) :=
  let found := match o with
    | .db (.updateJob ..) => finishElsewhere s.world
    | _ => s.world
  let choice := match o with
    | .runtime (.extract ..) => sampleExtraction
    | _ => .ok
  (Op.execute sampleEnv ⟨0, 0, some staleDelivery⟩ found s.loc o choice).map fun reply =>
    (s.see found o reply, reply.answer)

def finishes (w w' : World) : Prop := w' = w ∨ w' = finishElsewhere w

theorem overlapped_next (s : Watch) (o : Op) (s' : Watch) (answer : Except Exn o.Val)
    (answered : overlapped s o = some (s', answer)) :
    (amid sampleEnv ⟨0, 0, some staleDelivery⟩ finishes).next s o answer s' := by
  obtain ⟨reply, ran, same⟩ := Option.map_eq_some_iff.mp answered
  obtain ⟨rfl, rfl⟩ := Prod.mk.inj same
  refine ⟨_, _, reply, ?_, ran, rfl, rfl⟩
  unfold finishes
  split
  · exact .inr rfl
  · exact .inl rfl

theorem settled_finishes : KeepsCompleted finishes := by
  rintro w _ duplicate (rfl | rfl) completed kept
  · exact kept
  · unfold finishElsewhere
    split
    · rename_i row held
      split
      · rename_i processing
        have other : duplicate.jobId ≠ 1 := by
          intro same
          rw [← same, kept.row] at held
          cases held
          rw [completed] at processing
          cases processing
        exact ⟨(Function.update_of_ne other _ _).trans kept.row,
          (Function.update_of_ne other _ _).trans kept.result⟩
      · exact kept
    · exact kept

theorem overlap_ends : ∃ answer finish duplicate,
    (handle sampleEnv "b" staleDelivery).Ends
      (amid sampleEnv ⟨0, 0, some staleDelivery⟩ finishes) { world := staleWorld } answer finish ∧
      finish.refused = some duplicate ∧ duplicate.row.status = .completed ∧
        finish.acknowledged = false := by
  have ran : ((handle sampleEnv "b" staleDelivery).runWith overlapped { world := staleWorld }).any
      (fun x => x.1.refused.any (·.row.status = .completed) && !x.1.acknowledged) = true := by
    decide +kernel
  obtain ⟨⟨finish, answer⟩, run, seen⟩ := (Option.any_eq_true _ _).mp ran
  simp only [Bool.and_eq_true, Bool.not_eq_true'] at seen
  obtain ⟨duplicate, refused, completed⟩ := (Option.any_eq_true _ _).mp seen.1
  exact ⟨answer, finish, duplicate, Program.ends_of_runWith overlapped_next run, refused,
    of_decide_eq_true completed, seen.2⟩

theorem duplicate_unacknowledged : ∃ answer finish duplicate,
    (handle sampleEnv "b" staleDelivery).Ends
      (amid sampleEnv ⟨0, 0, some staleDelivery⟩ finishes) { world := staleWorld } answer finish ∧
      finish.refused = some duplicate ∧ duplicate.row.status = .completed ∧
        ¬IgnoredCleanly duplicate answer finish := by
  obtain ⟨answer, finish, duplicate, handled, refused, completed, unacknowledged⟩ := overlap_ends
  exact ⟨answer, finish, duplicate, handled, refused, completed,
    fun clean => by cases clean.acknowledged.symm.trans unacknowledged⟩

theorem duplicate_left_pending : ∃ answer finish duplicate,
    (handle sampleEnv "b" staleDelivery).Ends
      (amid sampleEnv ⟨0, 0, some staleDelivery⟩ finishes) { world := staleWorld } answer finish ∧
      ¬IgnoredCleanly duplicate answer finish ∧ answer = .ok none ∧
        duplicate.Kept finish.world.db ∧ finish.acknowledged = false := by
  obtain ⟨answer, finish, duplicate, handled, refused, completed, -⟩ := overlap_ends
  have dropped := duplicate_not_ignored handled refused completed
  exact ⟨answer, finish, duplicate, handled, dropped.1, dropped.2 settled_finishes⟩

end Overlap

end DocumentPipeline

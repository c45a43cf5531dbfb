import DocumentPipeline.OpenaiProvider
import DocumentPipeline.RowConsistency
import DocumentPipeline.Events

/-! Which failures cost a retry. A failure of the SDK or of the database is
mapped, classified and handled; the decision is read off the stores the handler
leaves behind: a retry in the retry set, or a row that has failed at once. -/

namespace DocumentPipeline
open EffectProgram JobService Processor RetryPolicy

structure RandomSource where
  uniform : ℚ → ℚ → ℚ
  within : ∀ low high, min low high ≤ uniform low high ∧ uniform low high ≤ max low high

def attended (env : Env) (source : RandomSource) (ctx : Context) (x : World × Local) (o : Op) :
    Option ((World × Local) × Except Exn o.Val) :=
  let choice := match o with
    | .runtime (.uniform low high) => .drawn (source.uniform low high)
    | _ => .ok
  (o.execute env ctx x.1 x.2 choice).map fun reply => ((reply.world, reply.loc), reply.answer)

inductive Failure
  | api (error : ApiError)
  | dbapi (kind : DbapiClass) (text : String)
  | disconnection (text : String)

/-- The exception that reaches `_handle_failure`. -/
def Failure.exn : Failure → Exn
  | .api error => .app (mapOpenaiError error)
  | .dbapi kind text => .dbapi kind text
  | .disconnection text => .disconnection text

namespace ApiError

/-- Rate limits, timeouts, connection failures, 408, 409 and the 5xx statuses. -/
def Transient (error : ApiError) : Prop :=
  error.cls.isRateLimitError = true ∨ error.cls.isConnectionError = true ∨
    ∃ status, error.statusCode = some status ∧
      (status = 429 ∨ status = 408 ∨ status = 409 ∨ 500 ≤ status ∧ status < 600)

/-- The credentials are rejected. -/
def Rejected (error : ApiError) : Prop :=
  error.statusCode = some 401 ∨ error.statusCode = some 403

theorem not_transient_of_rejected {error : ApiError} (rejected : error.Rejected) :
    ¬error.Transient := by
  obtain ⟨cls, statusCode, admitted⟩ := error
  rintro (limited | unreachable | ⟨status, is, transient⟩)
  · cases cls <;> try cases limited
    obtain rfl : statusCode = some 429 := admitted
    cases rejected <;> rename_i same <;> cases same
  · cases cls <;> try cases unreachable
    all_goals
      obtain rfl : statusCode = none := admitted
      cases rejected <;> rename_i same <;> cases same
  · obtain rfl : statusCode = some status := is
    obtain same | same := rejected <;> cases same <;> omega

theorem retryable_iff (error : ApiError) :
    (mapOpenaiError error).kind.retryable = true ↔ ¬error.Rejected := by
  obtain ⟨cls, statusCode, admitted⟩ := error
  simp only [mapOpenaiError, Rejected]
  cases cls with
  | rateLimitError =>
    obtain rfl : statusCode = some 429 := admitted
    decide
  | authenticationError =>
    obtain rfl : statusCode = some 401 := admitted
    decide
  | apiTimeoutError | apiConnectionError =>
    obtain rfl : statusCode = none := admitted
    decide
  | _ =>
    simp only [ApiErrorClass.isRateLimitError, ApiErrorClass.isTimeoutError,
      ApiErrorClass.isAuthenticationError, ApiErrorClass.isConnectionError, reduceCtorEq,
      decide_false, Bool.or_self, Bool.false_eq_true, if_false]
    split
    · rename_i limited
      simp [limited, AppErrorClass.retryable]
    · split
      · rename_i rejected
        simp [rejected, AppErrorClass.retryable]
      · rename_i other
        simp [other, AppErrorClass.retryable]

end ApiError

/-- `lostConnection` tells the connection errors among the remaining classes of
the driver by their text. -/
def Failure.Transient (lostConnection : String → Bool) : Failure → Prop
  | .api error => error.Transient
  | .dbapi .operational _ | .disconnection _ => True
  | .dbapi .integrity _ | .dbapi .data _ | .dbapi .programming _ => False
  | .dbapi _ text => lostConnection text = true

def Failure.Rejected : Failure → Prop
  | .api error => error.Rejected
  | _ => False

theorem Failure.not_transient_of_rejected {failure : Failure} {lostConnection : String → Bool}
    (rejected : failure.Rejected) : ¬failure.Transient lostConnection := by
  cases failure with
  | api error => exact ApiError.not_transient_of_rejected rejected
  | dbapi kind text => exact rejected.elim
  | disconnection text => exact rejected.elim

theorem Failure.isRetryable_iff (failure : Failure) :
    isRetryable failure.exn = true ↔ ¬failure.Rejected := by
  cases failure with
  | api error => exact error.retryable_iff
  | dbapi kind text => exact iff_of_true rfl not_false
  | disconnection text => exact iff_of_true rfl not_false

/-- An attempt has failed with budget left: its row is still `processing`, and no
other session is writing it. -/
structure FailedAttempt (ctx : Context) (w : World) (job : JobObject) (row : ProcessingJob) :
    Prop where
  key : row.id = job.row.id
  committed : w.db.jobs job.row.id = some row
  document : ∃ document, w.db.documents row.documentId = some document
  processing : row.status = .processing
  budget : row.retryCount < row.maxRetries
  lock : w.db.free ctx.thread row.id = true

/-- A retry of the event is in the retry set and the row waits for it. -/
def RetryScheduled (event : DocumentProcessingEvent) (row : ProcessingJob) (w' : World) : Prop :=
  (∃ message, w'.db.jobs row.id = some (retryingRow row message)) ∧
    ∃ eventId due, (Payload.event (event.nextAttempt eventId), due) ∈ w'.redis.retry

/-- The row has failed with its retry count unchanged, and the retry set is as
it was. -/
def FailedAtOnce (row : ProcessingJob) (w w' : World) : Prop :=
  (∃ current, w'.db.jobs row.id = some current ∧ current.status = .failed ∧
    current.retryCount = row.retryCount) ∧ w'.redis.retry = w.redis.retry

structure Attending (ctx : Context) (row : ProcessingJob) (redis : Redis) (x : World × Local) :
    Prop where
  committed : x.1.db.jobs row.id = some row
  document : ∃ document, x.1.db.documents row.documentId = some document
  lock : x.1.db.free ctx.thread row.id = true
  tx : x.2.tx = {}
  redis : x.1.redis = redis

section Attending
variable {env : Env} {source : RandomSource} {ctx : Context} {row : ProcessingJob} {redis : Redis}
  {x : World × Local}

abbrev attendance (env : Env) (source : RandomSource) (ctx : Context) :
    Protocol Op Op.Val Exn (World × Local) := .answering (attended env source ctx)

theorem Database.free_release {db : Database} {t jobId : Nat} (free : db.free t jobId = true) :
    (db.release t).free t jobId = true := by
  simp only [Database.free, Database.release] at free ⊢
  split at free
  · rename_i unlocked
    simp [unlocked]
  · rename_i holder locked
    simp only [decide_eq_true_eq] at free
    simp [locked, free]

theorem utcnow_attended {β : Type} {f : Time → Prog β}
    {Q : Except Exn β → World × Local → Prop}
    (next : ∀ now, wp (attendance env source ctx) (f now) Q x) :
    wp (attendance env source ctx) (utcnow >>= f) Q x :=
  wp_answering_then (show attended env source ctx x (.runtime .utcnow) = some (x, .ok _) from rfl)
    (next _)

theorem uuid4_attended (h : Attending ctx row redis x) {β : Type} {f : Nat → Prog β}
    {Q : Except Exn β → World × Local → Prop}
    (next : ∀ uuid x, Attending ctx row redis x → wp (attendance env source ctx) (f uuid) Q x) :
    wp (attendance env source ctx) (uuid4 >>= f) Q x :=
  wp_answering_then (show attended env source ctx x (.runtime .uuid4) =
    some (({ x.1 with uuids := x.1.uuids + 1 }, x.2), .ok _) from rfl)
    (next _ _ ⟨h.committed, h.document, h.lock, h.tx, h.redis⟩)

theorem flushAndCommit_attended (h : Attending ctx row redis x) {current : ProcessingJob}
    (flushed : row.flushed current row = current) : wp (attendance env source ctx)
      (flushAndCommit row current) (fun r x' => r = .ok () ∧
        x'.1.db.jobs row.id = some current ∧ x'.1.redis = redis) x := by
  obtain ⟨w, loc⟩ := x
  obtain ⟨committed, document, lock, tx, rfl⟩ := h
  have key : current.id = row.id := by rw [← flushed, ProcessingJob.flushed_id]
  have updates : attended env source ctx (w, loc) (.db (.updateJob row current)) =
      some (({ w with db := w.db.acquire ctx.thread row.id },
        { loc with tx := { write := some (.update row row current) } }), .ok ()) := by
    simp only at committed lock tx
    simp only [attended, Op.execute, Database.execute, Database.run, committed, lock, if_true,
      flushed, Option.map_some, tx]
    rfl
  refine wp_answering_then updates (wp_answering (show attended env source ctx _ (.db .commit) =
    some (_, .ok ()) from rfl) ⟨rfl, ?_, rfl⟩)
  simp only [Database.release, Database.apply, Write.row, ← key, Function.update_self]

theorem uniform_attended (low high : ℚ) : attended env source ctx x (.runtime (.uniform low high)) =
    some (x, .ok (source.uniform low high)) := by
  simp only [attended, Op.execute, World.runRuntime]
  rw [if_pos (source.within _ _)]
  rfl

/-- The backoff is computed below 1024 retries, and `float(2**n)` raises from there on. -/
theorem computeDelay_attended {β : Type} {f : ℚ → Prog β}
    {Q : Except Exn β → World × Local → Prop}
    (delayed : row.retryCount < 1024 → ∀ delay, wp (attendance env source ctx) (f delay) Q x)
    (overflow : 1024 ≤ row.retryCount →
      Q (.error (.overflow "int too large to convert to float")) x) :
    wp (attendance env source ctx) (computeDelay row.retryCount env.settings >>= f) Q x := by
  refine (wp_bind _ _ _ _ _).mpr ((wp_bind _ _ _ _ _).mpr ((wp_lift _ _ _ _).mpr ?_))
  by_cases few : row.retryCount < 1024
  · rw [floatOfPowTwo, if_pos (by omega)]
    simp only
    split
    · exact delayed few _
    · exact wp_answering_then (uniform_attended _ _) (delayed few _)
  · rw [floatOfPowTwo, if_neg (by omega)]
    exact overflow (by omega)

theorem failPermanently_attended (h : Attending ctx row redis x) (processing : row.status = .processing)
    {job : JobObject} (same : job.row = row) (fresh : job.expired = false) (message : String) :
    wp (attendance env source ctx) (failPermanently job message) (fun r x' => r = .ok .failed ∧
      (∃ current, x'.1.db.jobs row.id = some current ∧ current.status = .failed ∧
        current.retryCount = row.retryCount) ∧ x'.1.redis = redis) x := by
  subst same
  simp only [failPermanently, markFailed, JobObject.attributes, fresh, Bool.false_eq_true, if_false]
  refine (wp_bind _ _ _ _ _).mpr ((wp_bind _ _ _ _ _).mpr ?_)
  refine (wp_bind _ _ _ _ _).mpr ?_
  rw [ensureTransitionAllowed, processing]
  refine utcnow_attended fun now => wp_seq _ (flushAndCommit_attended h
    (ProcessingJob.flushed_self rfl rfl rfl rfl)) (fun _ x' post => ?_) ?_
  · obtain ⟨-, stored, redis⟩ := post
    exact ⟨rfl, ⟨_, stored, rfl, rfl⟩, redis⟩
  · rintro _ _ ⟨raised, -⟩
    cases raised

theorem retryLater_attended (h : Attending ctx row redis x) (processing : row.status = .processing)
    {job : JobObject} (same : job.row = row) (fresh : job.expired = false)
    (event : DocumentProcessingEvent) (message : String) :
    wp (attendance env source ctx) (retryLater env job row event message) (fun r x' =>
      (row.retryCount < 1024 → r = .ok .retryScheduled ∧ RetryScheduled event row x'.1) ∧
        (1024 ≤ row.retryCount → ∃ raised, r = .error raised)) x := by
  subst same
  refine computeDelay_attended (fun few delay => ?_) fun many =>
    ⟨fun few => by omega, fun _ => ⟨_, rfl⟩⟩
  refine uuid4_attended h fun eventId x h => ?_
  obtain ⟨w, loc⟩ := x
  refine (wp_bind _ _ _ _ _).mpr ((wp_tryCatch _ _ _ _ _).mpr ((wp_bind _ _ _ _ _).mpr ?_))
  refine utcnow_attended fun now => (wp_tryCatch _ _ _ _ _).mpr ?_
  let member := Payload.event (event.nextAttempt eventId)
  let due := now.timestamp + delay
  obtain ⟨w', loc', zadded, jobs, redis, tx⟩ : ∃ w' loc',
      attended env source ctx (w, loc) (.redis (.zadd member due)) = some ((w', loc'), .ok ()) ∧
        w'.db = w.db ∧ w'.redis = (w.redis.run w.now (.zadd member due)).redis ∧ loc'.tx = loc.tx :=
    ⟨_, _, rfl, rfl, rfl, rfl⟩
  refine wp_answering zadded ?_
  have ready : Attending ctx job.row w'.redis (w', loc') :=
    ⟨by rw [jobs]; exact h.committed, by rw [jobs]; exact h.document, by rw [jobs]; exact h.lock,
      tx.trans h.tx, rfl⟩
  simp only [wp_pure, if_true, markRetrying, JobObject.attributes, fresh, Bool.false_eq_true,
    if_false]
  refine (wp_bind _ _ _ _ _).mpr ((wp_bind _ _ _ _ _).mpr ?_)
  refine (wp_bind _ _ _ _ _).mpr ?_
  rw [ensureTransitionAllowed, processing]
  refine wp_seq _ (flushAndCommit_attended ready (ProcessingJob.flushed_self rfl rfl rfl rfl))
    (fun _ x' post => ?_) ?_
  · obtain ⟨-, stored, kept⟩ := post
    refine ⟨fun _ => ⟨rfl, ⟨message, stored⟩, eventId, due, ?_⟩, fun many => by omega⟩
    rw [kept, redis]
    exact Redis.zadd_mem _ _ _ _
  · rintro _ _ ⟨raised, -⟩
    cases raised

end Attending

/-- The decision that every failure should meet. -/
def RetriedIffTransient (lostConnection : String → Bool) (failure : Failure)
    (event : DocumentProcessingEvent) (row : ProcessingJob) (w w' : World)
    (r : Except Exn ProcessingOutcome) : Prop :=
  (failure.Transient lostConnection → r = .ok .retryScheduled ∧ RetryScheduled event row w') ∧
    (¬failure.Transient lostConnection → r = .ok .failed ∧ FailedAtOnce row w w')

theorem handleFailure_attended {env : Env} {source : RandomSource} {ctx : Context} {w : World}
    {loc : Local} {job : JobObject} {row : ProcessingJob} (failed : FailedAttempt ctx w job row)
    (event : DocumentProcessingEvent) (error : Exn) :
    wp (attendance env source ctx) (handleFailure env job event error) (fun r x' =>
      (isRetryable error = true → row.retryCount < 1024 →
        r = .ok .retryScheduled ∧ RetryScheduled event row x'.1) ∧
      (isRetryable error = true → 1024 ≤ row.retryCount → ∃ raised, r = .error raised) ∧
      (isRetryable error = false → r = .ok .failed ∧ FailedAtOnce row w x'.1)) (w, loc) := by
  obtain ⟨document, found⟩ := failed.document
  have ready : Attending ctx row w.redis
      ({ w with db := w.db.release ctx.thread }, { loc with tx := {} }) :=
    ⟨by rw [failed.key]; exact failed.committed, failed.document,
      Database.free_release failed.lock, rfl, rfl⟩
  have selected : attended env source ctx
      ({ w with db := w.db.release ctx.thread }, { loc with tx := {} }) (.db (.selectJob job.row.id)) =
        some (({ w with db := w.db.release ctx.thread }, { loc with tx := {} }),
          .ok (some (row, document))) := by
    simp only [attended, Op.execute, Database.execute, Database.run, Database.release,
      failed.committed, found, Option.bind_some, Option.map_some]
    rfl
  refine (wp_bind _ _ _ _ _).mpr (wp_answering_then (show attended env source ctx (w, loc)
    (.db .rollback) = some (({ w with db := w.db.release ctx.thread }, { loc with tx := {} }), .ok ())
      from rfl) ?_)
  refine (wp_bind _ _ _ _ _).mpr (wp_answering_then selected ?_)
  refine (wp_bind _ _ _ _ _).mpr ((wp_lift _ _ _ _).mpr ?_)
  cases retryable : isRetryable error with
  | false =>
    simp only [JobObject.attributes, shouldRetry, retryable, Bool.false_and, Bool.false_eq_true,
      if_false]
    refine wp_mono _ (fun r x' post => ⟨fun same => (by cases same), fun same => (by cases same),
        fun _ => ⟨post.1, post.2.1, ?_⟩⟩)
      (failPermanently_attended ready failed.processing rfl rfl _)
    exact congrArg Redis.retry post.2.2
  | true =>
    have budget : (row.retryCount < row.maxRetries) = True := eq_true failed.budget
    simp only [JobObject.attributes, shouldRetry, retryable, budget, decide_true, Bool.and_self,
      if_true, Bool.false_eq_true, if_false]
    refine wp_mono _ (fun r x' post => ⟨fun _ => post.1, fun _ => post.2,
        fun same => by cases same⟩)
      (retryLater_attended ready failed.processing rfl rfl event _)

/-- A failure with budget left is retried exactly if it is transient, except for
transient failures from the 1024th retry on and for permanent ones other than
rejected credentials. -/
theorem retried_iff_transient (env : Env) (source : RandomSource) (ctx : Context) (w : World)
    (loc : Local) (job : JobObject) (row : ProcessingJob) (event : DocumentProcessingEvent)
    (failure : Failure) (lostConnection : String → Bool) (failed : FailedAttempt ctx w job row) :
    ∃ w' loc' r, (handleFailure env job event failure.exn).runWith (attended env source ctx)
        (w, loc) = some ((w', loc'), r) ∧
      (RetriedIffTransient lostConnection failure event row w w' r ↔
        failure.Transient lostConnection ∧ row.retryCount < 1024 ∨ failure.Rejected) := by
  obtain ⟨⟨w', loc'⟩, r, ran, retried, overflowed, refused⟩ :=
    Program.runWith_of_wp (handleFailure_attended failed event failure.exn)
  refine ⟨w', loc', r, ran, fun decided => ?_, fun condition => ?_⟩
  · by_cases rejected : failure.Rejected
    · exact .inr rejected
    · have retryable := failure.isRetryable_iff.mpr rejected
      obtain few | many := lt_or_ge row.retryCount 1024
      · by_cases transient : failure.Transient lostConnection
        · exact .inl ⟨transient, few⟩
        · -- the code retries what should fail
          cases (retried retryable few).1.symm.trans (decided.2 transient).1
      · obtain ⟨raised, rfl⟩ := overflowed retryable many
        by_cases transient : failure.Transient lostConnection
        · cases (decided.1 transient).1
        · cases (decided.2 transient).1
  · obtain ⟨transient, few⟩ | rejected := condition
    · have retryable := failure.isRetryable_iff.mpr fun rejected =>
        Failure.not_transient_of_rejected rejected transient
      exact ⟨fun _ => retried retryable few, fun permanent => absurd transient permanent⟩
    · have permanent : isRetryable failure.exn = false :=
        Bool.eq_false_iff.mpr fun retryable => failure.isRetryable_iff.mp retryable rejected
      exact ⟨fun transient => absurd transient (Failure.not_transient_of_rejected rejected),
        fun _ => refused permanent⟩

section Sample

def lowestDraw : RandomSource where
  uniform low _ := low
  within low high := ⟨min_le_left low high, le_max_left low high⟩

def claimedRow : ProcessingJob where
  id := 1
  documentId := 0
  status := .processing
  retryCount := 0
  maxRetries := 3
  errorMessage := none
  queuedAt := 0
  startedAt := some 0
  completedAt := none
  processingDurationMs := none
  consumerName := some "w"
  createdAt := 0

def claimedDocument : Document := ⟨"a.txt", "0.txt", "text/plain", 1, "1970/01/01/0.txt", "sum", none⟩

def claimedWorld : World :=
  { System.init.world with
    db :=
      { documents := fun id => if id = 0 then some claimedDocument else none
        jobs := fun id => if id = 1 then some claimedRow else none
        results := fun _ => none
        lock := fun _ => none } }

def claimedEvent : DocumentProcessingEvent where
  eventId := 2
  jobId := 1
  documentId := 0
  storagePath := "1970/01/01/0.txt"
  requestedDocumentType := none

abbrev claimedContext : Context := ⟨0, 0, none⟩

theorem claimed_failedAttempt :
    FailedAttempt claimedContext claimedWorld ⟨claimedRow, claimedDocument, false⟩ claimedRow :=
  ⟨rfl, rfl, ⟨claimedDocument, rfl⟩, rfl, by decide, rfl⟩

theorem retried_iff_transient_timeout : ∃ w' loc' r,
    (handleFailure sampleEnv ⟨claimedRow, claimedDocument, false⟩ claimedEvent
        (Failure.api ⟨.apiTimeoutError, none, rfl⟩).exn).runWith
          (attended sampleEnv lowestDraw claimedContext) (claimedWorld, {}) = some ((w', loc'), r) ∧
      (RetriedIffTransient (fun _ => false) (.api ⟨.apiTimeoutError, none, rfl⟩) claimedEvent
          claimedRow claimedWorld w' r ↔
        (Failure.api ⟨.apiTimeoutError, none, rfl⟩).Transient (fun _ => false) ∧
          claimedRow.retryCount < 1024 ∨ (Failure.api ⟨.apiTimeoutError, none, rfl⟩).Rejected) :=
  retried_iff_transient sampleEnv lowestDraw claimedContext claimedWorld {}
    ⟨claimedRow, claimedDocument, false⟩ claimedRow claimedEvent _ _ claimed_failedAttempt

def DecidedRightly (failure : Failure) : Prop :=
  ∃ w' loc' r, (handleFailure sampleEnv ⟨claimedRow, claimedDocument, false⟩ claimedEvent
      failure.exn).runWith (attended sampleEnv lowestDraw claimedContext) (claimedWorld, {}) =
        some ((w', loc'), r) ∧
    RetriedIffTransient (fun _ => false) failure claimedEvent claimedRow claimedWorld w' r

theorem not_decidedRightly {failure : Failure} (retryable : isRetryable failure.exn = true)
    (permanent : ¬failure.Transient fun _ => false) : ¬DecidedRightly failure := by
  rintro ⟨w', loc', r, ran, decided⟩
  obtain ⟨_, _, ran', retried, -⟩ := Program.runWith_of_wp (@handleFailure_attended sampleEnv
    lowestDraw _ _ {} _ _ claimed_failedAttempt claimedEvent failure.exn)
  cases ran.symm.trans ran'
  cases (retried retryable (by decide)).1.symm.trans (decided.2 permanent).1

/-- A bad request and a data error are both retried. -/
theorem permanent_retried : ¬DecidedRightly (.api ⟨.badRequestError, some 400, rfl⟩) ∧
    ¬DecidedRightly (.dbapi .data "value too long for type character varying(128)") := by
  constructor
  · refine not_decidedRightly (by decide) ?_
    rintro (limited | unreachable | ⟨status, is, transient⟩)
    · cases limited
    · cases unreachable
    · cases is
      omega
  · exact not_decidedRightly rfl not_false

end Sample
end DocumentPipeline

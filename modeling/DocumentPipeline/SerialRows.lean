import DocumentPipeline.JobBoard
import DocumentPipeline.RetryBudget
import DocumentPipeline.SpendBounds

/-! The job table of orderly runs is a board. Sessions read a row, work for a
while and flush what they changed, and commits are lost or replayed; yet every
commit acts as one operation on the row it replaces. The history of commits is
then a trace of the board, in the order in which they happened, and what holds
along traces holds of the table. -/

namespace DocumentPipeline
open EffectProgram Transition JobService Routes

section Building

/-- The INSERT of a job that is not as `create_document_and_job` builds one. -/
def Op.misbuilds (env : Env) : Op → Prop
  | .db (.insertJob row) => row ≠ createdRow row.id row.documentId env.settings.maxRetries 0
  | _ => False

variable {env : Env}

theorem withSession_builds {body : Prog ApiResponse} (builds : body.Avoids (Op.misbuilds env)) :
    (providedSession body).Avoids (Op.misbuilds env) :=
  .bind (.perform id) fun _ => .andFinally
    (.tryCatch builds fun _ => .bind (.perform id) fun _ => trivial) (.perform id)

theorem flushAndCommit_builds (loaded current : ProcessingJob) :
    (flushAndCommit loaded current).Avoids (Op.misbuilds env) :=
  .bind (.perform id) fun _ => .perform id

theorem publishOrFail_builds (job : JobObject) (message : String) :
    (publishOrFail job message).Avoids (Op.misbuilds env) := by
  have publishes : (Queue.publishJob job).Avoids (Op.misbuilds env) := by
    refine .bind (.bind (.lift _) fun _ => .bind (.perform id) fun _ => trivial) fun event => ?_
    refine .tryCatch (.perform id) fun error => ?_
    split <;> trivial
  refine .tryCatch (.bind publishes fun _ => trivial) fun error => ?_
  split
  · exact .bind (.bind (.lift _) fun _ => .bind (.lift _) fun _ => .bind (.perform id) fun _ =>
      .bind (flushAndCommit_builds _ _) fun _ => trivial) fun _ => trivial
  · trivial

theorem save_builds (data : Bytes) (extension : String) :
    (FileStorage.save env data extension).Avoids (Op.misbuilds env) := by
  refine .bind (.perform id) fun _ => .bind (.perform id) fun _ => .bind (.lift _) fun _ =>
    .bind (.tryCatch (.perform id) fun error => ?_) fun _ => trivial
  split <;> trivial

theorem createDocumentAndJob_builds (stored : StoredFile) (originalFilename contentType : String)
    (documentType : Option DocumentType) :
    (createDocumentAndJob stored originalFilename contentType documentType
      env.settings.maxRetries).Avoids (Op.misbuilds env) := by
  refine .bind (.perform id) fun _ => .bind (.perform id) fun _ => .bind (.perform id) fun _ => ?_
  refine .bind (.perform fun other => other rfl) fun _ => .bind (.perform id) fun _ => ?_
  refine .bind (.bind (.perform id) fun found => ?_) fun job => .bind (.perform id) fun found => ?_
  all_goals split <;> trivial

theorem uploadDocument_builds (file : UploadFile) (documentType : Option DocumentType) :
    (uploadDocument env file documentType).Avoids (Op.misbuilds env) :=
  withSession_builds (.bind (.lift _) fun _ => .bind (save_builds _ _) fun _ =>
    .bind (createDocumentAndJob_builds _ _ _ _) fun _ => .bind (publishOrFail_builds _ _) fun _ =>
      trivial)

theorem retryJob_builds (jobId : Nat) : (retryJob jobId).Avoids (Op.misbuilds env) := by
  refine withSession_builds (.bind (.bind (.perform id) fun found => ?_) fun _ =>
    .bind (.bind (.lift _) fun _ => .bind (.lift _) fun _ => .bind (.perform id) fun _ =>
      .bind (flushAndCommit_builds _ _) fun _ => trivial) fun _ =>
        .bind (publishOrFail_builds _ _) fun _ => trivial)
  split <;> trivial

theorem Call.serving_next {x : Staged} {t : Nat} {choice : Choice} (call : Call env x t choice)
    {request : Request} {p : Prog ApiResponse} (control : call.thread.control = .serving request p) :
    ∃ next, p = .call call.o next ∧ call.reached = .serving request (next call.reply.answer) := by
  obtain ⟨⟨proc, name, running, loc⟩, o, next, reply, found, waits, ran⟩ := call
  cases control
  cases p <;> cases waits
  exact ⟨_, rfl, rfl⟩

/-- Requests insert jobs as `create_document_and_job` builds them. -/
structure Builds (env : Env) (x : Staged) : Prop where
  serving : ∀ (t : Nat) (th : Thread) (request : Request) (p : Prog ApiResponse),
    x.1.threads[t]? = some th → th.control = .serving request p → p.Avoids (Op.misbuilds env)
  inserted : ∀ (t : Nat) (row : ProcessingJob), x.2 t = .request (.inserted row) →
    row = createdRow row.id row.documentId env.settings.maxRetries 0

theorem RequestStage.next_inserted {stage : RequestStage} {o : Op} {answer : Except Exn o.Val}
    {row : ProcessingJob} (inserts : stage.next o answer = .inserted row) :
    o = .db (.insertJob row) := by
  unfold next at inserts
  split at inserts <;> cases inserts
  rfl

theorem Builds.act {x : Staged} {t : Nat} {choice : Choice} (builds : Builds env x)
    (consistent : Consistent env x) (call : Call env x t choice) : Builds env call.result where
  serving t' th request p found control := by
    obtain ⟨rfl, rfl⟩ | ⟨-, isFound⟩ := call.threads_result found
    · have reached := Control.settle_serving control
      obtain ⟨item, stage, is⟩ | ⟨request', stage, is⟩ | ⟨task, stage, is⟩ := consistent.kind call
      · obtain ⟨loop, rest, q, q', -, handles⟩ := is.control
        cases handles.symm.trans reached
      · obtain ⟨q, q', before, -⟩ := is.control
        obtain ⟨next, rfl, after⟩ := call.serving_next before
        cases after.symm.trans reached
        exact (builds.serving t' _ _ _ call.found before).2 _
      · have runs := is.control.2.1
        rw [reached] at runs
        cases runs
    · exact builds.serving t' th request p isFound control
  inserted t' row staged := by
    by_cases own : t' = t
    · subst own
      rw [call.own_stage] at staged
      obtain ⟨item, stage, is⟩ | ⟨request, stage, is⟩ | ⟨task, stage, is⟩ := consistent.kind call
      · obtain ⟨goes, -⟩ | ⟨-, goes⟩ := is.goes
        · cases goes.symm.trans staged
        · cases Control.first_request (goes.symm.trans staged)
      · obtain ⟨goes, -⟩ | ⟨-, goes, -⟩ := is.goes <;> rw [goes] at staged
        · have inserts := RequestStage.next_inserted (Stage.request.inj staged)
          obtain ⟨p, p', control, -⟩ := is.control
          obtain ⟨next, rfl, -⟩ := call.serving_next control
          have builds := (builds.serving t' _ _ _ call.found control).1
          rw [inserts] at builds
          exact not_not.mp builds
        · cases staged
      · obtain ⟨goes, -⟩ | goes := is.goes
        · cases goes.symm.trans staged
        · cases Control.first_request (goes.symm.trans staged)
    · exact builds.inserted t' row ((call.other_stage own).symm.trans staged)

theorem Builds.undisturbed {x x' : Staged} {label : Label} (builds : Builds env x)
    (move : Move env x label x') (noCall : ∀ t choice, label ≠ .act t choice) : Builds env x' where
  serving t th request p found control := by
    obtain ⟨isFound, -⟩ | ⟨-, loop, idle, -⟩ | ⟨-, received, serves, -⟩ | ⟨_, loop, -, -, rfl, -⟩ |
      ⟨choice, call, labelled, -⟩ | ⟨_, -, -, rfl, -⟩ := move.thread found
    · exact builds.serving t th request p isFound control
    · cases idle.symm.trans control
    · rw [serves] at control
      cases received <;> cases control
      · exact uploadDocument_builds _ _
      · exact retryJob_builds _
    · cases loop <;> cases control
    · exact absurd labelled (noCall t choice)
    · cases control
  inserted t row staged := by
    obtain same | ⟨c, first⟩ := move.stage noCall t
    · exact builds.inserted t row (same.symm.trans staged)
    · cases Control.first_request (first.symm.trans staged)

theorem StagedRun.builds {guard : Guard} {x : Staged} (h : StagedRun env guard x) : Builds env x := by
  refine h.invariant ⟨fun _ _ _ _ found => (by cases found), fun _ _ staged => (by cases staged)⟩
    fun _ _ _ reached builds stepped _ => ?_
  obtain ⟨t, choice, call, -, rfl⟩ | noCall := (move_of_step stepped).call_or
  · exact builds.act (StagedRun.consistent reached) call
  · exact builds.undisturbed (move_of_step stepped) noCall

end Building

section Changes

def Observation.change? : Observation → Option Change
  | .created jobId => some ⟨jobId, none, .queued⟩
  | .claimed _ jobId before => some ⟨jobId, some before, .processing⟩
  | .wrote _ jobId before after => some ⟨jobId, some before, after⟩
  | _ => none

/-- The committed changes of job rows, newest first. -/
def World.changes (w : World) : List Change := w.history.filterMap (·.change?)

def Write.change : Write → Change
  | .insert row => ⟨row.id, none, .queued⟩
  | .claim base row => ⟨row.id, some base.status, .processing⟩
  | .update _ base row => ⟨row.id, some base.status, row.status⟩

variable {env : Env} {x : Staged} {t : Nat} {choice : Choice}

theorem observes_changes (ctx : Context) (w : World) (loc : Local) (o : Op) :
    (o.observes ctx w loc choice).filterMap (·.change?) =
      ((loc.commits o choice).map (·.change)).toList := by
  have faults : (choice.faults ctx).filterMap (·.change?) = [] := by cases choice <;> rfl
  cases o with
  | runtime o => cases o <;> first | rfl | (simp only [Op.observes]; cases ctx.item <;> rfl)
  | db o =>
    simp only [Op.observes, List.filterMap_append, faults, List.nil_append]
    cases loc.commits (.db o) choice with
    | none => rfl
    | some write => cases write <;> rfl
  | redis o =>
    refine List.filterMap_eq_nil_iff.mpr fun observation mem => ?_
    obtain fault | mem := List.mem_append.mp mem
    · rw [mem_faults fault]
      rfl
    · obtain ⟨fields, event, -, -, rfl | ⟨-, rfl⟩⟩ | ⟨event, score, -, -, rfl⟩ |
        ⟨clock, limit, event, due, -, -, rfl⟩ | ⟨id, rfl⟩ := mem_redis_observes mem <;> rfl

theorem changes_call (call : Call env x t choice) : call.world'.changes =
    ((call.thread.loc.commits call.o choice).map (·.change)).toList ++ x.1.world.changes := by
  have announced : (call.reached.announce t).filterMap (·.change?) = [] :=
    List.filterMap_eq_nil_iff.mpr fun observation mem => by
      obtain ⟨item, rfl⟩ | ⟨answer, rfl⟩ := mem_announce mem <;> rfl
  simp only [World.changes, call.history, List.filterMap_append, announced, observes_changes,
    List.nil_append]

end Changes

section Turns
variable {env : Env} {x : Staged} {t : Nat} {choice : Choice}

theorem Builds.created (builds : Builds env x) (consistent : Consistent env x)
    (call : Call env x t choice) {row : ProcessingJob}
    (pending : call.thread.loc.tx.write = some (.insert row)) :
    ∃ jobId documentId now, row = createdRow jobId documentId env.settings.maxRetries now := by
  obtain ⟨item, stage, is⟩ | ⟨request, stage, is⟩ | ⟨task, stage, is⟩ := consistent.kind call
  · have writes := is.facts.write
    rw [pending] at writes
    exact writes.elim
  · have writes := is.facts.write
    rw [pending] at writes
    cases stage <;> first | exact writes.elim | skip
    obtain ⟨now, rfl⟩ := writes
    rename_i held
    have built := builds.inserted t held is.staged
    refine ⟨held.id, held.documentId, now, ?_⟩
    rw [built]
    rfl
  · rw [is.facts.tx] at pending
    cases pending

theorem Undisputed.current_loaded (undisputed : Undisputed x) (owned : Owned env x)
    (consistent : Consistent env x) (locked : Locked x) (call : Call env x t choice)
    {loaded base row : ProcessingJob}
    (pending : call.thread.loc.tx.write = some (.update loaded base row)) : base = loaded := by
  obtain ⟨item, stage, is⟩ | ⟨request, stage, is⟩ | ⟨task, stage, is⟩ := consistent.kind call
  · obtain ⟨win, opened, owner⟩ := owned.own_window call is pending
    obtain ⟨stored, isStored, -, agrees⟩ := owned.rows t _ win call.found opened
    have based : x.1.world.db.jobs row.id = some base :=
      locked.based t call.thread _ call.found pending
    rw [owner] at isStored
    cases based.symm.trans isStored
    have writes := is.facts.write
    rw [pending] at writes
    have staged := is.staged
    cases stage <;> first | exact writes.elim | skip
    all_goals
      obtain ⟨rfl, -⟩ := writes
      exact (agrees _ _ staged rfl).symm
  · exact (undisputed.resetting locked is pending).2.1
  · rw [is.facts.tx] at pending
    cases pending

theorem Marked.turn {settings : Settings} {board : JobBoard} {row row' : ProcessingJob}
    (marked : Marked row row') (current : board row.id = some row)
    (allowed : isTransitionAllowed row.status row'.status = true) :
    JobBoard.Turn settings board ⟨row'.id, some row.status, row'.status⟩ (board.put row') := by
  cases marked with
  | completed now => exact .completed now current allowed
  | retrying message left => exact .retried message current allowed left
  | failed message now => exact .failed message now current allowed
  | requeued now => exact .requeued now current allowed

theorem Marked.whole {row row' : ProcessingJob} (marked : Marked row row') :
    row.flushed row' row = row' := by
  cases marked <;> exact ProcessingJob.flushed_self rfl rfl rfl rfl

/-- Each commit of an orderly run is one operation on the board. -/
theorem Undisputed.turn (undisputed : Undisputed x) (owned : Owned env x) (builds : Builds env x)
    (consistent : Consistent env x) (locked : Locked x) (call : Call env x t choice) {write : Write}
    (committed : call.thread.loc.commits call.o choice = some write) :
    JobBoard.Turn env.settings x.1.world.db.jobs write.change
      (JobBoard.put x.1.world.db.jobs write.row) := by
  have pending := (commits_write committed).2
  have based := locked.based t call.thread write call.found pending
  cases write with
  | insert row =>
    obtain ⟨jobId, documentId, now, rfl⟩ := builds.created consistent call pending
    exact .created jobId documentId now based
  | claim base row =>
    obtain ⟨item, now, is⟩ := consistent.claiming call pending
    have writes := is.facts.write
    rw [pending] at writes
    obtain ⟨-, rfl, claimable⟩ := writes
    have stored : x.1.world.db.jobs base.id = some base := based
    exact .claimed call.thread.name now stored claimable
  | update loaded base row =>
    cases undisputed.current_loaded owned consistent locked call pending
    obtain ⟨current, same, allowed, -⟩ := consistent.lawful call.found pending
    have moved := ProcessingJob.flushed_status (allowed_ne allowed) loaded
    rw [← same] at moved
    rw [← moved] at allowed
    cases consistent.wrote locked call committed with
    | flushed carried stored marked =>
      rw [marked.whole] at allowed ⊢
      exact marked.turn stored allowed

/-- Each step of an orderly run is silent on the board, or one operation. -/
theorem StagedRun.moves {x' : Staged} {label : Label} (agree : ClocksAgree env)
    (reached : StagedRun env (orderly env) x) (stepped : stagedStep env x label = some x') :
    Moves (JobBoard.Turn env.settings) x.1.world.changes x.1.world.db.jobs x'.1.world.changes
      x'.1.world.db.jobs := by
  obtain ⟨t, choice, call, -, rfl⟩ | noCall := (move_of_step stepped).call_or
  · have jobs : call.world'.db.jobs = _ := execute_jobs call.ran
    have changes := changes_call call
    cases committed : call.thread.loc.commits call.o choice with
    | none =>
      rw [committed] at jobs changes
      rw [show call.result.1.world = call.world' from rfl, jobs, changes]
      exact .silent
    | some write =>
      obtain ⟨landed, undisputed⟩ := reached.undisputed agree
      have turn := undisputed.turn (landed.owned_landing agree) (StagedRun.builds reached)
        (StagedRun.consistent reached) (StagedRun.locked reached) call committed
      rw [committed] at jobs changes
      rw [show call.result.1.world = call.world' from rfl, jobs, changes]
      exact .event turn
  · have rests := (move_of_step stepped).rests noCall
    have same : x'.1.world.changes = x.1.world.changes := congrArg (List.filterMap _) rests.history
    rw [rests.jobs, same]
    exact .silent

theorem StagedRun.trace (agree : ClocksAgree env) (reached : StagedRun env (orderly env) x) :
    Trace (JobBoard.Turn env.settings) JobBoard.empty x.1.world.changes x.1.world.db.jobs :=
  Reach.trace (fun x => x.1.world.db.jobs) (fun x => x.1.world.changes) rfl
    (fun _ _ _ before stepped _ => StagedRun.moves agree before stepped) reached

end Turns

/-- The job table of an orderly run, and the history of its commits, are those of
operations that act one after another on the current rows. -/
theorem jobs_serial {env : Env} (agree : ClocksAgree env) {s : System}
    (h : Reached env (orderly env) s) :
    Trace (JobBoard.Turn env.settings) JobBoard.empty s.world.changes s.world.db.jobs := by
  obtain ⟨g, staged⟩ := h.staged
  exact StagedRun.trace agree staged

/-- A board on which a worker has died in `_run`, another has failed the job, and a
request has put it back. -/
theorem orderly_taken_over : ∃ s row, Reached sampleEnv (orderly sampleEnv) s ∧
    s.world.db.jobs 2 = some row ∧ s.world.changes = [⟨2, some .failed, .queued⟩,
      ⟨2, some .processing, .failed⟩, ⟨2, some .processing, .processing⟩,
      ⟨2, some .queued, .processing⟩, ⟨2, none, .queued⟩] := by
  obtain ⟨s, reached, accepted⟩ := Reached.exists_orderly sampleEnv
    (fun s => (s.world.db.jobs 2).isSome && s.world.changes = [⟨2, some .failed, .queued⟩,
      ⟨2, some .processing, .failed⟩, ⟨2, some .processing, .processing⟩,
      ⟨2, some .queued, .processing⟩, ⟨2, none, .queued⟩]) takenOverRun (by decide +kernel)
  obtain ⟨there, changes⟩ := Bool.and_eq_true_iff.mp accepted
  obtain ⟨row, found⟩ := Option.isSome_iff_exists.mp there
  exact ⟨s, row, reached, found, of_decide_eq_true changes⟩

theorem jobs_serial_taken_over : ∃ s row, Reached sampleEnv (orderly sampleEnv) s ∧
    s.world.db.jobs 2 = some row ∧ s.world.changes.length = 5 ∧
      Trace (JobBoard.Turn sampleEnv.settings) JobBoard.empty s.world.changes s.world.db.jobs := by
  obtain ⟨s, row, reached, found, changes⟩ := orderly_taken_over
  exact ⟨s, row, reached, found, by rw [changes]; rfl, jobs_serial (fun _ _ => rfl) reached⟩

/-- In orderly runs a reader may rely on the columns of every committed row. -/
theorem committed_rows_consistent {env : Env} (agree : ClocksAgree env) {s : System}
    (h : Reached env (orderly env) s) {jobId : Nat} {row : ProcessingJob}
    (found : s.world.db.jobs jobId = some row) : row.RowConsistent := by
  obtain ⟨g, staged⟩ := h.staged
  exact (JobBoard.told_of_trace (StagedRun.trace agree staged) jobId row found).2.invariant.consistent

theorem committed_rows_consistent_taken_over : ∃ s row,
    Reached sampleEnv (orderly sampleEnv) s ∧ s.world.db.jobs 2 = some row ∧ row.RowConsistent := by
  obtain ⟨s, row, reached, found, -⟩ := orderly_taken_over
  exact ⟨s, row, reached, found, committed_rows_consistent (fun _ _ => rfl) reached found⟩

/-- In orderly runs `retry_count` counts the commits that have put the job into
RETRYING since it was queued last, and its status is the one committed last. -/
theorem retry_count_counts {env : Env} (agree : ClocksAgree env) {s : System}
    (h : Reached env (orderly env) s) {jobId : Nat} {row : ProcessingJob}
    (found : s.world.db.jobs jobId = some row) :
    row.retryCount = retriesSinceQueued jobId s.world.changes ∧
      (changesOf jobId s.world.changes).head?.map (·.after) = some row.status := by
  obtain ⟨g, staged⟩ := h.staged
  obtain ⟨rfl, tells⟩ := JobBoard.told_of_trace (StagedRun.trace agree staged) jobId row found
  exact ⟨tells.retryCount, tells.status⟩

theorem retry_count_counts_taken_over : ∃ s row, Reached sampleEnv (orderly sampleEnv) s ∧
    s.world.db.jobs 2 = some row ∧ row.retryCount = retriesSinceQueued 2 s.world.changes ∧
      (changesOf 2 s.world.changes).head?.map (·.after) = some row.status := by
  obtain ⟨s, row, reached, found, -⟩ := orderly_taken_over
  exact ⟨s, row, reached, found, retry_count_counts (fun _ _ => rfl) reached found⟩

end DocumentPipeline

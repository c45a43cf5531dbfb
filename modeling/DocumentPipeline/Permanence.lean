import DocumentPipeline.Lifecycle

/-! Results are permanent. A result is inserted behind the update that completes
its job, under the lock of the job's row, and committed with it. So a completed
job has its result in every run, and no run stores a second one: the check of
the unique key and the commit are in one hold of the lock. -/

namespace DocumentPipeline
open EffectProgram Transition JobService

/-- The result of a commit that was applied, whatever the client saw. -/
def Local.records (loc : Local) : (o : Op) → Choice → Option ExtractionResult
  | .db .commit, .fails _ => none
  | .db .commit, _ => loc.tx.result
  | _, _ => none

section Calls
variable {env : Env} {ctx : Context} {w : World} {loc : Local} {choice : Choice} {o : Op}
  {reply : Reply o} {result : ExtractionResult}

theorem records_commit (recorded : loc.records o choice = some result) :
    o = .db .commit ∧ loc.tx.result = some result := by
  cases o with
  | runtime o => cases recorded
  | redis o => cases recorded
  | db o => cases o <;> first | cases recorded | (cases choice <;> first | cases recorded | exact ⟨rfl, recorded⟩)

theorem records_of_commits {write : Write} (committed : loc.commits o choice = some write) :
    loc.records o choice = loc.tx.result := by
  cases o with
  | runtime o => cases committed
  | redis o => cases committed
  | db o => cases o <;> first | cases committed | (cases choice <;> first | cases committed | rfl)

theorem commits_of_records (recorded : loc.records o choice = some result) :
    loc.commits o choice = loc.tx.write := by
  cases o with
  | runtime o => cases recorded
  | redis o => cases recorded
  | db o => cases o <;> first | cases recorded | (cases choice <;> first | cases recorded | rfl)

theorem execute_results (ran : o.execute env ctx w loc choice = some reply) :
    reply.world.db.results = match loc.records o choice with
      | none => w.db.results
      | some result => Function.update w.db.results result.jobId (some result) := by
  cases o with
  | runtime o =>
    obtain ⟨done, did, rfl⟩ := execute_runtime ran
    exact congrArg Database.results (runRuntime_stores did).1
  | redis o =>
    obtain ⟨-, rfl⟩ | ⟨error, -, -, rfl⟩ | ⟨error, -, -, rfl⟩ := execute_redis ran
    all_goals exact congrArg Database.results (noteRedis_stores w.redis o _).1
  | db o =>
    by_cases commit : o = .commit
    · subst commit
      obtain ⟨rfl, rfl⟩ | ⟨error, rfl, -, rfl⟩ | ⟨error, rfl, -, rfl⟩ := execute_commit ran <;> rfl
    · have quiet : loc.records (.db o) choice = none := by
        cases o <;> first | rfl | exact absurd rfl commit
      rw [quiet]
      obtain ⟨-, done, did, rfl⟩ | ⟨error, -, -, -, rfl⟩ := execute_db ran commit
      · exact (Database.run_jobs did commit).2.2
      · rfl

theorem run_pending {o : DbOp} {db : Database} {now : Time} {t : Nat} {tx : Transaction}
    {done : Database.Reply o} (did : db.run now t tx o = some done)
    (pending : done.tx.result = some result) :
    o ≠ .commit ∧ (tx.result = some result ∨ db.results result.jobId = none) := by
  cases o with
  | insertResult inserted =>
    simp only [Database.run] at did
    split at did <;> cases did
    · cases pending
    · rename_i absent
      cases pending
      exact ⟨fun same => (by cases same), .inr (by simpa using absent)⟩
  | executeClaim jobId consumer started cut =>
    refine ⟨fun same => (by cases same), .inl ?_⟩
    simp only [Database.run] at did
    repeat' split at did
    all_goals cases did <;> exact pending
  | updateJob loaded current =>
    refine ⟨fun same => (by cases same), .inl ?_⟩
    simp only [Database.run] at did
    repeat' split at did
    all_goals cases did <;> first | exact pending | cases pending
  | insertJob job =>
    refine ⟨fun same => (by cases same), .inl ?_⟩
    simp only [Database.run] at did
    repeat' split at did
    all_goals cases did <;> first | exact pending | cases pending
  | _ =>
    cases did
    first | exact ⟨fun same => (by cases same), .inl pending⟩ | cases pending

/-- What is pending after a call was pending before, or is inserted where there
was no result; and the call has committed nothing. -/
theorem execute_pending (ran : o.execute env ctx w loc choice = some reply)
    (pending : reply.loc.tx.result = some result) :
    loc.records o choice = none ∧
      (loc.tx.result = some result ∨ w.db.results result.jobId = none) := by
  cases o with
  | runtime o =>
    obtain ⟨done, did, rfl⟩ := execute_runtime ran
    exact ⟨rfl, .inl pending⟩
  | redis o =>
    obtain ⟨-, rfl⟩ | ⟨error, -, -, rfl⟩ | ⟨error, -, -, rfl⟩ := execute_redis ran
    all_goals
      refine ⟨rfl, .inl ?_⟩
      cases o <;> cases choice <;> exact pending
  | db o =>
    by_cases commit : o = .commit
    · subst commit
      obtain ⟨-, rfl⟩ | ⟨error, -, -, rfl⟩ | ⟨error, -, -, rfl⟩ := execute_commit ran
      all_goals cases pending
    · have quiet : loc.records (.db o) choice = none := by
        cases o <;> first | rfl | exact absurd rfl commit
      obtain ⟨-, done, did, rfl⟩ | ⟨error, -, -, -, rfl⟩ := execute_db ran commit
      · exact ⟨quiet, (run_pending did pending).2⟩
      · cases pending

end Calls

theorem Consistent.recording {env : Env} {x : Staged} (consistent : Consistent env x) {t : Nat}
    {th : Thread} {result : ExtractionResult} (found : x.1.threads[t]? = some th)
    (pending : th.loc.tx.result = some result) :
    ∃ seen base row, th.loc.tx.write = some (.update seen base row) ∧ row.id = result.jobId ∧
      row.status = .completed := by
  have facts := consistent.locals t th found
  revert facts
  cases th.control <;> cases x.2 t <;> intro facts <;> first
    | (rw [IdleLocal.tx facts] at pending
       cases pending)
    | (rw [RequestLocal.result facts] at pending
       cases pending)
    | skip
  rename_i stage
  have attempt : AttemptLocal env th.name _ stage th.loc := facts
  have results := attempt.result
  have writes := attempt.write
  have sound := attempt.sound
  rw [pending] at results
  cases stage <;> first | exact results.elim | skip
  cases written : th.loc.tx.write with
  | none =>
    rw [written] at writes
    exact writes.elim
  | some write =>
    have owner := (attempt.writes_own written).trans (Eq.symm results)
    rw [written] at writes
    cases write with
    | update seen base row =>
      obtain ⟨rfl, -, rfl⟩ := writes
      obtain ⟨-, allowed, now, rfl⟩ := sound
      exact ⟨_, _, _, rfl, owner, ProcessingJob.flushed_status (allowed_ne allowed) _⟩
    | _ => exact writes.elim

/-- A row is completed in the transaction that inserts its result. -/
theorem Consistent.completing {env : Env} {x : Staged} {t : Nat} {choice : Choice}
    (consistent : Consistent env x) (call : Call env x t choice) {write : Write}
    (committed : call.thread.loc.commits call.o choice = some write)
    (done : write.row.status = .completed) :
    ∃ result, call.thread.loc.tx.result = some result ∧ result.jobId = write.row.id := by
  obtain ⟨isCommit, pending⟩ := commits_write committed
  obtain ⟨item, stage, is⟩ | ⟨request, stage, is⟩ | ⟨task, stage, is⟩ := consistent.kind call
  · have permitted := is.permitted
    have sound := is.facts.sound
    have writes := is.facts.write
    have results := is.facts.result
    have owner := is.facts.writes_own pending
    rw [isCommit] at permitted
    rw [pending] at writes
    obtain ⟨now, rfl⟩ | ⟨row, current, rfl⟩ | ⟨row, current, event, rfl⟩ :=
      AttemptStage.permits_commit permitted
    · cases write <;> first | exact writes.elim | skip
      obtain ⟨-, rfl, -⟩ := writes
      cases done
    · cases stored : call.thread.loc.tx.result with
      | none =>
        rw [stored] at results
        exact results.elim
      | some result =>
        rw [stored] at results
        exact ⟨result, rfl, Eq.trans results owner.symm⟩
    · cases write <;> first | exact writes.elim | skip
      obtain ⟨rfl, -, rfl⟩ := writes
      cases event with
      | none =>
        obtain ⟨-, allowed, message, now, rfl⟩ := sound
        cases (ProcessingJob.flushed_status (allowed_ne allowed) _).symm.trans done
      | some event =>
        obtain ⟨-, allowed, -, ⟨message, rfl⟩, -⟩ := sound
        cases (ProcessingJob.flushed_status (allowed_ne allowed) _).symm.trans done
  · have lawful := is.facts.lawful pending
    have writes := is.facts.write
    have sound := is.facts.sound
    rw [pending] at writes
    cases write with
    | insert row => cases (show row.status = .queued from lawful).symm.trans done
    | claim base row => exact writes.elim
    | update seen base row =>
      cases stage <;> first | exact writes.elim | skip
      · obtain ⟨rfl, -, rfl⟩ := writes
        obtain ⟨-, allowed, now, rfl⟩ := sound
        cases (ProcessingJob.flushed_status (allowed_ne allowed) _).symm.trans done
      · obtain ⟨rfl, -, rfl⟩ := writes
        obtain ⟨-, allowed, message, now, rfl⟩ := sound
        cases (ProcessingJob.flushed_status (allowed_ne allowed) _).symm.trans done
  · rw [is.facts.tx] at pending
    cases pending

/-- Results are stored under their job's key, one at most, and a completed job
has one; a pending result has none before it. -/
structure Permanent (x : Staged) : Prop where
  pending : ∀ (t : Nat) (th : Thread) (result : ExtractionResult), x.1.threads[t]? = some th →
    th.loc.tx.result = some result → x.1.world.db.results result.jobId = none
  keyed : ∀ jobId result, x.1.world.db.results jobId = some result → result.jobId = jobId
  owned : ∀ jobId result, x.1.world.db.results jobId = some result →
    (x.1.world.db.jobs jobId).isSome = true
  completed : ∀ jobId row, x.1.world.db.jobs jobId = some row → row.status = .completed →
    (x.1.world.db.results jobId).isSome = true

namespace Permanent
variable {env : Env} {x : Staged} {t : Nat} {choice : Choice}

/-- A commit stores its result where there was none. -/
theorem keeps (permanent : Permanent x) (call : Call env x t choice) {jobId : Nat}
    {result : ExtractionResult} (stored : x.1.world.db.results jobId = some result) :
    call.world'.db.results jobId = some result := by
  rw [show call.world'.db.results = _ from execute_results call.ran]
  split
  · exact stored
  · rename_i new recorded
    have absent := permanent.pending t _ new call.found (records_commit recorded).2
    rw [Function.update_of_ne, stored]
    rintro rfl
    cases absent.symm.trans stored

theorem act (permanent : Permanent x) (consistent : Consistent env x) (locked : Locked x)
    (call : Call env x t choice) : Permanent call.result := by
  have jobs : call.world'.db.jobs = _ := execute_jobs call.ran
  have results : call.world'.db.results = _ := execute_results call.ran
  have grow : ∀ jobId, (x.1.world.db.jobs jobId).isSome = true →
      (call.world'.db.jobs jobId).isSome = true := by
    intro jobId there
    rw [jobs]
    split
    · exact there
    · rw [Function.update_apply]
      split
      · rfl
      · exact there
  refine ⟨fun t' th' result found pending => ?_, fun jobId result stored => ?_,
    fun jobId result stored => ?_, fun jobId row found done => ?_⟩
  · change call.world'.db.results result.jobId = none
    obtain ⟨rfl, rfl⟩ | ⟨other, isFound⟩ := call.threads_result found
    · obtain ⟨quiet, earlier⟩ := execute_pending call.ran pending
      rw [results, quiet]
      exact earlier.elim (permanent.pending t' _ result call.found) id
    · have absent := permanent.pending t' th' result isFound pending
      rw [results]
      split
      · exact absent
      · rename_i new recorded
        rw [Function.update_of_ne, absent]
        -- the lock of the job's row keeps the two sessions apart
        intro same
        obtain ⟨_, _, _, held, owner, -⟩ := consistent.recording call.found (records_commit recorded).2
        obtain ⟨_, _, _, held', owner', -⟩ := consistent.recording isFound pending
        exact other (locked.exclusive isFound call.found held' held
          (owner'.trans (same.trans owner.symm)))
  · change call.world'.db.results jobId = some result at stored
    rw [results] at stored
    split at stored
    · exact permanent.keyed jobId result stored
    · rw [Function.update_apply] at stored
      split at stored
      · cases stored
        rename_i own
        exact own.symm
      · exact permanent.keyed jobId result stored
  · change call.world'.db.results jobId = some result at stored
    rw [results] at stored
    split at stored
    · exact grow jobId (permanent.owned jobId result stored)
    · rename_i new recorded
      rw [Function.update_apply] at stored
      split at stored
      · rename_i own
        obtain ⟨_, base, _, held, owner, -⟩ :=
          consistent.recording call.found (records_commit recorded).2
        have based : x.1.world.db.jobs _ = some base := locked.based t _ _ call.found held
        refine grow jobId ?_
        rw [own, ← owner, based]
        rfl
      · exact grow jobId (permanent.owned jobId result stored)
  · change call.world'.db.jobs jobId = some row at found
    have kept : (x.1.world.db.results jobId).isSome = true →
        (call.world'.db.results jobId).isSome = true := by
      intro there
      obtain ⟨result, stored⟩ := Option.isSome_iff_exists.mp there
      rw [permanent.keeps call stored]
      rfl
    rw [jobs] at found
    split at found
    · exact kept (permanent.completed jobId row found done)
    · rename_i write committed
      rw [Function.update_apply] at found
      split at found
      · rename_i own
        cases found
        obtain ⟨result, pending, owner⟩ := consistent.completing call committed done
        change (call.world'.db.results jobId).isSome = true
        rw [results, records_of_commits committed, pending, own, ← owner]
        simp only [Function.update_self, Option.isSome_some]
      · exact kept (permanent.completed jobId row found done)

theorem undisturbed {x' : Staged} {label : Label} (permanent : Permanent x)
    (consistent : Consistent env x) (move : Move env x label x')
    (noCall : ∀ t choice, label ≠ .act t choice) : Permanent x' := by
  have rests := move.rests noCall
  refine ⟨fun t th result found pending => ?_, fun jobId result stored => ?_,
    fun jobId result stored => ?_, fun jobId row found done => ?_⟩
  · rw [rests.results]
    obtain ⟨isFound, -⟩ | ⟨idle, -⟩ := consistent.threads move noCall found
    · exact permanent.pending t th result isFound pending
    · rw [idle.tx] at pending
      cases pending
  · rw [rests.results] at stored
    exact permanent.keyed jobId result stored
  · rw [rests.results] at stored
    rw [rests.jobs]
    exact permanent.owned jobId result stored
  · rw [rests.jobs] at found
    rw [rests.results]
    exact permanent.completed jobId row found done

theorem init : Permanent (System.init, fun _ => .resting) where
  pending _ _ _ found := by cases found
  keyed _ _ stored := by cases stored
  owned _ _ stored := by cases stored
  completed _ _ found := by cases found

end Permanent

theorem StagedRun.permanent {env : Env} {guard : Guard} {x : Staged} (h : StagedRun env guard x) :
    Permanent x := by
  refine h.invariant Permanent.init fun _ _ _ reached permanent stepped _ => ?_
  have consistent := StagedRun.consistent reached
  obtain ⟨t, choice, call, -, rfl⟩ | noCall := (move_of_step stepped).call_or
  · exact permanent.act consistent (StagedRun.locked reached) call
  · exact permanent.undisturbed consistent (move_of_step stepped) noCall

theorem results_step {env : Env} {guard : Guard} {x x' : Staged} {label : Label}
    (reached : StagedRun env guard x) (stepped : stagedStep env x label = some x') {jobId : Nat}
    {result : ExtractionResult} (stored : x.1.world.db.results jobId = some result) :
    x'.1.world.db.results jobId = some result := by
  obtain ⟨t, choice, call, -, rfl⟩ | noCall := (move_of_step stepped).call_or
  · exact (StagedRun.permanent reached).keeps call stored
  · rw [((move_of_step stepped).rests noCall).results]
    exact stored

/-- A result once committed is the result of its job in every state a run goes on
to, whatever is redelivered, retried or lost. -/
theorem results_write_once {env : Env} {s s' : System} (h : Reached env anyRun s)
    (later : Reach (System.step env) s anyRun s') {jobId : Nat} {result : ExtractionResult}
    (stored : s.world.db.results jobId = some result) :
    s'.world.db.results jobId = some result ∧ result.jobId = jobId ∧
      (s'.world.db.jobs jobId).isSome = true := by
  have onward : Reached env anyRun s' ∧ s'.world.db.results jobId = some result := by
    induction later with
    | start => exact ⟨h, stored⟩
    | step _ stepped free ih =>
      obtain ⟨reached, kept⟩ := ih
      obtain ⟨g, staged⟩ := reached.staged
      exact ⟨reached.step stepped free, results_step staged (stagedStep_of_step g stepped) kept⟩
  obtain ⟨g, staged⟩ := onward.1.staged
  have permanent := StagedRun.permanent staged
  exact ⟨onward.2, permanent.keyed jobId result onward.2, permanent.owned jobId result onward.2⟩

/-- The worker crashes after it has completed the job. -/
theorem results_write_once_completed : ∃ s s' result, Reached sampleEnv anyRun s ∧
    Reach (System.step sampleEnv) s anyRun s' ∧ s.world.db.results 2 = some result ∧
      s'.world.db.results 2 = some result ∧ result.jobId = 2 ∧
        (s'.world.db.jobs 2).isSome = true := by
  obtain ⟨s, reached, accepted⟩ := Reached.exists_run sampleEnv anyRun (fun _ _ _ => true)
    (fun s => (s.world.db.results 2).isSome) (fun _ _ _ _ => trivial) completedRun
    (by decide +kernel)
  obtain ⟨result, stored⟩ := Option.isSome_iff_exists.mp accepted
  have later : Reach (System.step sampleEnv) s anyRun (s.crash 1) :=
    .step .start (show System.step sampleEnv s (.crash 1) = some _ from rfl) trivial
  exact ⟨s, s.crash 1, result, reached, later, stored, results_write_once reached later stored⟩

/-- In every run a completed job has its result. -/
theorem completed_has_result {env : Env} {s : System} (h : Reached env anyRun s) {jobId : Nat}
    {row : ProcessingJob} (found : s.world.db.jobs jobId = some row)
    (completed : row.status = .completed) :
    ∃ result, s.world.db.results jobId = some result ∧ result.jobId = jobId := by
  obtain ⟨g, staged⟩ := h.staged
  have permanent := StagedRun.permanent staged
  obtain ⟨result, stored⟩ :=
    Option.isSome_iff_exists.mp (permanent.completed jobId row found completed)
  exact ⟨result, stored, permanent.keyed jobId result stored⟩

theorem completed_has_result_worked : ∃ s row, Reached sampleEnv anyRun s ∧
    s.world.db.jobs 2 = some row ∧ row.status = .completed ∧
      ∃ result, s.world.db.results 2 = some result ∧ result.jobId = 2 := by
  obtain ⟨s, reached, accepted⟩ := Reached.exists_run sampleEnv anyRun (fun _ _ _ => true)
    (fun s => (s.world.db.jobs 2).any (·.status = .completed)) (fun _ _ _ _ => trivial) completedRun
    (by decide +kernel)
  obtain ⟨row, found, done⟩ := (Option.any_eq_true _ _).mp accepted
  have completed := of_decide_eq_true done
  exact ⟨s, row, reached, found, completed, completed_has_result reached found completed⟩

end DocumentPipeline

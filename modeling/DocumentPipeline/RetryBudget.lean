import DocumentPipeline.Lifecycle
import DocumentPipeline.Windows

/-! The budget of a job in every run. An update flushes the columns it changed
against a version that another session may have replaced meanwhile, so the row
that results is the work of two sessions. `RowProperty` lists what a property of rows
has to survive, and `StagedRun.rows` carries it to every committed row and to
every version a thread still holds. -/

namespace DocumentPipeline
open EffectProgram Transition JobService

inductive Marked (row : ProcessingJob) : ProcessingJob → Prop
  | completed (now : Time) : Marked row (completedRow row now)
  | retrying (message : String) (left : row.retryCount < row.maxRetries) :
      Marked row (retryingRow row message)
  | failed (message : String) (now : Time) : Marked row (failedRow row message now)
  | requeued (now : Time) : Marked row (requeuedRow row now)

/-- A property that every write to a row keeps, whichever version a mark was
computed from. -/
structure RowProperty (env : Env) (P : ProcessingJob → Prop) : Prop where
  fresh : ∀ {documentId jobId : Nat} {row : ProcessingJob} (now : Time),
    FreshRow env documentId jobId row → P { row with queuedAt := now, createdAt := now }
  claimed : ∀ {row : ProcessingJob} (name : String) (now : Time), P row → P (row.claimed name now)
  flushed : ∀ {loaded current stored : ProcessingJob}, P loaded → P stored →
    Marked loaded current → P (loaded.flushed current stored)

theorem RowProperty.requeued {env : Env} {P : ProcessingJob → Prop} (kept : RowProperty env P)
    {row : ProcessingJob} (now : Time) (held : P row) : P (requeuedRow row now) := by
  have whole : row.flushed (requeuedRow row now) row = requeuedRow row now :=
    ProcessingJob.flushed_self rfl rfl rfl rfl
  rw [← whole]
  exact kept.flushed held held (.requeued now)

def RequestStage.row? : RequestStage → Option ProcessingJob
  | .refreshed row | .loaded row | .resetting row _ | .committed row | .announcing row _
  | .published row | .refused row | .refailing row _ => some row
  | _ => none

def Stage.row? : Stage → Option ProcessingJob
  | .attempt stage => stage.row?
  | .request stage => stage.row?
  | _ => none

theorem first_row (c : Control) : c.first.row? = none := by
  cases c <;> rfl

theorem RequestStage.next_row {env : Env} {ctx : Context} {w : World} {loc : Local}
    {choice : Choice} {request : Request} {stage : RequestStage} {o : Op} {reply : Reply o}
    {row : ProcessingJob} (sound : stage.Sound env request) (permitted : stage.permits env request o)
    (ran : o.execute env ctx w loc choice = some reply)
    (carried : (stage.next o reply.answer).row? = some row) :
    stage.row? = some row ∨ (∃ jobId, w.db.jobs jobId = some row) ∨
      ∃ held now, stage.row? = some held ∧ row = requeuedRow held now := by
  cases o with
  | runtime o =>
    cases stage <;> cases o <;> first | exact permitted.elim | skip
    all_goals rcases reply with ⟨_, _, _ | _⟩ <;> first | exact .inl carried | cases carried
  | redis o =>
    obtain ⟨held, eventId, event, rfl, rfl, -⟩ := RequestStage.permits_redis permitted
    rcases reply with ⟨_, _, _ | _⟩ <;> exact .inl carried
  | db o =>
    cases o with
    | selectJob id =>
      obtain ⟨rfl, -⟩ | ⟨held, rfl⟩ := RequestStage.permits_selectJob permitted
      · cases answer : reply.answer with
        | error error =>
          rw [answer] at carried
          cases carried
        | ok found =>
          rw [answer] at carried
          obtain _ | ⟨read, document⟩ := found <;> cases carried
          exact .inr (.inl ⟨id, (execute_selectJob ran answer).1⟩)
      · cases answer : reply.answer with
        | error error =>
          rw [answer] at carried
          cases carried
        | ok found =>
          rw [answer] at carried
          obtain _ | ⟨read, document⟩ := found <;> cases carried
          exact .inr (.inl ⟨id, (execute_selectJob ran answer).1⟩)
    | updateJob loaded current =>
      have flush := RequestStage.permits_updateJob permitted
      cases stage <;> first | exact flush.elim | skip
      all_goals rcases reply with ⟨_, _, _ | _⟩ <;> first | exact .inl carried | cases carried
    | commit =>
      obtain ⟨held, rfl⟩ | ⟨held, current, rfl⟩ | ⟨held, current, rfl⟩ :=
        RequestStage.permits_commit permitted
      · rcases reply with ⟨_, _, _ | _⟩ <;> cases carried
      · obtain ⟨-, -, now, rfl⟩ := sound
        rcases reply with ⟨_, _, _ | _⟩ <;> cases carried
        exact .inr (.inr ⟨held, now, rfl, rfl⟩)
      · rcases reply with ⟨_, _, _ | _⟩ <;> cases carried
    | selectDocument id =>
      obtain ⟨held, rfl⟩ := RequestStage.permits_selectDocument permitted
      rcases reply with ⟨_, _, _ | _ | _⟩ <;> first | exact .inl carried | cases carried
    | _ =>
      cases stage <;> first | exact permitted.elim | skip
      all_goals rcases reply with ⟨_, _, _ | _⟩ <;> first | exact .inl carried | cases carried

/-- What a commit makes of the row it replaces. -/
inductive Wrote (env : Env) (jobs : Nat → Option ProcessingJob) (stage : Stage) : Write → Prop
  | inserted {documentId jobId : Nat} {row : ProcessingJob} (now : Time)
      (fresh : FreshRow env documentId jobId row) :
      Wrote env jobs stage (.insert { row with queuedAt := now, createdAt := now })
  | claimed {base : ProcessingJob} (name : String) (now : Time)
      (stored : jobs base.id = some base) :
      Wrote env jobs stage (.claim base (base.claimed name now))
  | flushed {loaded current base : ProcessingJob} (carried : stage.row? = some loaded)
      (stored : jobs base.id = some base) (marked : Marked loaded current) :
      Wrote env jobs stage (.update loaded base (loaded.flushed current base))

theorem Consistent.wrote {env : Env} {x : Staged} (consistent : Consistent env x) (locked : Locked x)
    {t : Nat} {choice : Choice} (call : Call env x t choice) {write : Write}
    (committed : call.thread.loc.commits call.o choice = some write) :
    Wrote env x.1.world.db.jobs (x.2 t) write := by
  obtain ⟨isCommit, pending⟩ := commits_write committed
  have based := locked.based t call.thread write call.found pending
  obtain ⟨item, stage, is⟩ | ⟨request, stage, is⟩ | ⟨task, stage, is⟩ := consistent.kind call
  · have permitted := is.permitted
    have sound := is.facts.sound
    have writes := is.facts.write
    rw [isCommit] at permitted
    rw [pending] at writes
    rw [is.staged]
    obtain ⟨now, rfl⟩ | ⟨row, current, rfl⟩ | ⟨row, current, event, rfl⟩ :=
      AttemptStage.permits_commit permitted
    · cases write <;> first | exact writes.elim | skip
      obtain ⟨-, rfl, -⟩ := writes
      exact .claimed _ now based
    · cases write <;> first | exact writes.elim | skip
      obtain ⟨rfl, -, rfl⟩ := writes
      obtain ⟨-, -, now, rfl⟩ := sound
      exact .flushed rfl based (.completed now)
    · cases write <;> first | exact writes.elim | skip
      obtain ⟨rfl, -, rfl⟩ := writes
      cases event with
      | none =>
        obtain ⟨-, -, message, now, rfl⟩ := sound
        exact .flushed rfl based (.failed message now)
      | some event =>
        obtain ⟨-, -, left, ⟨message, rfl⟩, -⟩ := sound
        exact .flushed rfl based (.retrying message left)
  · have permitted := is.permitted
    have sound := is.facts.sound
    have writes := is.facts.write
    rw [isCommit] at permitted
    rw [pending] at writes
    rw [is.staged]
    obtain ⟨row, rfl⟩ | ⟨row, current, rfl⟩ | ⟨row, current, rfl⟩ :=
      RequestStage.permits_commit permitted
    · cases write <;> first | exact writes.elim | skip
      obtain ⟨now, rfl⟩ := writes
      exact .inserted now sound.1
    · cases write <;> first | exact writes.elim | skip
      obtain ⟨rfl, -, rfl⟩ := writes
      obtain ⟨-, -, now, rfl⟩ := sound
      exact .flushed rfl based (.requeued now)
    · cases write <;> first | exact writes.elim | skip
      obtain ⟨rfl, -, rfl⟩ := writes
      obtain ⟨-, -, message, now, rfl⟩ := sound
      exact .flushed rfl based (.failed message now)
  · rw [is.facts.tx] at pending
    cases pending

structure Rows (P : ProcessingJob → Prop) (x : Staged) : Prop where
  committed : ∀ jobId row, x.1.world.db.jobs jobId = some row → P row
  carried : ∀ t row, (x.2 t).row? = some row → P row

namespace Rows
variable {env : Env} {P : ProcessingJob → Prop} {x : Staged}

theorem wrote (rows : Rows P x) (kept : RowProperty env P) {t : Nat} {write : Write}
    (wrote : Wrote env x.1.world.db.jobs (x.2 t) write) : P write.row := by
  cases wrote with
  | inserted now fresh => exact kept.fresh now fresh
  | claimed name now stored => exact kept.claimed name now (rows.committed _ _ stored)
  | flushed carried stored marked =>
    exact kept.flushed (rows.carried t _ carried) (rows.committed _ _ stored) marked

theorem act {t : Nat} {choice : Choice} (rows : Rows P x) (kept : RowProperty env P)
    (consistent : Consistent env x) (locked : Locked x) (call : Call env x t choice) :
    Rows P call.result where
  committed jobId row found := by
    rw [show call.result.1.world.db.jobs = _ from execute_jobs call.ran] at found
    split at found
    · exact rows.committed jobId row found
    · rename_i write committed
      rw [Function.update_apply] at found
      split at found
      · cases found
        exact rows.wrote kept (consistent.wrote locked call committed)
      · exact rows.committed jobId row found
  carried t' row carried := by
    by_cases own : t' = t
    · subst own
      rw [call.own_stage] at carried
      obtain ⟨item, stage, is⟩ | ⟨request, stage, is⟩ | ⟨task, stage, is⟩ := consistent.kind call
      · have held : ∀ row, stage.row? = some row → P row := fun row isHeld =>
          rows.carried t' row (by rw [is.staged]; exact isHeld)
        obtain ⟨goes, -⟩ | ⟨-, goes⟩ := is.goes <;> rw [goes] at carried
        · obtain isHeld | stored := next_row is.permitted call.ran carried
          · exact held row isHeld
          · exact rows.committed _ row stored
        · rw [first_row] at carried
          cases carried
      · have held : ∀ row, stage.row? = some row → P row := fun row isHeld =>
          rows.carried t' row (by rw [is.staged]; exact isHeld)
        obtain ⟨goes, -⟩ | ⟨-, goes, -⟩ := is.goes <;> rw [goes] at carried
        · obtain isHeld | ⟨jobId, stored⟩ | ⟨reset, now, isHeld, rfl⟩ :=
            RequestStage.next_row is.facts.sound is.permitted call.ran carried
          · exact held row isHeld
          · exact rows.committed jobId row stored
          · exact kept.requeued now (held reset isHeld)
        · cases carried
      · obtain ⟨goes, -⟩ | goes := is.goes <;> rw [goes] at carried
        · cases carried
        · rw [first_row] at carried
          cases carried
    · rw [call.other_stage own] at carried
      exact rows.carried t' row carried

theorem undisturbed {x' : Staged} {label : Label} (rows : Rows P x) (move : Move env x label x')
    (noCall : ∀ t choice, label ≠ .act t choice) : Rows P x' where
  committed jobId row found := by
    rw [(move.rests noCall).jobs] at found
    exact rows.committed jobId row found
  carried t row carried := by
    obtain same | ⟨c, first⟩ := move.stage noCall t
    · rw [same] at carried
      exact rows.carried t row carried
    · rw [first, first_row] at carried
      cases carried

end Rows

theorem StagedRun.rows {env : Env} {guard : Guard} {x : Staged} {P : ProcessingJob → Prop}
    (kept : RowProperty env P) (h : StagedRun env guard x) : Rows P x := by
  refine h.invariant ⟨fun _ _ found => (by cases found), fun _ _ carried => (by cases carried)⟩
    fun _ _ _ reached rows stepped _ => ?_
  obtain ⟨t, choice, call, -, rfl⟩ | noCall := (move_of_step stepped).call_or
  · exact rows.act kept (StagedRun.consistent reached) (StagedRun.locked reached) call
  · exact rows.undisturbed (move_of_step stepped) noCall

structure WithinBudget (env : Env) (row : ProcessingJob) : Prop where
  maxRetries : row.maxRetries = env.settings.maxRetries
  nonneg : 0 ≤ row.retryCount
  spent : row.retryCount = 0 ∨ row.retryCount ≤ row.maxRetries

theorem WithinBudget.kept (env : Env) : RowProperty env (WithinBudget env) where
  fresh now fresh := ⟨fresh.maxRetries, fresh.retryCount.ge, .inl fresh.retryCount⟩
  claimed name now within := ⟨within.maxRetries, within.nonneg, within.spent⟩
  flushed {loaded current stored} within within' marked := by
    have budget : loaded.maxRetries = stored.maxRetries :=
      within.maxRetries.trans within'.maxRetries.symm
    have counted : (loaded.flushed current stored).retryCount = stored.retryCount ∨
        (loaded.flushed current stored).retryCount = current.retryCount := by
      unfold ProcessingJob.flushed
      dsimp only
      split
      · exact .inl rfl
      · exact .inr rfl
    refine ⟨within'.maxRetries, ?_, ?_⟩
    · obtain same | same := counted <;> rw [same]
      · exact within'.nonneg
      · have nonneg := within.nonneg
        cases marked with
        | retrying message left => exact Int.le_add_one nonneg
        | requeued now => exact le_rfl
        | _ => exact nonneg
    · change _ ∨ _ ≤ stored.maxRetries
      obtain same | same := counted <;> rw [same]
      · exact within'.spent
      · rw [← budget]
        have spent := within.spent
        cases marked with
        | retrying message left => exact .inr left
        | requeued now => exact .inl rfl
        | _ => exact spent

/-- What stays of a row as long as the job exists. -/
structure ProcessingJob.SameJob (row row' : ProcessingJob) : Prop where
  id : row'.id = row.id
  documentId : row'.documentId = row.documentId
  maxRetries : row'.maxRetries = row.maxRetries
  createdAt : row'.createdAt = row.createdAt

theorem ProcessingJob.SameJob.trans {row row' row'' : ProcessingJob} (h : row.SameJob row')
    (h' : row'.SameJob row'') : row.SameJob row'' :=
  ⟨h'.id.trans h.id, h'.documentId.trans h.documentId, h'.maxRetries.trans h.maxRetries,
    h'.createdAt.trans h.createdAt⟩

theorem sameJob_step {env : Env} {guard : Guard} {x x' : Staged} {label : Label}
    (reached : StagedRun env guard x) (stepped : stagedStep env x label = some x') {jobId : Nat}
    {row : ProcessingJob} (found : x.1.world.db.jobs jobId = some row) :
    ∃ row', x'.1.world.db.jobs jobId = some row' ∧ row.SameJob row' := by
  have consistent := StagedRun.consistent reached
  have locked := StagedRun.locked reached
  obtain ⟨t, choice, call, -, rfl⟩ | noCall := (move_of_step stepped).call_or
  · rw [show call.result.1.world.db.jobs = _ from execute_jobs call.ran]
    split
    · exact ⟨row, found, rfl, rfl, rfl, rfl⟩
    · rename_i write committed
      by_cases own : jobId = write.row.id
      · subst own
        refine ⟨write.row, Function.update_self .., ?_⟩
        cases consistent.wrote locked call committed with
        | inserted now fresh =>
          have absent := locked.based t _ _ call.found (commits_write committed).2
          cases absent.symm.trans found
        | claimed name now stored =>
          cases stored.symm.trans found
          exact ⟨rfl, rfl, rfl, rfl⟩
        | flushed carried stored marked =>
          cases stored.symm.trans found
          exact ⟨rfl, rfl, rfl, rfl⟩
      · exact ⟨row, by rw [Function.update_of_ne own, found], rfl, rfl, rfl, rfl⟩
  · exact ⟨row, by rw [((move_of_step stepped).rests noCall).jobs, found], rfl, rfl, rfl, rfl⟩

/-- A job is never deleted and keeps its document, its budget and its creation
time; its retry count stays between zero and the budget, whichever sessions
write it and however late they do. -/
theorem retries_within_budget {env : Env} {s s' : System} (h : Reached env anyRun s)
    (later : Reach (System.step env) s anyRun s') {jobId : Nat} {row : ProcessingJob}
    (found : s.world.db.jobs jobId = some row) :
    ∃ row', s'.world.db.jobs jobId = some row' ∧ row.SameJob row' ∧ 0 ≤ row'.retryCount ∧
      row'.retryCount ≤ max 0 row'.maxRetries := by
  have onward : Reached env anyRun s' ∧
      ∃ row', s'.world.db.jobs jobId = some row' ∧ row.SameJob row' := by
    induction later with
    | start => exact ⟨h, row, found, rfl, rfl, rfl, rfl⟩
    | step _ stepped free ih =>
      obtain ⟨reached, before, isBefore, same⟩ := ih
      obtain ⟨g, staged⟩ := reached.staged
      obtain ⟨after, isAfter, kept⟩ := sameJob_step staged (stagedStep_of_step g stepped) isBefore
      exact ⟨reached.step stepped free, after, isAfter, same.trans kept⟩
  obtain ⟨reached, row', isRow, same⟩ := onward
  obtain ⟨g, staged⟩ := reached.staged
  obtain ⟨-, nonneg, spent⟩ :=
    (StagedRun.rows (WithinBudget.kept env) staged).committed jobId row' isRow
  refine ⟨row', isRow, same, nonneg, ?_⟩
  obtain none | within := spent
  · exact none.le.trans (le_max_left _ _)
  · exact within.trans (le_max_right _ _)

/-- An attempt times out after the job was uploaded. -/
theorem retries_within_budget_timedOut : ∃ s s' row, Reached sampleEnv anyRun s ∧
    Reach (System.step sampleEnv) s anyRun s' ∧ s.world.db.jobs 2 = some row ∧
      row.retryCount = 1 ∧ ∃ row', s'.world.db.jobs 2 = some row' ∧ row.SameJob row' ∧
        0 ≤ row'.retryCount ∧ row'.retryCount ≤ max 0 row'.maxRetries := by
  obtain ⟨s, reached, accepted⟩ := Reached.exists_run sampleEnv anyRun (fun _ _ _ => true)
    (fun s => (s.world.db.jobs 2).any (·.retryCount = 1)) (fun _ _ _ _ => trivial)
    ([.receive 0 sampleUpload] ++ Label.oks 0 14 ++ [.startWorker 1 "w"] ++ Label.timedOut 1)
    (by decide +kernel)
  obtain ⟨row, found, counted⟩ := (Option.any_eq_true _ _).mp accepted
  have later : Reach (System.step sampleEnv) s anyRun (s.crash 1) :=
    .step .start (show System.step sampleEnv s (.crash 1) = some _ from rfl) trivial
  exact ⟨s, s.crash 1, row, reached, later, found, of_decide_eq_true counted,
    retries_within_budget reached later found⟩

end DocumentPipeline

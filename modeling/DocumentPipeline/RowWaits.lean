import DocumentPipeline.Locks

/-! Waiting for row locks. A session has one write pending at most, and once it
has one it issues no statement that needs a lock: it inserts a result, commits
or closes. So no session waits for one that waits, and every wait ends when the
holder has gone on by two calls, whatever these are answered. -/

namespace DocumentPipeline
open EffectProgram

def DbOp.locks? : DbOp → Option Nat
  | .executeClaim jobId _ _ _ => some jobId
  | .updateJob loaded _ => some loaded.id
  | .insertJob job => some job.id
  | _ => none

namespace Database
variable {db : Database} {now : Time} {t : Nat} {tx : Transaction} {o : DbOp}

theorem run_waits (waits : db.run now t tx o = none) :
    ∃ jobId, o.locks? = some jobId ∧ db.free t jobId = false := by
  cases o with
  | executeClaim jobId consumer started cut =>
    simp only [run] at waits
    split at waits
    · cases waits
    · split at waits
      · split at waits
        · cases waits
        · rename_i taken
          exact ⟨jobId, rfl, by simpa using taken⟩
      · cases waits
  | updateJob loaded current =>
    simp only [run] at waits
    split at waits
    · cases waits
    · split at waits
      · cases waits
      · rename_i taken
        exact ⟨loaded.id, rfl, by simpa using taken⟩
  | insertJob job =>
    simp only [run] at waits
    split at waits
    · cases waits
    · split at waits
      · cases waits
      · rename_i taken
        exact ⟨job.id, rfl, by simpa using taken⟩
  | insertResult result =>
    simp only [run] at waits
    split at waits <;> cases waits
  | _ => cases waits

theorem holder_of_taken {jobId : Nat} (taken : db.free t jobId = false) :
    ∃ t', db.lock jobId = some t' ∧ t' ≠ t := by
  unfold free at taken
  split at taken
  · cases taken
  · rename_i holder held
    exact ⟨holder, held, of_decide_eq_false taken⟩

end Database

section Answers
variable {env : Env} {s : System} {t : Nat} {th : Thread} {o : Op}
  {next : Except Exn o.Val → Control} {choice : Choice}

theorem System.step_act (found : s.threads[t]? = some th)
    (waits : th.control.next? = some ⟨o, next⟩) :
    (System.step env s (.act t choice)).isSome =
      (o.execute env (System.context t th) s.world th.loc choice).isSome := by
  simp only [System.step, found, System.act, waits, Option.isSome_map]

theorem System.call?_found (calls : s.call? t = some (th, o)) :
    s.threads[t]? = some th ∧ ∃ next, th.control.next? = some ⟨o, next⟩ := by
  unfold System.call? at calls
  obtain ⟨thread, found, calls⟩ := Option.bind_eq_some_iff.mp calls
  obtain ⟨⟨issued, next⟩, waits, same⟩ := Option.map_eq_some_iff.mp calls
  cases same
  exact ⟨found, next, waits⟩

theorem System.act_runs {o : DbOp} (calls : s.call? t = some (th, .db o))
    (free : ∀ jobId, o.locks? = some jobId → s.world.db.free t jobId = true) :
    (System.step env s (.act t .ok)).isSome = true := by
  obtain ⟨found, next, waits⟩ := System.call?_found calls
  rw [System.step_act found waits]
  simp only [Op.execute, Option.isSome_map]
  by_contra stuck
  obtain ⟨jobId, locks, taken⟩ := Database.run_waits (Option.not_isSome_iff_eq_none.mp stuck)
  have free := free jobId locks
  rw [show (System.context t th).thread = t from rfl, free] at taken
  cases taken

end Answers

/-- The calls of a session whose transaction has a write pending. -/
inductive Ending (stage : Stage) : Op → Prop
  | commit : Ending stage (.db .commit)
  | close : Ending stage (.db .closeSession)
  | result {row current : ProcessingJob} (result : ExtractionResult)
      (completing : stage = .attempt (.completing row current)) :
      Ending stage (.db (.insertResult result))

theorem AttemptStage.permits_ending {env : Env} {name : String} {item : DeliveredEvent}
    {stage : AttemptStage} {write : Write} (writes : stage.Writes env name item (some write))
    {o : Op} (permitted : stage.permits env name item o) : Ending (.attempt stage) o := by
  cases write <;> cases stage <;> first | exact writes.elim | skip
  all_goals cases o <;> first | exact permitted.elim | skip
  all_goals rename_i o; cases o <;> first
    | exact .commit
    | exact .close
    | exact .result _ rfl
    | exact permitted.elim

theorem RequestStage.permits_ending {env : Env} {request : Request} {stage : RequestStage}
    {write : Write} (writes : stage.Writes (some write)) {o : Op}
    (permitted : stage.permits env request o) : Ending (.request stage) o := by
  cases write <;> cases stage <;> first | exact writes.elim | skip
  all_goals cases o <;> first | exact permitted.elim | skip
  all_goals rename_i o; cases o <;> first
    | exact .commit
    | exact .close
    | exact permitted.elim
    | cases permitted

/-- A thread with a write pending is inside its program, and about to end the
transaction or to insert a result. -/
theorem Consistent.ending {env : Env} {x : Staged} (consistent : Consistent env x) {t : Nat}
    {th : Thread} {write : Write} (found : x.1.threads[t]? = some th)
    (pending : th.loc.tx.write = some write) :
    ∃ o next, th.control.next? = some ⟨o, next⟩ ∧ Ending (x.2 t) o := by
  have facts := consistent.locals t th found
  have conforms := consistent.conforms t th found
  revert facts conforms
  cases th.control <;> cases x.2 t <;> intro facts conforms <;> first
    | exact conforms.elim
    | (rw [IdleLocal.tx facts] at pending
       cases pending)
    | skip
  · rename_i loop item rest p stage
    have writes := AttemptLocal.write facts
    rw [pending] at writes
    have conforms : follows env th.name item p (fun _ stage => stage.finished = true) stage := conforms
    cases p with
    | call o next => exact ⟨o, _, rfl, AttemptStage.permits_ending writes conforms.1⟩
    | ret outcome =>
      have idle := AttemptLocal.finish facts conforms
      rw [idle.tx] at pending
      cases pending
    | raise error =>
      have idle := AttemptLocal.finish facts conforms
      rw [idle.tx] at pending
      cases pending
  · rename_i request p stage
    have writes := RequestLocal.write facts
    rw [pending] at writes
    cases p with
    | call o next =>
      have conforms : serves env request (.call o next) (served request) stage := conforms
      exact ⟨o, _, rfl, RequestStage.permits_ending writes conforms.1⟩
    | ret response =>
      obtain ⟨row, rfl⟩ := conforms
      have idle := RequestLocal.finish facts rfl
      rw [idle.tx] at pending
      cases pending
    | raise error =>
      obtain ⟨why, rfl, -⟩ := conforms
      have idle := RequestLocal.finish facts rfl
      rw [idle.tx] at pending
      cases pending

theorem execute_ends {env : Env} {ctx : Context} {w : World} {loc : Local} {choice : Choice} {o : Op}
    {reply : Reply o} (ran : o.execute env ctx w loc choice = some reply)
    (ends : o = .db .commit ∨ o = .db .closeSession) : reply.loc.tx.write = none := by
  obtain rfl | rfl := ends
  · obtain ⟨-, rfl⟩ | ⟨error, -, -, rfl⟩ | ⟨error, -, -, rfl⟩ := execute_commit ran <;> rfl
  · obtain ⟨-, done, did, rfl⟩ | ⟨error, -, fallible, -, rfl⟩ :=
      execute_db ran fun same => (by cases same)
    · cases did
      rfl
    · cases fallible

/-- Thread `t` lets go of the row after `n` of its own calls at the latest: it can
issue them at once, and it does not matter what they are answered. -/
def LetsGo (env : Env) (t jobId : Nat) : Nat → System → Prop
  | 0, s => s.world.db.lock jobId ≠ some t
  | n + 1, s => s.world.db.lock jobId ≠ some t ∨
      (System.step env s (.act t .ok)).isSome = true ∧
        ∀ choice s', System.step env s (.act t choice) = some s' → LetsGo env t jobId n s'

section Holders
variable {env : Env} {x : Staged} {t jobId : Nat}

theorem holder_runs (consistent : Consistent env x) (locked : Locked x)
    (held : x.1.world.db.lock jobId = some t) :
    (System.step env x.1 (.act t .ok)).isSome = true ∧ ∀ choice (call : Call env x t choice),
      Ending (x.2 t) call.o := by
  obtain ⟨th, found⟩ := Option.isSome_iff_exists.mp (locked.born jobId t held)
  obtain ⟨write, pending, -⟩ := (locked.agree t th found jobId).mp held
  obtain ⟨o, next, waits, ending⟩ := consistent.ending found pending
  refine ⟨?_, fun choice call => ?_⟩
  · obtain ⟨o, rfl⟩ : ∃ dbOp, o = .db dbOp := by cases ending <;> exact ⟨_, rfl⟩
    have calls : x.1.call? t = some (th, .db o) := by
      simp only [System.call?, found, Option.bind_some, waits, Option.map_some]
    refine System.act_runs calls fun jobId locks => ?_
    cases ending <;> cases locks
  · have same := call.found
    rw [found] at same
    cases same
    have issued := call.waits
    rw [waits] at issued
    cases issued
    exact ending

/-- After a commit or a close the thread holds no row; after the insert of a
result it is past the stage that inserts one. -/
theorem holder_call (consistent : Consistent env x) {choice : Choice}
    (call : Call env x t choice) (ending : Ending (x.2 t) call.o) (locked' : Locked call.result)
    (held : call.result.1.world.db.lock jobId = some t) :
    (∃ row current, x.2 t = .attempt (.completing row current)) ∧
      ∀ row current, call.result.2 t ≠ .attempt (.completing row current) := by
  obtain ⟨write, pending, -⟩ := (locked'.agree t call.thread' call.own_result jobId).mp held
  have pending : call.reply.loc.tx.write = some write := pending
  have last : call.o ≠ .db .commit ∧ call.o ≠ .db .closeSession := by
    constructor <;> intro same
    · rw [execute_ends call.ran (.inl same)] at pending
      cases pending
    · rw [execute_ends call.ran (.inr same)] at pending
      cases pending
  have inserts : ∃ result row current, call.o = .db (.insertResult result) ∧
      x.2 t = .attempt (.completing row current) := by
    generalize call.o = o at ending last
    cases ending with
    | commit => exact absurd rfl last.1
    | close => exact absurd rfl last.2
    | result result completing => exact ⟨result, _, _, rfl, completing⟩
  obtain ⟨result, row, current, inserts, completing⟩ := inserts
  refine ⟨⟨row, current, completing⟩, fun row' current' again => ?_⟩
  rw [call.own_stage] at again
  obtain ⟨item, stage, is⟩ | ⟨request, stage, is⟩ | ⟨task, stage, is⟩ := consistent.kind call
  · obtain ⟨goes, -⟩ | ⟨idle, goes⟩ := is.goes
    · rw [goes] at again
      have staged := is.staged
      rw [completing] at staged
      cases staged
      have onward : ∀ {o : Op} (answer : Except Exn o.Val), o = .db (.insertResult result) →
          (AttemptStage.completing row current).next item o answer ≠ .completing row' current' := by
        rintro o answer rfl
        cases answer <;> exact fun same => (by cases same)
      exact onward _ inserts (Stage.attempt.inj again)
    · rw [idle.tx] at pending
      cases pending
  · have staged := is.staged
    rw [completing] at staged
    cases staged
  · have staged := is.staged
    rw [completing] at staged
    cases staged

end Holders

/-- Whoever holds a row lets go of it after two calls at most. -/
theorem letsGo {env : Env} {s : System} (h : Reached env anyRun s) (t jobId : Nat) :
    LetsGo env t jobId 2 s := by
  obtain ⟨g, staged⟩ := h.staged
  have consistent := StagedRun.consistent staged
  have locked := StagedRun.locked staged
  by_cases held : s.world.db.lock jobId = some t
  · obtain ⟨runs, ending⟩ := holder_runs consistent locked held
    refine .inr ⟨runs, fun choice s' stepped => ?_⟩
    have stepped' := stagedStep_of_step g stepped
    have staged' := staged.step stepped' trivial
    obtain ⟨call, result⟩ := (move_of_step stepped').call
    generalize noteStages env g s (.act t choice) = g' at stepped' staged' result
    have consistent' := StagedRun.consistent staged'
    have locked' := StagedRun.locked staged'
    by_cases held' : s'.world.db.lock jobId = some t
    · have past : ∀ row current, g' t ≠ .attempt (.completing row current) := by
        have held' : (s', g').1.world.db.lock jobId = some t := held'
        have past := @holder_call _ _ _ jobId consistent _ call (ending choice call)
        rw [← result] at past
        exact (past locked' held').2
      obtain ⟨runs', ending'⟩ := holder_runs consistent' locked' held'
      refine .inr ⟨runs', fun choice' s'' stepped'' => ?_⟩
      intro held''
      have again := stagedStep_of_step g' stepped''
      obtain ⟨call', result'⟩ := (move_of_step again).call
      have locked'' := StagedRun.locked (staged'.step again trivial)
      rw [result'] at locked''
      have world : s''.world = call'.world' := congrArg (fun x : Staged => x.1.world) result'
      obtain ⟨⟨row, current, completing⟩, -⟩ :=
        holder_call consistent' call' (ending' choice' call') locked'' (world ▸ held'')
      exact past row current completing
    · exact .inl held'
  · exact .inl held

/-- A thread whose statement has to wait waits for the lock of one row, held by
another thread that can go on and lets go of the row after two calls at most;
and where that lock is free the statement runs. -/
theorem row_waits_end {env : Env} {s : System} (h : Reached env anyRun s) {t : Nat} {th : Thread}
    {o : DbOp} (calls : s.call? t = some (th, .db o))
    (waits : System.step env s (.act t .ok) = none) :
    ∃ jobId t', o.locks? = some jobId ∧ t' ≠ t ∧ s.world.db.lock jobId = some t' ∧
      LetsGo env t' jobId 2 s ∧ ∀ s' : System, s'.call? t = some (th, .db o) →
        s'.world.db.free t jobId = true → (System.step env s' (.act t .ok)).isSome = true := by
  obtain ⟨found, next, issued⟩ := System.call?_found calls
  have stuck : s.world.db.run s.world.now t th.loc.tx o = none := by
    have same := @System.step_act env s t th _ next .ok found issued
    rw [waits] at same
    simp only [Op.execute, Option.isSome_map] at same
    exact Option.isSome_eq_false_iff.mp same.symm |> Option.isNone_iff_eq_none.mp
  obtain ⟨jobId, locks, taken⟩ := Database.run_waits stuck
  obtain ⟨t', held, other⟩ := Database.holder_of_taken taken
  refine ⟨jobId, t', locks, other, held, letsGo h t' jobId, fun s' calls' free => ?_⟩
  refine System.act_runs calls' fun other locks' => ?_
  cases locks.symm.trans locks'
  exact free

def Op.isStatement : Op → Bool
  | .db _ => true
  | _ => false

/-- A recovery sweep takes over an entry whose first attempt has not committed
its claim. -/
theorem row_waits_end_reclaimed : ∃ s th o, Reached sampleEnv anyRun s ∧
    s.call? 2 = some (th, .db o) ∧ System.step sampleEnv s (.act 2 .ok) = none ∧
      ∃ jobId t', o.locks? = some jobId ∧ t' ≠ 2 ∧ s.world.db.lock jobId = some t' ∧
        LetsGo sampleEnv t' jobId 2 s ∧ ∀ s' : System, s'.call? 2 = some (th, .db o) →
          s'.world.db.free 2 jobId = true →
            (System.step sampleEnv s' (.act 2 .ok)).isSome = true := by
  obtain ⟨s, reached, accepted⟩ := Reached.exists_run sampleEnv anyRun (fun _ _ _ => true)
    (fun s => (s.call? 2).any (fun call => call.2.isStatement) &&
      (System.step sampleEnv s (.act 2 .ok)).isNone)
    (fun _ _ _ _ => trivial)
    ([.receive 0 sampleUpload] ++ Label.oks 0 14 ++ [.startWorker 1 "w", .iterate 1] ++
      Label.oks 1 4 ++ [.tick 60000000, .iterate 2] ++ Label.oks 2 4)
    (by decide +kernel)
  simp only [Bool.and_eq_true, Option.any_eq_true, Option.isNone_iff_eq_none] at accepted
  obtain ⟨⟨⟨th, o⟩, calls, isDb⟩, waits⟩ := accepted
  cases o with
  | db o => exact ⟨s, th, o, reached, calls, waits, row_waits_end reached calls waits⟩
  | _ => cases isDb

end DocumentPipeline

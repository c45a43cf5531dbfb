import Mathlib.Tactic.Linarith
import DocumentPipeline.Lifecycle
import DocumentPipeline.Windows

/-! Ownership of a row among workers. While clocks agree and every attempt ends
before its claim turns stale, at most one attempt has a window on a job, and
nothing else changes the row in it. `Owned.step` needs one thing of the API: a
row it writes is queued or failed, so no attempt is inside its window. -/

namespace DocumentPipeline
open EffectProgram Transition JobService

def ClocksAgree (env : Env) : Prop := ∀ proc proc', env.skew proc = env.skew proc'

/-- Every open window is younger than `stale_after_seconds` on its own clock. -/
def Timely (env : Env) (s : System) : Prop :=
  ∀ (t : Nat) (th : Thread) (win : Window), s.threads[t]? = some th →
    th.loc.window = some win → s.world.clock env th.proc <
      win.startedAt + seconds env.settings.staleProcessingSeconds

/-- The row is as the claim that opened the window left it. -/
structure Window.Owns (win : Window) (row : ProcessingJob) : Prop where
  status : row.status = .processing
  startedAt : row.startedAt = some win.startedAt
  consumerName : row.consumerName = some win.consumerName

def Write.offWindow : Write → Bool
  | .update _ base _ => base.status = .queued || base.status = .failed
  | _ => true

def apiOffWindow (s : System) : Label → Bool
  | .act t choice => match s.call? t with
    | none => true
    | some (th, _) => match th.control with
      | .serving _ _ => (s.commits (.act t choice)).all Write.offWindow
      | _ => true
  | _ => true

structure Owned (env : Env) (x : Staged) : Prop where
  agree : ClocksAgree env
  times : ∀ (t : Nat) (th : Thread) (stage : AttemptStage) (now : Time),
    x.1.threads[t]? = some th → x.2 t = .attempt stage → stage.clock? = some now →
      now ≤ x.1.world.clock env th.proc
  timely : Timely env x.1
  rows : ∀ (t : Nat) (th : Thread) (win : Window), x.1.threads[t]? = some th →
    th.loc.window = some win → ∃ row, x.1.world.db.jobs win.jobId = some row ∧ win.Owns row ∧
      ∀ stage held, x.2 t = .attempt stage → stage.row? = some held → held = row
  unique : ∀ (t t' : Nat) (th th' : Thread) (win win' : Window), x.1.threads[t]? = some th →
    x.1.threads[t']? = some th' → th.loc.window = some win → th'.loc.window = some win' →
      win.jobId = win'.jobId → t = t'
  spent : ∀ (t : Nat) (th : Thread) (item : DeliveredEvent) (stage : AttemptStage),
    x.1.threads[t]? = some th → th.control.item? = some item → x.2 t = .attempt stage →
      th.loc.window = none → stage.Spent x.1.world.db.jobs item.event.jobId

namespace Owned
variable {env : Env} {x : Staged} {t : Nat} {choice : Choice}

/-- A claim is made outside every window: the row of a window is processing and
not yet stale. -/
theorem claims (owned : Owned env x) (consistent : Consistent env x) (locked : Locked x)
    (call : Call env x t choice) {base row : ProcessingJob}
    (pending : call.thread.loc.tx.write = some (.claim base row)) {t' : Nat} {th' : Thread}
    {win : Window} (found : x.1.threads[t']? = some th') (opened : th'.loc.window = some win) :
    win.jobId ≠ row.id := by
  intro same
  obtain ⟨item, now, is⟩ := consistent.claiming call pending
  have stored := locked.based t call.thread _ call.found pending
  have writes := is.facts.write
  rw [pending] at writes
  obtain ⟨-, rfl, matched⟩ := writes
  have claimed := owned.times t call.thread _ now call.found is.staged rfl
  obtain ⟨held, isHeld, owns, -⟩ := owned.rows t' th' win found opened
  rw [same] at isHeld
  cases isHeld.symm.trans stored
  have young := owned.timely t' th' win found opened
  simp only [claimMatches, owns.status, owns.startedAt, claimableStatuses, List.mem_cons,
    reduceCtorEq, List.not_mem_nil, or_self, decide_false, Bool.false_or, decide_true,
    Bool.true_and, decide_eq_true_eq] at matched
  simp only [World.clock, owned.agree th'.proc call.thread.proc] at young claimed
  linarith

theorem own_window (owned : Owned env x) (call : Call env x t choice) {item : DeliveredEvent}
    {stage : AttemptStage} (is : AttemptCall call item stage) {loaded base written : ProcessingJob}
    (pending : call.thread.loc.tx.write = some (.update loaded base written)) :
    ∃ win, call.thread.loc.window = some win ∧ win.jobId = written.id := by
  obtain ⟨loop, rest, p, p', control, -⟩ := is.control
  have writes := is.facts.write
  have sound := is.facts.sound
  have windows := is.facts.window
  have staged := is.staged
  rw [pending] at writes
  cases stage <;> first | exact writes.elim | skip
  · obtain ⟨rfl, same, rfl⟩ := writes
    obtain ⟨startedAt, opened⟩ := windows
    exact ⟨_, opened, sound.1.symm.trans same.symm⟩
  · obtain ⟨rfl, same, rfl⟩ := writes
    obtain ⟨startedAt, opened⟩ := windows
    exact ⟨_, opened, sound.1.symm.trans same.symm⟩
  · obtain ⟨rfl, same, rfl⟩ := writes
    rename_i current event
    have owner : loaded.id = item.event.jobId := by cases event <;> exact sound.1
    cases opened : call.thread.loc.window with
    | none => exact (owned.spent t _ item _ call.found (by rw [control]; rfl) staged opened).elim
    | some win =>
      exact ⟨win, rfl, (windows win opened).trans (owner.symm.trans same.symm)⟩

/-- A commit never replaces a completed row, nor one in another's window. -/
theorem commit_free (owned : Owned env x) (consistent : Consistent env x) (locked : Locked x)
    (call : Call env x t choice) (api : apiOffWindow x.1 (.act t choice) = true) {write : Write}
    (committed : call.thread.loc.commits call.o choice = some write) :
    (∀ row, x.1.world.db.jobs write.row.id = some row → row.status ≠ .completed) ∧
    ∀ (t' : Nat) (th' : Thread) (win : Window), t' ≠ t → x.1.threads[t']? = some th' →
      th'.loc.window = some win → win.jobId ≠ write.row.id := by
  obtain ⟨isCommit, pending⟩ := commits_write committed
  have based := locked.based t call.thread write call.found pending
  cases write with
  | insert created =>
    have absent : x.1.world.db.jobs created.id = none := based
    refine ⟨fun row found => ?_, fun t' th' win other found opened same => ?_⟩
    · cases absent.symm.trans found
    · obtain ⟨row, isRow, -⟩ := owned.rows t' th' win found opened
      rw [same] at isRow
      cases absent.symm.trans isRow
  | claim base claimed =>
    have stored : x.1.world.db.jobs claimed.id = some base := based
    refine ⟨fun row found => ?_, fun t' th' win other found opened =>
      owned.claims consistent locked call pending found opened⟩
    cases stored.symm.trans found
    obtain ⟨-, claimable | again⟩ := consistent.lawful call.found pending
    · intro completed
      rw [completed] at claimable
      revert claimable
      decide
    · rw [again]
      nofun
  | update loaded base written =>
    have stored : x.1.world.db.jobs written.id = some base := based
    obtain ⟨item, stage, is⟩ | ⟨request, stage, is⟩ | ⟨task, stage, is⟩ := consistent.kind call
    · obtain ⟨win, opened, owner⟩ := owned.own_window call is pending
      obtain ⟨row, isRow, owns, -⟩ := owned.rows t _ win call.found opened
      rw [owner] at isRow
      refine ⟨fun other found => ?_, fun t' th' win' different found opened' same =>
        different (owned.unique t' t _ _ win' win found call.found opened' opened
          (same.trans owner.symm))⟩
      cases (show x.1.world.db.jobs written.id = _ from isRow).symm.trans found
      rw [owns.status]
      nofun
    · obtain ⟨p, p', control, -⟩ := is.control
      simp only [apiOffWindow, call.call?_eq, control, call.commits_eq, committed,
        Option.all_some, Write.offWindow, Bool.or_eq_true, decide_eq_true_eq] at api
      refine ⟨fun row found => ?_, fun t' th' win other found opened same => ?_⟩
      · cases stored.symm.trans found
        obtain status | status := api <;> rw [status] <;> nofun
      · obtain ⟨row, isRow, owns, -⟩ := owned.rows t' th' win found opened
        rw [same] at isRow
        cases stored.symm.trans isRow
        have processing := owns.status
        obtain status | status := api <;> cases status.symm.trans processing
    · rw [is.facts.tx] at pending
      cases pending

theorem jobs_kept (call : Call env x t choice) {jobId : Nat} {row : ProcessingJob}
    (found : x.1.world.db.jobs jobId = some row)
    (apart : ∀ write, call.thread.loc.commits call.o choice = some write →
      jobId ≠ write.row.id) : call.world'.db.jobs jobId = some row := by
  simp only [Call.world', World.note_db, execute_jobs call.ran]
  split
  · exact found
  · rename_i write committed
    rw [Function.update_of_ne (apart write committed), found]

theorem jobs_other (owned : Owned env x) (consistent : Consistent env x) (locked : Locked x)
    (call : Call env x t choice) (api : apiOffWindow x.1 (.act t choice) = true) {t' : Nat}
    {th' : Thread} {win : Window} {row : ProcessingJob} (other : t' ≠ t)
    (found : x.1.threads[t']? = some th') (opened : th'.loc.window = some win)
    (isRow : x.1.world.db.jobs win.jobId = some row) :
    call.world'.db.jobs win.jobId = some row :=
  jobs_kept call isRow fun _ committed =>
    (owned.commit_free consistent locked call api committed).2 t' th' win other found opened

theorem jobs_completed (owned : Owned env x) (consistent : Consistent env x) (locked : Locked x)
    (call : Call env x t choice) (api : apiOffWindow x.1 (.act t choice) = true) {jobId : Nat}
    {row : ProcessingJob} (found : x.1.world.db.jobs jobId = some row)
    (completed : row.status = .completed) : call.world'.db.jobs jobId = some row :=
  jobs_kept call found fun _ committed same =>
    (owned.commit_free consistent locked call api committed).1 row (by rw [← same, found])
      completed

theorem window_from (consistent : Consistent env x) (call : Call env x t choice) {win : Window}
    (opened : call.reply.loc.window = some win) :
    (call.thread.loc.commits call.o choice = none ∧ call.thread.loc.window = some win) ∨
    ∃ base row, call.thread.loc.commits call.o choice = some (.claim base row) ∧
      win.jobId = row.id ∧ win.Owns row := by
  cases committed : call.thread.loc.commits call.o choice with
  | none =>
    obtain same | ⟨-, closed⟩ := execute_window call.ran committed
    · exact .inl ⟨rfl, same.symm.trans opened⟩
    · cases closed.symm.trans opened
  | some write =>
    have pending := (commits_write committed).2
    obtain ⟨row, rfl, before⟩ | ⟨base, row, rfl, owner, startedAt, consumer⟩ :=
      execute_opens call.ran committed opened
    · obtain ⟨item, stage, is⟩ | ⟨request, stage, is⟩ | ⟨task, stage, is⟩ := consistent.kind call
      · have writes := is.facts.write
        rw [pending] at writes
        exact writes.elim
      · rw [is.facts.window] at before
        cases before
      · rw [is.facts.window] at before
        cases before
    · exact .inr ⟨base, row, rfl, owner, (consistent.lawful call.found pending).1, startedAt,
        consumer⟩

theorem rows_act (owned : Owned env x) (consistent : Consistent env x) (locked : Locked x)
    (call : Call env x t choice) (api : apiOffWindow x.1 (.act t choice) = true)
    (t' : Nat) (th' : Thread) (win : Window) (found : call.result.1.threads[t']? = some th')
    (opened : th'.loc.window = some win) : ∃ row, call.world'.db.jobs win.jobId = some row ∧
      win.Owns row ∧ ∀ stage held, call.result.2 t' = .attempt stage → stage.row? = some held →
        held = row := by
  obtain ⟨rfl, rfl⟩ | ⟨other, isFound⟩ := call.threads_result found
  · obtain ⟨quiet, before⟩ | ⟨base, row, committed, owner, owns⟩ := window_from consistent call opened
    · obtain ⟨row, isRow, owns, agrees⟩ := owned.rows t' _ win call.found before
      have isRow' : call.world'.db.jobs win.jobId = some row :=
        jobs_kept call isRow fun write committed => by cases quiet.symm.trans committed
      refine ⟨row, isRow', owns, fun stage held staged carried => ?_⟩
      rw [call.own_stage] at staged
      obtain ⟨item, stage', is⟩ | ⟨request, stage', is⟩ | ⟨task, stage', is⟩ := consistent.kind call
      · obtain ⟨goes, -⟩ | ⟨idle, -⟩ := is.goes
        · cases goes.symm.trans staged
          obtain kept | read := next_row is.permitted call.ran carried
          · exact agrees _ _ is.staged kept
          · have owner := is.facts.window.jobId before
            rw [owner] at isRow
            exact Option.some.inj (read.symm.trans isRow)
        · cases idle.window.symm.trans opened
      · cases is.facts'.window.symm.trans opened
      · cases is.facts'.window.symm.trans opened
    · have pending := (commits_write committed).2
      refine ⟨row, ?_, owns, fun stage held staged carried => ?_⟩
      · simp only [Call.world', World.note_db, execute_jobs call.ran, committed, owner]
        exact Function.update_self ..
      · obtain ⟨item, now, is⟩ := consistent.claiming call pending
        rw [call.own_stage] at staged
        obtain ⟨goes, -⟩ | ⟨idle, -⟩ := is.goes
        · cases goes.symm.trans staged
          cases (next_commit_row (commits_write committed).1 _).symm.trans carried
        · cases idle.window.symm.trans opened
  · obtain ⟨row, isRow, owns, agrees⟩ := owned.rows t' th' win isFound opened
    refine ⟨row, owned.jobs_other consistent locked call api other isFound opened isRow, owns, ?_⟩
    intro stage held staged carried
    rw [call.other_stage other] at staged
    exact agrees stage held staged carried

theorem unique_act (owned : Owned env x) (consistent : Consistent env x) (locked : Locked x)
    (call : Call env x t choice) {t' : Nat} {th' : Thread} {win win' : Window}
    (other : t' ≠ t) (found : x.1.threads[t']? = some th')
    (opened : call.reply.loc.window = some win) (opened' : th'.loc.window = some win')
    (same : win.jobId = win'.jobId) : False := by
  obtain ⟨-, before⟩ | ⟨base, row, committed, owner, -⟩ := window_from consistent call opened
  · exact other (owned.unique t t' _ _ win win' call.found found before opened' same).symm
  · exact owned.claims consistent locked call (commits_write committed).2 found opened'
      (same.symm.trans owner)

theorem spent_act (owned : Owned env x) (consistent : Consistent env x) (locked : Locked x)
    (call : Call env x t choice) (api : apiOffWindow x.1 (.act t choice) = true)
    (t' : Nat) (th' : Thread) (item : DeliveredEvent) (stage : AttemptStage)
    (found : call.result.1.threads[t']? = some th') (handles : th'.control.item? = some item)
    (staged : call.result.2 t' = .attempt stage) (closed : th'.loc.window = none) :
    stage.Spent call.world'.db.jobs item.event.jobId := by
  have kept : ∀ {jobId} {stage : AttemptStage}, stage.Spent x.1.world.db.jobs jobId →
      stage.Spent call.world'.db.jobs jobId := fun spent => spent.congr fun row isRow completed =>
    owned.jobs_completed consistent locked call api isRow completed
  obtain ⟨rfl, rfl⟩ | ⟨other, isFound⟩ := call.threads_result found
  · rw [call.own_stage] at staged
    obtain ⟨event, stage', is⟩ | ⟨request, stage', is⟩ | ⟨task, stage', is⟩ := consistent.kind call
    · obtain ⟨goes, control'⟩ | ⟨idle, goes⟩ := is.goes
      · cases goes.symm.trans staged
        obtain ⟨loop, rest, p, p', control, reached⟩ := is.control
        rw [control', reached] at handles
        cases handles
        cases committed : call.thread.loc.commits call.o choice with
        | none =>
          obtain same | ⟨closes, -⟩ := execute_window call.ran committed
          · have before := same.symm.trans closed
            exact kept (next_spent is.facts is.permitted call.ran before
              (owned.spent t' _ item stage' call.found (by rw [control]; rfl) is.staged before))
          · exact next_closeSession closes ..
        | some write =>
          simp only [Call.world', World.note_db, execute_jobs call.ran, committed]
          exact next_committed is.facts is.permitted call.ran committed
      · cases Control.first_attempt (goes.symm.trans staged)
        trivial
    · obtain ⟨goes, -⟩ | ⟨-, goes, -⟩ := is.goes <;> cases goes.symm.trans staged
    · obtain ⟨goes, -⟩ | goes := is.goes
      · cases goes.symm.trans staged
      · cases Control.first_attempt (goes.symm.trans staged)
        trivial
  · rw [call.other_stage other] at staged
    exact kept (owned.spent t' th' item stage isFound handles staged closed)

theorem times_act (owned : Owned env x) (consistent : Consistent env x)
    (call : Call env x t choice) (t' : Nat) (th' : Thread) (stage : AttemptStage) (now : Time)
    (found : call.result.1.threads[t']? = some th') (staged : call.result.2 t' = .attempt stage)
    (carried : stage.clock? = some now) : now ≤ call.world'.clock env th'.proc := by
  have same : call.world'.clock env th'.proc = x.1.world.clock env th'.proc := by
    simp only [World.clock, Call.world', World.note_now, execute_now call.ran]
  rw [same]
  obtain ⟨rfl, rfl⟩ | ⟨other, isFound⟩ := call.threads_result found
  · rw [call.own_stage] at staged
    obtain ⟨event, stage', is⟩ | ⟨request, stage', is⟩ | ⟨task, stage', is⟩ := consistent.kind call
    · obtain ⟨goes, -⟩ | ⟨-, goes⟩ := is.goes
      · cases goes.symm.trans staged
        obtain kept | rfl := next_clock is.permitted call.ran carried
        · exact owned.times t' call.thread _ now call.found is.staged kept
        · exact le_rfl
      · cases Control.first_attempt (goes.symm.trans staged)
        cases carried
    · obtain ⟨goes, -⟩ | ⟨-, goes, -⟩ := is.goes <;> cases goes.symm.trans staged
    · obtain ⟨goes, -⟩ | goes := is.goes
      · cases goes.symm.trans staged
      · cases Control.first_attempt (goes.symm.trans staged)
        cases carried
  · rw [call.other_stage other] at staged
    exact owned.times t' th' stage now isFound staged carried

theorem act (owned : Owned env x) (consistent : Consistent env x) (locked : Locked x)
    (call : Call env x t choice) (api : apiOffWindow x.1 (.act t choice) = true)
    (timely : Timely env call.result.1) : Owned env call.result where
  agree := owned.agree
  times := owned.times_act consistent call
  timely := timely
  rows := owned.rows_act consistent locked call api
  unique t₁ t₂ th₁ th₂ win₁ win₂ found₁ found₂ opened₁ opened₂ same := by
    obtain ⟨rfl, rfl⟩ | ⟨other₁, isFound₁⟩ := call.threads_result found₁ <;>
      obtain ⟨rfl, rfl⟩ | ⟨other₂, isFound₂⟩ := call.threads_result found₂
    · rfl
    · exact (owned.unique_act consistent locked call other₂ isFound₂ opened₁ opened₂ same).elim
    · exact (owned.unique_act consistent locked call other₁ isFound₁ opened₂ opened₁
        same.symm).elim
    · exact owned.unique t₁ t₂ th₁ th₂ win₁ win₂ isFound₁ isFound₂ opened₁ opened₂ same
  spent := owned.spent_act consistent locked call api

theorem undisturbed {x' : Staged} {label : Label} (owned : Owned env x)
    (consistent : Consistent env x) (move : Move env x label x')
    (noCall : ∀ t choice, label ≠ .act t choice) (timely : Timely env x'.1) : Owned env x' where
  agree := owned.agree
  times t th stage now found staged carried := by
    obtain ⟨isFound, same⟩ | ⟨-, first, -⟩ := consistent.threads move noCall found
    · have before := owned.times t th stage now isFound (same.symm.trans staged) carried
      have later := (move.rests noCall).now
      simp only [World.clock] at before ⊢
      linarith
    · cases Control.first_attempt (first.symm.trans staged)
      cases carried
  timely := timely
  rows t th win found opened := by
    obtain ⟨isFound, same⟩ | ⟨idle, -⟩ := consistent.threads move noCall found
    · rw [(move.rests noCall).jobs, same]
      exact owned.rows t th win isFound opened
    · cases idle.window.symm.trans opened
  unique t t' th th' win win' found found' opened opened' same := by
    obtain ⟨isFound, -⟩ | ⟨idle, -⟩ := consistent.threads move noCall found
    · obtain ⟨isFound', -⟩ | ⟨idle, -⟩ := consistent.threads move noCall found'
      · exact owned.unique t t' th th' win win' isFound isFound' opened opened' same
      · cases idle.window.symm.trans opened'
    · cases idle.window.symm.trans opened
  spent t th item stage found handles staged closed := by
    obtain ⟨isFound, same⟩ | ⟨-, -, none_, -⟩ := consistent.threads move noCall found
    · rw [(move.rests noCall).jobs]
      exact owned.spent t th item stage isFound handles (same.symm.trans staged) closed
    · cases none_.symm.trans handles

theorem step {x' : Staged} {label : Label} (owned : Owned env x) (consistent : Consistent env x)
    (locked : Locked x) (move : Move env x label x') (api : apiOffWindow x.1 label = true)
    (timely : Timely env x'.1) : Owned env x' := by
  obtain ⟨t, choice, call, rfl, rfl⟩ | noCall := move.call_or
  · exact owned.act consistent locked call api timely
  · exact owned.undisturbed consistent move noCall timely

theorem init (agree : ClocksAgree env) : Owned env (System.init, fun _ => .resting) where
  agree := agree
  times _ _ _ _ found := by cases found
  timely _ _ _ found := by cases found
  rows _ _ _ found := by cases found
  unique _ _ _ _ _ _ found := by cases found
  spent _ _ _ _ found := by cases found

end Owned
/-- Only workers write rows that exist: no request issues an ORM write. -/
def workersOnly (s : System) : Label → Bool
  | .act t _ => match s.call? t with
    | some (th, .db (.updateJob _ _)) => match th.control with
      | .serving _ _ => false
      | _ => true
    | _ => true
  | _ => true

def RequestStage.updating : RequestStage → Bool
  | .resetting _ _ | .refailing _ _ => true
  | _ => false

theorem RequestStage.next_updating {stage : RequestStage} {o : Op} {answer : Except Exn o.Val}
    (h : (stage.next o answer).updating = true) : ∃ row current, o = .db (.updateJob row current) := by
  unfold next at h
  split at h <;> first | exact ⟨_, _, rfl⟩ | cases h

def NoApiUpdates (x : Staged) : Prop :=
  ∀ (t : Nat) (stage : RequestStage), x.2 t = .request stage → stage.updating = false

theorem NoApiUpdates.act {env : Env} {x : Staged} {t : Nat} {choice : Choice}
    (quiet : NoApiUpdates x) (consistent : Consistent env x) (call : Call env x t choice)
    (workers : workersOnly x.1 (.act t choice) = true) : NoApiUpdates call.result := by
  intro t' stage staged
  by_cases own : t' = t
  · subst own
    rw [call.own_stage] at staged
    obtain ⟨item, stage', is⟩ | ⟨request, stage', is⟩ | ⟨task, stage', is⟩ := consistent.kind call
    · obtain ⟨goes, -⟩ | ⟨-, goes⟩ := is.goes
      · cases goes.symm.trans staged
      · cases Control.first_request (goes.symm.trans staged)
        rfl
    · obtain ⟨goes, -⟩ | ⟨-, goes, -⟩ := is.goes
      · cases goes.symm.trans staged
        obtain ⟨p, p', control, -⟩ := is.control
        by_contra updating
        obtain ⟨row, current, isUpdate⟩ := RequestStage.next_updating (by simpa using updating)
        simp only [workersOnly, call.call?_eq, isUpdate, control] at workers
        cases workers
      · cases goes.symm.trans staged
    · obtain ⟨goes, -⟩ | goes := is.goes
      · cases goes.symm.trans staged
      · cases Control.first_request (goes.symm.trans staged)
        rfl
  · exact quiet t' stage ((call.other_stage own).symm.trans staged)

theorem NoApiUpdates.step {env : Env} {x x' : Staged} {label : Label} (quiet : NoApiUpdates x)
    (consistent : Consistent env x) (move : Move env x label x')
    (workers : workersOnly x.1 label = true) : NoApiUpdates x' := by
  by_cases noCall : ∀ t choice, label ≠ .act t choice
  · intro t stage staged
    obtain same | ⟨c, first⟩ := move.stage noCall t
    · exact quiet t stage (same.symm.trans staged)
    · cases Control.first_request (first.symm.trans staged)
      rfl
  · cases move with
    | act call => exact quiet.act consistent call workers
    | _ => exact absurd nofun noCall

theorem NoApiUpdates.offWindow {env : Env} {x x' : Staged} {label : Label} (quiet : NoApiUpdates x)
    (consistent : Consistent env x) (move : Move env x label x') :
    apiOffWindow x.1 label = true := by
  cases move with
  | act call =>
    simp only [apiOffWindow, call.call?_eq, call.commits_eq]
    split
    · rename_i request p control
      cases committed : call.thread.loc.commits call.o _ with
      | none => rfl
      | some write =>
        obtain ⟨item, stage, is⟩ | ⟨request, stage, is⟩ | ⟨task, stage, is⟩ := consistent.kind call
        · obtain ⟨_, _, _, _, handles, -⟩ := is.control
          cases handles.symm.trans control
        · have writes := is.facts.write
          rw [(commits_write committed).2] at writes
          have unchanged := quiet _ stage is.staged
          cases write <;> first | rfl | skip
          cases stage <;> first | exact writes.elim | cases unchanged
        · cases is.facts.tx ▸ (commits_write committed).2
    · rfl
  | _ => rfl

abbrev amongWorkers (env : Env) : Guard := fun s label s' =>
  workersOnly s label = true ∧ Timely env s'

theorem StagedRun.owned {env : Env} (agree : ClocksAgree env) {x : Staged}
    (h : StagedRun env (amongWorkers env) x) : Owned env x ∧ NoApiUpdates x :=
  h.invariant (I := fun x => Owned env x ∧ NoApiUpdates x)
    ⟨.init agree, fun _ _ staged => by cases staged⟩
    fun x label x' (reached : StagedRun env (amongWorkers env) x) held stepped guarded =>
      have move := move_of_step stepped
      ⟨held.1.step reached.consistent reached.locked move
          (held.2.offWindow reached.consistent move) guarded.2,
        held.2.step reached.consistent move guarded.1⟩

/-- Among workers with agreeing clocks and timely attempts: a job has at most
one window, its row is the owner's as long as it is open, and every mark lands
on a row its attempt still owns. -/
theorem ownership {env : Env} (agree : ClocksAgree env) {s : System}
    (h : Reached env (amongWorkers env) s) :
    (∀ (t t' : Nat) (th th' : Thread) (win win' : Window), s.threads[t]? = some th →
      s.threads[t']? = some th' → th.loc.window = some win → th'.loc.window = some win' →
        win.jobId = win'.jobId → t = t') ∧
    (∀ (t : Nat) (th : Thread) (win : Window), s.threads[t]? = some th →
      th.loc.window = some win → ∃ row, s.world.db.jobs win.jobId = some row ∧ win.Owns row) ∧
    ∀ (t : Nat) (choice : Choice) (loaded base row : ProcessingJob) (s' : System),
      System.step env s (.act t choice) = some s' →
        s.commits (.act t choice) = some (.update loaded base row) →
          ∃ th win, s.threads[t]? = some th ∧ th.loc.window = some win ∧ win.jobId = row.id ∧
            s.world.db.jobs row.id = some base ∧ win.Owns base := by
  obtain ⟨g, staged⟩ := h.staged
  obtain ⟨owned, quiet⟩ := staged.owned agree
  refine ⟨owned.unique, fun t th win found opened => ?_, ?_⟩
  · obtain ⟨row, isRow, owns, -⟩ := owned.rows t th win found opened
    exact ⟨row, isRow, owns⟩
  · intro t choice loaded base row s' stepped committed
    have move := move_of_step (stagedStep_of_step g stepped)
    obtain ⟨call, -⟩ := move.call
    rw [call.commits_eq] at committed
    have pending := (commits_write committed).2
    have stored : s.world.db.jobs row.id = some base :=
      staged.locked.based t call.thread _ call.found pending
    obtain ⟨item, stage, is⟩ | ⟨request, stage, is⟩ | ⟨task, stage, is⟩ :=
      staged.consistent.kind call
    · obtain ⟨win, opened, owner⟩ := owned.own_window call is pending
      obtain ⟨held, isHeld, owns, -⟩ := owned.rows t call.thread win call.found opened
      rw [owner] at isHeld
      cases isHeld.symm.trans stored
      exact ⟨call.thread, win, call.found, opened, owner, stored, owns⟩
    · have writes := is.facts.write
      have unchanged := quiet t stage is.staged
      rw [pending] at writes
      cases stage <;> first | exact writes.elim | cases unchanged
    · rw [is.facts.tx] at pending
      cases pending

def System.timely (env : Env) (s : System) : Bool :=
  s.threads.all fun th => th.loc.window.all fun win =>
    s.world.clock env th.proc < win.startedAt + seconds env.settings.staleProcessingSeconds

theorem System.timely_sound {env : Env} {s : System} (h : s.timely env = true) : Timely env s := by
  simp only [timely, List.all_eq_true, Option.all_eq_true, decide_eq_true_eq] at h
  exact fun t th win found opened => h th (List.mem_of_getElem? found) win opened

/-- A worker in the middle of an attempt. -/
theorem ownership_uploaded : ∃ s, Reached sampleEnv (amongWorkers sampleEnv) s ∧
    ∃ win row, (s.threads[1]?).bind (·.loc.window) = some win ∧
      s.world.db.jobs win.jobId = some row ∧ win.Owns row := by
  have sound : ∀ s label s', (workersOnly s label && s'.timely sampleEnv) = true →
      amongWorkers sampleEnv s label s' := fun s label s' held =>
    ⟨(Bool.and_eq_true_iff.mp held).1, System.timely_sound (Bool.and_eq_true_iff.mp held).2⟩
  obtain ⟨s, reached, accepted⟩ := Reached.exists_run sampleEnv (amongWorkers sampleEnv)
    (fun s label s' => workersOnly s label && s'.timely sampleEnv)
    (fun s => ((s.threads[1]?).bind (·.loc.window)).isSome) sound (completedRun.take 24)
    (by decide +kernel)
  obtain ⟨win, isWindow⟩ := Option.isSome_iff_exists.mp accepted
  obtain ⟨th, found, opened⟩ := Option.bind_eq_some_iff.mp isWindow
  obtain ⟨row, isRow, owns⟩ := (ownership (fun _ _ => rfl) reached).2.1 1 th win found opened
  exact ⟨s, reached, win, row, isWindow, isRow, owns⟩

end DocumentPipeline

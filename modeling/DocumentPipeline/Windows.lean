import DocumentPipeline.Deliveries

/-! The window of an attempt and the row it carries. A window opens with the
attempt's own claim and closes with its own next commit; the row a stage
carries was read while the window was open, or after an ambiguous commit had
already completed the job. -/

namespace DocumentPipeline
open EffectProgram JobService

namespace AttemptStage

def row? : AttemptStage → Option ProcessingJob
  | .loaded row | .running row | .completing row _ | .persisting row _ | .reloaded row
  | .drawn row _ | .scheduled row _ | .unscheduled row | .marking row _ _ => some row
  | _ => none

def clock? : AttemptStage → Option Time
  | .clocked now | .matched now => some now
  | _ => none

/-- What is left of an attempt whose final commit was applied behind its back:
it can only find the job completed. -/
def Spent (jobs : Nat → Option ProcessingJob) (jobId : Nat) : AttemptStage → Prop
  | .broken | .expired => ∃ row, jobs jobId = some row ∧ row.status = .completed
  | .reloaded row | .drawn row _ | .scheduled row _ | .unscheduled row => row.status = .completed
  | .marking _ _ _ => False
  | _ => True

theorem Spent.congr {jobs jobs' : Nat → Option ProcessingJob} {jobId : Nat} {stage : AttemptStage}
    (h : stage.Spent jobs jobId)
    (same : ∀ row, jobs jobId = some row → row.status = .completed → jobs' jobId = some row) :
    stage.Spent jobs' jobId := by
  cases stage <;> first
    | exact h
    | (obtain ⟨row, found, completed⟩ := h
       exact ⟨row, same row found completed, completed⟩)

end AttemptStage

section Steps
variable {env : Env} {ctx : Context} {w : World} {loc : Local} {choice : Choice} {name : String}
  {item : DeliveredEvent} {stage : AttemptStage}

theorem execute_window {o : Op} {reply : Reply o}
    (ran : o.execute env ctx w loc choice = some reply) (quiet : loc.commits o choice = none) :
    reply.loc.window = loc.window ∨ o = .db .closeSession ∧ reply.loc.window = none := by
  cases o with
  | runtime o =>
    obtain ⟨done, did, rfl⟩ := execute_runtime ran
    exact .inl rfl
  | redis o =>
    obtain ⟨-, rfl⟩ | ⟨error, -, -, rfl⟩ | ⟨error, -, -, rfl⟩ := execute_redis ran
    all_goals cases o <;> cases choice <;> exact .inl rfl
  | db o =>
    by_cases commit : o = .commit
    · subst commit
      obtain ⟨⟨document, write, result⟩, session, window, scheduled, listed⟩ := loc
      obtain ⟨rfl, rfl⟩ | ⟨error, rfl, -, rfl⟩ | ⟨error, rfl, -, rfl⟩ := execute_commit ran
      · cases quiet
        exact .inl rfl
      · exact .inl rfl
      · cases quiet
        exact .inl rfl
    · obtain ⟨rfl, done, did, rfl⟩ | ⟨error, rfl, -, -, rfl⟩ := execute_db ran commit
      · cases o <;> first | exact .inl rfl | exact .inr ⟨rfl, rfl⟩ | exact absurd rfl commit
      · exact .inl rfl

theorem execute_opens {o : Op} {reply : Reply o} {write : Write} {win : Window}
    (ran : o.execute env ctx w loc choice = some reply)
    (committed : loc.commits o choice = some write) (opened : reply.loc.window = some win) :
    (∃ row, write = .insert row ∧ loc.window = some win) ∨
    ∃ base row, write = .claim base row ∧ win.jobId = row.id ∧
      row.startedAt = some win.startedAt ∧ row.consumerName = some win.consumerName := by
  obtain ⟨rfl, pending⟩ := commits_write committed
  obtain ⟨⟨document, write', result⟩, session, window, scheduled, listed⟩ := loc
  cases pending
  obtain ⟨rfl, rfl⟩ | ⟨error, rfl, -, rfl⟩ | ⟨error, rfl, -, rfl⟩ := execute_commit ran
  · rcases write with row | ⟨base, row⟩ | ⟨seen, base, row⟩
    · exact .inl ⟨row, rfl, opened⟩
    · simp only [World.noteDb, World.noteWrite, if_true] at opened
      split at opened
      · rename_i startedAt consumer isStarted isConsumer
        cases opened
        exact .inr ⟨base, row, rfl, rfl, isStarted, isConsumer⟩
      · cases opened
    · cases opened
  · cases committed
  · rcases write with row | ⟨base, row⟩ | ⟨seen, base, row⟩
    · exact .inl ⟨row, rfl, opened⟩
    · cases opened
    · cases opened

theorem next_row {o : Op} {reply : Reply o} {row : ProcessingJob}
    (permitted : stage.permits env name item o)
    (ran : o.execute env ctx w loc choice = some reply)
    (carried : (stage.next item o reply.answer).row? = some row) :
    stage.row? = some row ∨ w.db.jobs item.event.jobId = some row := by
  cases o with
  | runtime o =>
    obtain ⟨rfl, rfl⟩ | ⟨row, rfl, rfl, -⟩ | ⟨row, rfl, rfl, -⟩ | ⟨-, same, -⟩ :=
      AttemptStage.permits_runtime permitted
    · rcases reply with ⟨_, _, _ | _⟩ <;> cases carried
    · exact .inl carried
    · rcases reply with ⟨_, _, _ | _⟩ <;> exact .inl carried
    · rw [same] at carried
      exact .inl carried
  | redis o =>
    obtain ⟨row, eventId, score, rfl, rfl⟩ | ⟨how, rfl, rfl⟩ :=
      AttemptStage.permits_redis permitted
    · rcases reply with ⟨_, _, _ | _⟩ <;> exact .inl carried
    · cases carried
  | db o =>
    cases o with
    | selectJob id =>
      obtain ⟨known, rfl⟩ := AttemptStage.permits_selectJob permitted
      obtain ⟨-, done, did, rfl⟩ | ⟨error, -, -, -, rfl⟩ := execute_db ran nofun
      · cases did
        dsimp only at carried
        generalize answer : Option.bind _ _ = found at carried
        obtain _ | ⟨read, content⟩ := found
        · obtain rfl | rfl := known <;> cases carried
        · have stored := select_found answer
          obtain rfl | rfl := known <;> cases carried <;> exact .inr stored
      · obtain rfl | rfl := known <;> cases carried
    | updateJob loaded current =>
      have flush := AttemptStage.permits_updateJob permitted
      cases stage <;> first | exact flush.elim | skip
      all_goals rcases reply with ⟨_, _, _ | _⟩ <;> first | exact .inl carried | cases carried
    | openSession =>
      obtain rfl := AttemptStage.permits_openSession permitted
      cases carried
    | closeSession =>
      obtain unsettled | ⟨how, rfl⟩ := AttemptStage.permits_closeSession permitted
      · cases stage <;> cases carried
      · cases carried
    | executeClaim _ _ _ _ =>
      obtain ⟨rfl, -⟩ := AttemptStage.permits_executeClaim permitted
      rcases reply with ⟨_, _, _ | _ | _⟩ <;> cases carried
    | insertResult _ =>
      obtain ⟨read, current, rfl, -⟩ := AttemptStage.permits_insertResult permitted
      rcases reply with ⟨_, _, _ | _⟩ <;> first | exact .inl carried | cases carried
    | commit =>
      obtain ⟨now, rfl⟩ | ⟨read, current, rfl⟩ | ⟨read, current, event, rfl⟩ :=
        AttemptStage.permits_commit permitted
      all_goals rcases reply with ⟨_, _, _ | _⟩ <;> cases carried
    | rollback =>
      obtain rfl | ⟨read, rfl⟩ | rfl | rfl := AttemptStage.permits_rollback permitted
      all_goals rcases reply with ⟨_, _, _ | _⟩ <;> cases carried
    | selectDocument _ => cases stage <;> exact permitted.elim
    | insertDocument _ _ => cases stage <;> exact permitted.elim
    | insertJob _ => cases stage <;> exact permitted.elim

theorem next_clock {o : Op} {reply : Reply o} {now : Time}
    (permitted : stage.permits env name item o)
    (ran : o.execute env ctx w loc choice = some reply)
    (carried : (stage.next item o reply.answer).clock? = some now) :
    stage.clock? = some now ∨ now = w.clock env ctx.proc := by
  cases o with
  | runtime o =>
    obtain ⟨rfl, rfl⟩ | ⟨row, rfl, rfl, -⟩ | ⟨row, rfl, rfl, -⟩ | ⟨-, same, -⟩ :=
      AttemptStage.permits_runtime permitted
    · obtain ⟨done, did, rfl⟩ := execute_runtime ran
      cases choice <;> cases did
      cases carried
      exact .inr rfl
    · cases carried
    · rcases reply with ⟨_, _, _ | _⟩ <;> cases carried
    · rw [same] at carried
      exact .inl carried
  | redis o =>
    obtain ⟨row, eventId, score, rfl, rfl⟩ | ⟨how, rfl, rfl⟩ :=
      AttemptStage.permits_redis permitted
    · rcases reply with ⟨_, _, _ | _⟩ <;> cases carried
    · cases carried
  | db o =>
    cases o with
    | executeClaim _ _ _ _ =>
      obtain ⟨rfl, -⟩ := AttemptStage.permits_executeClaim permitted
      rcases reply with ⟨_, _, _ | _ | _⟩ <;> first | exact .inl carried | cases carried
    | updateJob _ _ =>
      have flush := AttemptStage.permits_updateJob permitted
      cases stage <;> first | exact flush.elim | skip
      all_goals rcases reply with ⟨_, _, _ | _⟩ <;> cases carried
    | closeSession => cases stage <;> cases carried
    | _ =>
      cases stage <;> first | exact permitted.elim | skip
      all_goals rcases reply with ⟨_, _, _ | _ | _⟩ <;> cases carried

theorem next_commit_row {o : Op} (isCommit : o = .db .commit) (answer : Except Exn o.Val) :
    (stage.next item o answer).row? = none := by
  subst isCommit
  cases stage <;> rcases answer with _ | _ <;> rfl

theorem next_closeSession {o : Op} (closes : o = .db .closeSession) (answer : Except Exn o.Val)
    (jobs : Nat → Option ProcessingJob) (jobId : Nat) :
    (stage.next item o answer).Spent jobs jobId := by
  subst closes
  cases stage <;> trivial

/-- An attempt whose own commit was applied has completed its job, or has no
further use for it. -/
theorem next_committed {o : Op} {reply : Reply o} {write : Write}
    (facts : AttemptLocal env name item stage loc)
    (permitted : stage.permits env name item o)
    (ran : o.execute env ctx w loc choice = some reply)
    (committed : loc.commits o choice = some write) :
    (stage.next item o reply.answer).Spent
      (Function.update w.db.jobs write.row.id (some write.row)) item.event.jobId := by
  obtain ⟨rfl, pending⟩ := commits_write committed
  have writes := facts.write
  have sound := facts.sound
  rw [pending] at writes
  obtain ⟨now, rfl⟩ | ⟨read, current, rfl⟩ | ⟨read, current, event, rfl⟩ :=
    AttemptStage.permits_commit permitted
  · rcases reply with ⟨_, _, _ | _⟩ <;> trivial
  · cases write <;> first | exact writes.elim | skip
    rename_i loaded base written
    obtain ⟨rfl, same, rfl⟩ := writes
    obtain ⟨owner, allowed, now, rfl⟩ := sound
    rcases reply with ⟨_, _, _ | _⟩
    · have key : item.event.jobId = base.id := owner.symm.trans same.symm
      exact ⟨loaded.flushed (completedRow loaded now) base, key ▸ Function.update_self ..,
        ProcessingJob.flushed_status (allowed_ne allowed) _⟩
    · trivial
  · rcases reply with ⟨_, _, _ | _⟩ <;> trivial

/-- Without a window an attempt stays spent: it cannot mark the row again. -/
theorem next_spent {o : Op} {reply : Reply o} (facts : AttemptLocal env name item stage loc)
    (permitted : stage.permits env name item o)
    (ran : o.execute env ctx w loc choice = some reply) (closed : loc.window = none)
    (spent : stage.Spent w.db.jobs item.event.jobId) :
    (stage.next item o reply.answer).Spent w.db.jobs item.event.jobId := by
  have windows := facts.window
  rw [closed] at windows
  cases o with
  | runtime o =>
    obtain ⟨rfl, rfl⟩ | ⟨row, rfl, rfl, -⟩ | ⟨row, rfl, rfl, -⟩ | ⟨-, same, -⟩ :=
      AttemptStage.permits_runtime permitted
    · rcases reply with ⟨_, _, _ | _⟩ <;> trivial
    · trivial
    · rcases reply with ⟨_, _, _ | _⟩ <;> exact spent
    · rw [same]
      exact spent
  | redis o =>
    obtain ⟨row, eventId, score, rfl, rfl⟩ | ⟨how, rfl, rfl⟩ :=
      AttemptStage.permits_redis permitted
    · rcases reply with ⟨_, _, _ | _⟩ <;> exact spent
    · trivial
  | db o =>
    cases o with
    | selectJob id =>
      obtain ⟨known, rfl⟩ := AttemptStage.permits_selectJob permitted
      obtain rfl | rfl := known
      · obtain ⟨startedAt, absurd⟩ := windows
        cases absurd
      · obtain ⟨-, done, did, rfl⟩ | ⟨error, -, -, -, rfl⟩ := execute_db ran nofun
        · cases did
          dsimp only
          generalize answer : Option.bind _ _ = found
          obtain _ | ⟨read, content⟩ := found
          · trivial
          · obtain ⟨row, isRow, completed⟩ := spent
            cases isRow.symm.trans (select_found answer)
            exact completed
        · trivial
    | updateJob loaded current =>
      have flush := AttemptStage.permits_updateJob permitted
      cases stage <;> first | exact flush.elim | skip
      all_goals first
        | (obtain ⟨startedAt, absurd⟩ := windows
           cases absurd)
        | (obtain ⟨rfl, allowed, -⟩ := flush
           rw [show loaded.status = .completed from spent] at allowed
           cases allowed)
    | openSession =>
      obtain rfl := AttemptStage.permits_openSession permitted
      trivial
    | closeSession =>
      obtain unsettled | ⟨how, rfl⟩ := AttemptStage.permits_closeSession permitted
      · cases stage <;> trivial
      · trivial
    | executeClaim _ _ _ _ =>
      obtain ⟨rfl, -⟩ := AttemptStage.permits_executeClaim permitted
      rcases reply with ⟨_, _, _ | _ | _⟩ <;> trivial
    | insertResult _ =>
      obtain ⟨read, current, rfl, -⟩ := AttemptStage.permits_insertResult permitted
      obtain ⟨startedAt, absurd⟩ := windows
      cases absurd
    | commit =>
      obtain ⟨now, rfl⟩ | ⟨read, current, rfl⟩ | ⟨read, current, event, rfl⟩ :=
        AttemptStage.permits_commit permitted
      · rcases reply with ⟨_, _, _ | _⟩ <;> trivial
      · obtain ⟨startedAt, absurd⟩ := windows
        cases absurd
      · exact spent.elim
    | rollback =>
      obtain rfl | ⟨read, rfl⟩ | rfl | rfl := AttemptStage.permits_rollback permitted
      · rcases reply with ⟨_, _, _ | _⟩ <;> trivial
      · obtain ⟨startedAt, absurd⟩ := windows
        cases absurd
      all_goals rcases reply with ⟨_, _, _ | _⟩ <;> exact spent
    | selectDocument _ => cases stage <;> exact permitted.elim
    | insertDocument _ _ => cases stage <;> exact permitted.elim
    | insertJob _ => cases stage <;> exact permitted.elim

end Steps
end DocumentPipeline

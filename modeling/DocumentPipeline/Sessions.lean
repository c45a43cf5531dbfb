import DocumentPipeline.Tracking
import DocumentPipeline.Effects

/-! What the server side of a thread's session holds at each stage: the pending
writes of its transaction, and the attempt's window and scheduled event. These
facts mention no other thread, so they hold in every run. -/

namespace DocumentPipeline
open JobService

def Database.Keyed (db : Database) : Prop := ∀ jobId row, db.jobs jobId = some row → row.id = jobId

theorem select_found {db : Database} {jobId : Nat} {row : ProcessingJob} {content : Document}
    (found : ((db.jobs jobId).bind fun row =>
      (db.documents row.documentId).map fun document => (row, document)) = some (row, content)) :
    db.jobs jobId = some row := by
  simp only [Option.bind_eq_some_iff, Option.map_eq_some_iff] at found
  obtain ⟨stored, isStored, document, -, same⟩ := found
  cases same
  exact isStored

namespace AttemptStage

/-- The job write a stage's transaction holds. -/
def Writes (env : Env) (name : String) (item : DeliveredEvent) (stage : AttemptStage) :
    Option Write → Prop
  | none => match stage with
    | .matched _ | .completing _ _ | .persisting _ _ | .marking _ _ _ => False
    | _ => True
  | some (.claim base row) => match stage with
    | .matched now => base.id = item.event.jobId ∧ row = base.claimed name now ∧
      claimMatches base (now - seconds env.settings.staleProcessingSeconds) = true
    | _ => False
  | some (.update seen base row) => match stage with
    | .completing held current | .persisting held current | .marking held current _ =>
      seen = held ∧ base.id = held.id ∧ row = held.flushed current base
    | _ => False
  | some (.insert _) => False

def Results (item : DeliveredEvent) (stage : AttemptStage) : Option ExtractionResult → Prop
  | none => match stage with
    | .persisting _ _ => False
    | _ => True
  | some result => match stage with
    | .persisting _ _ => result.jobId = item.event.jobId
    | _ => False

def Windows (name : String) (item : DeliveredEvent) (stage : AttemptStage)
    (window : Option Window) : Prop :=
  match stage with
  | .owned | .loaded _ | .running _ | .completing _ _ | .persisting _ _ =>
    ∃ startedAt, window = some ⟨item.event.jobId, startedAt, name⟩
  | .broken | .expired | .reloaded _ | .drawn _ _ | .scheduled _ _ | .unscheduled _
  | .marking _ _ _ | .failed => ∀ win, window = some win → win.jobId = item.event.jobId
  | _ => window = none

def Schedules (stage : AttemptStage) (scheduled : Option DocumentProcessingEvent) : Prop :=
  match stage with
  | .scheduled _ event | .marking _ _ (some event) => scheduled = some event
  | .failed => True
  | _ => scheduled = none

end AttemptStage

structure AttemptLocal (env : Env) (name : String) (item : DeliveredEvent)
    (stage : AttemptStage) (loc : Local) : Prop where
  sound : stage.Sound item
  write : stage.Writes env name item loc.tx.write
  document : loc.tx.document = none
  result : stage.Results item loc.tx.result
  window : stage.Windows name item loc.window
  scheduled : stage.Schedules loc.scheduled
  session : stage.unsettled = true → loc.session.isSome = true

namespace RequestStage

def Writes (stage : RequestStage) : Option Write → Prop
  | none => match stage with
    | .inserted _ | .resetting _ _ | .refailing _ _ => False
    | _ => True
  | some (.insert row) => match stage with
    | .inserted held => ∃ now, row = { held with queuedAt := now, createdAt := now }
    | _ => False
  | some (.update seen base row) => match stage with
    | .resetting held current | .refailing held current =>
      seen = held ∧ base.id = held.id ∧ row = held.flushed current base
    | _ => False
  | some (.claim _ _) => False

def Documents (stage : RequestStage) (document : Option (Nat × Document)) : Prop :=
  match stage with
  | .documented documentId _ => ∃ content, document = some (documentId, content)
  | .inserted row => ∃ content, document = some (row.documentId, content)
  | _ => document = none

end RequestStage

structure RequestLocal (env : Env) (request : Request) (stage : RequestStage) (loc : Local) :
    Prop where
  sound : stage.Sound env request
  write : stage.Writes loc.tx.write
  document : stage.Documents loc.tx.document
  result : loc.tx.result = none
  window : loc.window = none
  scheduled : loc.scheduled = none

structure IdleLocal (loc : Local) : Prop where
  tx : loc.tx = {}
  window : loc.window = none
  scheduled : loc.scheduled = none

def Control.LocalFacts (env : Env) (name : String) : Control → Stage → Local → Prop
  | .handling _ item _ _, .attempt stage, loc => AttemptLocal env name item stage loc
  | .serving request _, .request stage, loc => RequestLocal env request stage loc
  | _, _, loc => IdleLocal loc

section Steps
variable {env : Env} {ctx : Context} {w : World} {loc : Local} {choice : Choice}

theorem execute_answers {o : Op} {reply : Reply o} (keyed : w.db.Keyed)
    (ran : o.execute env ctx w loc choice = some reply) : credible o reply.answer := by
  cases o with
  | runtime o =>
    obtain ⟨⟨world, answer⟩, did, rfl⟩ := execute_runtime ran
    clear ran
    cases o <;> first | trivial | (cases choice <;> cases did; trivial)
  | redis o =>
    obtain ⟨-, rfl⟩ | ⟨error, -, fault, rfl⟩ | ⟨error, -, fault, rfl⟩ := execute_redis ran
    · cases o <;> trivial
    · exact fault
    · exact fault
  | db o =>
    by_cases commit : o = .commit
    · subst commit
      cases reply.answer <;> trivial
    · obtain ⟨-, done, did, rfl⟩ | ⟨error, -, fallible, -, rfl⟩ := execute_db ran commit
      · clear ran
        cases o with
        | selectJob jobId =>
          cases did
          cases found : w.db.jobs jobId with
          | none => trivial
          | some row =>
            simp only [Option.bind_some]
            cases w.db.documents row.documentId with
            | none => trivial
            | some document => exact keyed jobId row found
        | _ => cases done; rename_i answer; cases answer <;> first | trivial | cases did
      · cases o <;> trivial

theorem execute_selectJob {id : Nat} {row : ProcessingJob} {document : Document}
    {reply : Reply (.db (.selectJob id))}
    (ran : Op.execute env ctx w loc (.db (.selectJob id)) choice = some reply)
    (found : reply.answer = .ok (some (row, document))) :
    w.db.jobs id = some row ∧ w.db.documents row.documentId = some document := by
  obtain ⟨-, done, did, rfl⟩ | ⟨error, -, -, -, rfl⟩ := execute_db ran fun same => (by cases same)
  · cases did
    have found := Except.ok.inj found
    simp only [Option.bind_eq_some_iff, Option.map_eq_some_iff] at found
    obtain ⟨stored, isStored, content, isContent, same⟩ := found
    cases same
    exact ⟨isStored, isContent⟩
  · cases found

theorem execute_keyed {o : Op} {reply : Reply o} (keyed : w.db.Keyed)
    (ran : o.execute env ctx w loc choice = some reply) : reply.world.db.Keyed := by
  intro jobId row found
  rw [execute_jobs ran] at found
  split at found
  · exact keyed jobId row found
  · rename_i write _
    by_cases own : jobId = write.row.id
    · subst own
      rw [Function.update_self] at found
      cases found
      rfl
    · rw [Function.update_of_ne own] at found
      exact keyed jobId row found

section AttemptSteps
variable {name : String} {item : DeliveredEvent} {stage : AttemptStage}

theorem AttemptStage.Windows.jobId {win : Window} (h : stage.Windows name item loc.window)
    (open_ : loc.window = some win) : win.jobId = item.event.jobId := by
  cases stage <;> simp only [AttemptStage.Windows, open_, reduceCtorEq] at h
  all_goals first
    | exact h _ rfl
    | (obtain ⟨startedAt, same⟩ := h
       cases same
       rfl)

theorem AttemptLocal.commit {reply : Reply (.db .commit)} (h : AttemptLocal env name item stage loc)
    (permitted : stage.permits env name item (.db .commit))
    (ran : Op.execute env ctx w loc (.db .commit) choice = some reply) :
    AttemptLocal env name item (stage.next item (.db .commit) reply.answer) reply.loc := by
  have jobId := fun win => @AttemptStage.Windows.jobId _ _ _ _ win h.window
  obtain ⟨sound, write, document, result, window, scheduled, session⟩ := h
  obtain ⟨tx, openSession, win, event, listed⟩ := loc
  obtain ⟨document', write', result'⟩ := tx
  obtain ⟨now, rfl⟩ | ⟨row, current, rfl⟩ | ⟨row, current, mark, rfl⟩ :=
    AttemptStage.permits_commit permitted
  · obtain _ | (_ | ⟨base, row⟩ | _) := write' <;> first | exact write.elim | skip
    obtain ⟨keyed, rfl, -⟩ := write
    obtain ⟨-, rfl⟩ | ⟨error, -, -, rfl⟩ | ⟨error, -, -, rfl⟩ := execute_commit ran
    · exact ⟨trivial, trivial, rfl, trivial, ⟨now, by rw [← keyed]; rfl⟩, rfl, session⟩
    · exact ⟨trivial, trivial, rfl, trivial, jobId, trivial, session⟩
    · exact ⟨trivial, trivial, rfl, trivial, nofun, trivial, session⟩
  · obtain _ | (_ | _ | ⟨seen, base, row⟩) := write' <;> first | exact write.elim | skip
    obtain ⟨-, rfl⟩ | ⟨error, -, -, rfl⟩ | ⟨error, -, -, rfl⟩ := execute_commit ran
    · exact ⟨trivial, trivial, rfl, trivial, rfl, rfl, nofun⟩
    · exact ⟨trivial, trivial, rfl, trivial, jobId, scheduled, session⟩
    · exact ⟨trivial, trivial, rfl, trivial, nofun, rfl, session⟩
  · obtain _ | (_ | _ | ⟨seen, base, row⟩) := write' <;> first | exact write.elim | skip
    obtain ⟨-, rfl⟩ | ⟨error, -, -, rfl⟩ | ⟨error, -, -, rfl⟩ := execute_commit ran
    · exact ⟨trivial, trivial, rfl, trivial, rfl, rfl, nofun⟩
    · exact ⟨trivial, trivial, rfl, trivial, jobId, trivial, session⟩
    · exact ⟨trivial, trivial, rfl, trivial, nofun, trivial, session⟩

/-- A call that failed and was not a commit ends the transaction and moves the
attempt to `broken` or `failed`. -/
theorem AttemptLocal.fails {o : DbOp} {error : Exn} (h : AttemptLocal env name item stage loc)
    (permitted : stage.permits env name item (.db o)) (fallible : Database.fallible o = true)
    (notCommit : o ≠ .commit) : AttemptLocal env name item (stage.next item (.db o) (.error error))
      { loc with tx := {} } := by
  have jobId := fun win => @AttemptStage.Windows.jobId _ _ _ _ win h.window
  obtain ⟨sound, write, document, result, window, scheduled, session⟩ := h
  cases o with
  | openSession => cases fallible
  | closeSession => cases fallible
  | commit => exact absurd rfl notCommit
  | executeClaim _ _ _ _ =>
    obtain ⟨rfl, -⟩ := AttemptStage.permits_executeClaim permitted
    exact ⟨trivial, trivial, rfl, trivial, jobId, trivial, session⟩
  | selectJob _ =>
    obtain ⟨rfl | rfl, -⟩ := AttemptStage.permits_selectJob permitted <;>
      exact ⟨trivial, trivial, rfl, trivial, jobId, trivial, session⟩
  | updateJob row current =>
    have flush := AttemptStage.permits_updateJob permitted
    cases stage <;> first
      | exact flush.elim
      | exact ⟨trivial, trivial, rfl, trivial, jobId, trivial, session⟩
      | exact ⟨trivial, trivial, rfl, trivial, jobId, scheduled, session⟩
  | insertResult _ =>
    obtain ⟨row, current, rfl, -⟩ := AttemptStage.permits_insertResult permitted
    exact ⟨trivial, trivial, rfl, trivial, jobId, scheduled, session⟩
  | rollback =>
    obtain rfl | ⟨row, rfl⟩ | rfl | rfl := AttemptStage.permits_rollback permitted
    · exact ⟨trivial, trivial, rfl, trivial, jobId, trivial, session⟩
    · exact ⟨trivial, trivial, rfl, trivial, jobId, scheduled, session⟩
    · exact ⟨trivial, trivial, rfl, trivial, jobId, scheduled, session⟩
    · exact ⟨trivial, trivial, rfl, trivial, jobId, scheduled, session⟩
  | selectDocument _ => cases stage <;> exact permitted.elim
  | insertDocument _ _ => cases stage <;> exact permitted.elim
  | insertJob _ => cases stage <;> exact permitted.elim

theorem AttemptLocal.runs {o : DbOp} {done : Database.Reply o}
    (h : AttemptLocal env name item stage loc) (keyed : w.db.Keyed)
    (permitted : stage.permits env name item (.db o)) (notCommit : o ≠ .commit)
    (did : w.db.run w.now ctx.thread loc.tx o = some done) :
    AttemptLocal env name item (stage.next item (.db o) done.answer)
      { (w.noteDb ctx loc o .ok).2 with tx := done.tx } := by
  have jobId := fun win => @AttemptStage.Windows.jobId _ _ _ _ win h.window
  obtain ⟨sound, write, document, result, window, scheduled, session⟩ := h
  cases o with
  | openSession =>
    obtain rfl := AttemptStage.permits_openSession permitted
    cases did
    exact ⟨trivial, trivial, rfl, trivial, window, scheduled, fun _ => rfl⟩
  | closeSession =>
    cases did
    obtain unsettled | ⟨how, rfl⟩ := AttemptStage.permits_closeSession permitted
    · cases stage <;> exact ⟨trivial, trivial, rfl, trivial, rfl, rfl, fun same => by cases same⟩
    · exact ⟨trivial, trivial, rfl, trivial, rfl, rfl, fun same => by cases same⟩
  | commit => exact absurd rfl notCommit
  | executeClaim id consumer started cut =>
    obtain ⟨rfl, rfl, rfl, rfl⟩ := AttemptStage.permits_executeClaim permitted
    simp only [Database.run] at did
    split at did
    · cases did
      exact ⟨trivial, write, document, result, window, scheduled, session⟩
    · rename_i row found
      split at did
      · rename_i claimable
        split at did <;> cases did
        exact ⟨trivial, ⟨keyed _ _ found, rfl, claimable⟩, document, result, window, scheduled, session⟩
      · cases did
        exact ⟨trivial, write, document, result, window, scheduled, session⟩
  | selectJob id =>
    cases did
    obtain ⟨rfl | rfl, rfl⟩ := AttemptStage.permits_selectJob permitted
    · dsimp only
      generalize answer : Option.bind _ _ = found
      obtain _ | ⟨row, content⟩ := found
      · exact ⟨trivial, write, document, result, jobId, trivial, session⟩
      · exact ⟨keyed _ _ (select_found answer), write, document, result, window, scheduled, session⟩
    · dsimp only
      generalize answer : Option.bind _ _ = found
      obtain _ | ⟨row, content⟩ := found
      · exact ⟨trivial, write, document, result, jobId, trivial, session⟩
      · exact ⟨keyed _ _ (select_found answer), write, document, result, window, scheduled, session⟩
  | updateJob row current =>
    have flush := AttemptStage.permits_updateJob permitted
    simp only [Database.run] at did
    split at did
    · cases did
      cases stage <;> first
        | exact flush.elim
        | exact ⟨trivial, trivial, rfl, trivial, jobId, trivial, session⟩
        | exact ⟨trivial, trivial, rfl, trivial, jobId, scheduled, session⟩
    · rename_i base found
      have same := keyed _ _ found
      split at did <;> cases did
      cases stage <;> first | exact flush.elim | obtain ⟨rfl, mark⟩ := flush
      · exact ⟨⟨sound, mark⟩, ⟨rfl, same, rfl⟩, document, result, jobId, scheduled, session⟩
      · exact ⟨⟨sound, mark⟩, ⟨rfl, same, rfl⟩, document, result, window, scheduled, session⟩
      · exact ⟨⟨sound, mark⟩, ⟨rfl, same, rfl⟩, document, result, jobId, scheduled, session⟩
      · exact ⟨⟨sound.1, mark.1, sound.2.1, mark.2, sound.2.2⟩, ⟨rfl, same, rfl⟩, document, result,
          jobId, scheduled, session⟩
      · exact ⟨⟨sound, mark⟩, ⟨rfl, same, rfl⟩, document, result, jobId, scheduled, session⟩
  | insertResult stored =>
    obtain ⟨row, current, rfl, owner⟩ := AttemptStage.permits_insertResult permitted
    simp only [Database.run] at did
    split at did <;> cases did
    · exact ⟨trivial, trivial, rfl, trivial, jobId, scheduled, session⟩
    · exact ⟨sound, write, document, owner.trans sound.1, window, scheduled, session⟩
  | rollback =>
    cases did
    obtain rfl | ⟨row, rfl⟩ | rfl | rfl := AttemptStage.permits_rollback permitted
    · exact ⟨trivial, trivial, rfl, trivial, window, scheduled, fun same => by cases same⟩
    · exact ⟨trivial, trivial, rfl, trivial, jobId, scheduled, session⟩
    · exact ⟨trivial, trivial, rfl, trivial, jobId, scheduled, session⟩
    · exact ⟨trivial, trivial, rfl, trivial, jobId, scheduled, session⟩
  | selectDocument _ => cases stage <;> exact permitted.elim
  | insertDocument _ _ => cases stage <;> exact permitted.elim
  | insertJob _ => cases stage <;> exact permitted.elim

theorem AttemptLocal.step {o : Op} {reply : Reply o} (h : AttemptLocal env name item stage loc)
    (keyed : w.db.Keyed) (permitted : stage.permits env name item o)
    (ran : o.execute env ctx w loc choice = some reply) :
    AttemptLocal env name item (stage.next item o reply.answer) reply.loc := by
  cases o with
  | db o =>
    by_cases notCommit : o = .commit
    · subst notCommit
      exact h.commit permitted ran
    · obtain ⟨-, done, did, rfl⟩ | ⟨error, -, fallible, -, rfl⟩ := execute_db ran notCommit
      · exact h.runs keyed permitted notCommit did
      · exact h.fails permitted fallible notCommit
  | redis o =>
    obtain ⟨sound, write, document, result, window, scheduled, session⟩ := h
    obtain ⟨row, eventId, score, rfl, rfl⟩ | ⟨how, rfl, rfl⟩ := AttemptStage.permits_redis permitted
    · obtain ⟨-, rfl⟩ | ⟨error, rfl, -, rfl⟩ | ⟨error, rfl, -, rfl⟩ := execute_redis ran
      · exact ⟨⟨sound.1, sound.2, eventId, rfl⟩, write, document, result, window, rfl, session⟩
      · exact ⟨sound.1, write, document, result, window, scheduled, session⟩
      · exact ⟨sound.1, write, document, result, window, rfl, session⟩
    · obtain ⟨-, rfl⟩ | ⟨error, rfl, -, rfl⟩ | ⟨error, rfl, -, rfl⟩ := execute_redis ran <;>
        exact ⟨trivial, write, document, result, window, scheduled, nofun⟩
  | runtime o =>
    have likely := execute_answers keyed ran
    obtain ⟨⟨world, answer⟩, did, rfl⟩ := execute_runtime ran
    obtain ⟨sound, write, document, result, window, scheduled, session⟩ := h
    obtain ⟨rfl, rfl⟩ | ⟨row, rfl, rfl, -⟩ | ⟨row, rfl, rfl, remaining⟩ | ⟨-, same, -⟩ :=
      AttemptStage.permits_runtime permitted
    · cases answer
      · exact likely.elim
      · exact ⟨sound, write, document, result, window, scheduled, session⟩
    · exact ⟨sound, write, document, result, window, scheduled, session⟩
    · cases answer
      · exact likely.elim
      · exact ⟨⟨sound, remaining⟩, write, document, result, window, scheduled, session⟩
    · rw [same]
      exact ⟨sound, write, document, result, window, scheduled, session⟩

theorem AttemptLocal.start (h : IdleLocal loc) : AttemptLocal env name item .start loc := by
  obtain ⟨tx, window, scheduled⟩ := h
  refine ⟨trivial, ?_, ?_, ?_, window, scheduled, nofun⟩ <;> rw [tx] <;> first | rfl | trivial

theorem AttemptLocal.finish (h : AttemptLocal env name item stage loc)
    (finished : stage.finished = true) : IdleLocal loc := by
  obtain ⟨-, write, document, result, window, scheduled, -⟩ := h
  obtain ⟨⟨document', write', result'⟩, openSession, win, event, listed⟩ := loc
  obtain rfl : document' = none := document
  cases stage <;> cases finished
  all_goals
    obtain _ | (_ | _ | _) := write' <;> first | exact write.elim | skip
    obtain _ | _ := result' <;> first | exact result.elim | skip
    exact ⟨rfl, window, scheduled⟩

end AttemptSteps

section RequestSteps
variable {request : Request} {stage : RequestStage}

theorem RequestLocal.commit {reply : Reply (.db .commit)}
    (h : RequestLocal env request stage loc)
    (permitted : stage.permits env request (.db .commit))
    (ran : Op.execute env ctx w loc (.db .commit) choice = some reply) :
    RequestLocal env request (stage.next (.db .commit) reply.answer) reply.loc := by
  obtain ⟨sound, write, document, result, window, scheduled⟩ := h
  obtain ⟨tx, openSession, win, event, listed⟩ := loc
  obtain ⟨document', write', result'⟩ := tx
  obtain ⟨row, rfl⟩ | ⟨row, current, rfl⟩ | ⟨row, current, rfl⟩ :=
    RequestStage.permits_commit permitted
  · obtain _ | (_ | _ | _) := write' <;> first | exact write.elim | skip
    obtain ⟨-, rfl⟩ | ⟨error, -, -, rfl⟩ | ⟨error, -, -, rfl⟩ := execute_commit ran
    · exact ⟨sound.2, trivial, rfl, rfl, window, rfl⟩
    · exact ⟨trivial, trivial, rfl, rfl, window, scheduled⟩
    · exact ⟨trivial, trivial, rfl, rfl, window, rfl⟩
  · obtain _ | (_ | _ | _) := write' <;> first | exact write.elim | skip
    obtain ⟨rfl, -, now, rfl⟩ := sound
    obtain ⟨-, rfl⟩ | ⟨error, -, -, rfl⟩ | ⟨error, -, -, rfl⟩ := execute_commit ran
    · refine ⟨fun jobId same => ?_, trivial, rfl, rfl, rfl, rfl⟩
      cases same
      exact ⟨rfl, rfl⟩
    · exact ⟨trivial, trivial, rfl, rfl, window, scheduled⟩
    · exact ⟨trivial, trivial, rfl, rfl, rfl, rfl⟩
  · obtain _ | (_ | _ | _) := write' <;> first | exact write.elim | skip
    obtain ⟨-, rfl⟩ | ⟨error, -, -, rfl⟩ | ⟨error, -, -, rfl⟩ := execute_commit ran
    · exact ⟨trivial, trivial, rfl, rfl, rfl, rfl⟩
    · exact ⟨trivial, trivial, rfl, rfl, window, scheduled⟩
    · exact ⟨trivial, trivial, rfl, rfl, rfl, rfl⟩

theorem RequestLocal.fails {o : DbOp} {error : Exn} (h : RequestLocal env request stage loc)
    (permitted : stage.permits env request (.db o)) (fallible : Database.fallible o = true)
    (notCommit : o ≠ .commit) : RequestLocal env request (stage.next (.db o) (.error error))
      { loc with tx := {} } := by
  obtain ⟨sound, write, document, result, window, scheduled⟩ := h
  cases o with
  | openSession => cases fallible
  | closeSession => cases fallible
  | commit => exact absurd rfl notCommit
  | executeClaim _ _ _ _ => exact (RequestStage.permits_executeClaim permitted).elim
  | selectJob _ =>
    obtain ⟨rfl, -⟩ | ⟨row, rfl⟩ := RequestStage.permits_selectJob permitted <;>
      exact ⟨trivial, trivial, rfl, rfl, window, scheduled⟩
  | updateJob row current =>
    have flush := RequestStage.permits_updateJob permitted
    cases stage <;> first
      | exact flush.elim
      | exact ⟨trivial, trivial, rfl, rfl, window, scheduled⟩
  | insertResult _ => exact (RequestStage.permits_insertResult permitted).elim
  | rollback =>
    cases stage <;> exact ⟨trivial, trivial, rfl, rfl, window, scheduled⟩
  | selectDocument _ =>
    obtain ⟨row, rfl⟩ := RequestStage.permits_selectDocument permitted
    exact ⟨trivial, trivial, rfl, rfl, window, scheduled⟩
  | insertDocument _ _ =>
    obtain ⟨row, rfl⟩ := RequestStage.permits_insertDocument permitted
    exact ⟨trivial, trivial, rfl, rfl, window, scheduled⟩
  | insertJob _ =>
    obtain ⟨_, _, rfl, -⟩ := RequestStage.permits_insertJob permitted
    exact ⟨trivial, trivial, rfl, rfl, window, scheduled⟩

theorem RequestLocal.runs {o : DbOp} {done : Database.Reply o}
    (h : RequestLocal env request stage loc) (keyed : w.db.Keyed)
    (permitted : stage.permits env request (.db o)) (notCommit : o ≠ .commit)
    (did : w.db.run w.now ctx.thread loc.tx o = some done) :
    RequestLocal env request (stage.next (.db o) done.answer)
      { (w.noteDb ctx loc o .ok).2 with tx := done.tx } := by
  obtain ⟨sound, write, document, result, window, scheduled⟩ := h
  cases o with
  | openSession =>
    obtain rfl := RequestStage.permits_openSession permitted
    cases did
    exact ⟨trivial, trivial, rfl, rfl, window, scheduled⟩
  | closeSession =>
    cases did
    obtain ⟨row, rfl⟩ | ⟨why, rfl⟩ := RequestStage.permits_closeSession permitted <;>
      exact ⟨sound, trivial, rfl, rfl, rfl, rfl⟩
  | commit => exact absurd rfl notCommit
  | executeClaim _ _ _ _ => exact (RequestStage.permits_executeClaim permitted).elim
  | selectJob id =>
    cases did
    obtain ⟨rfl, rfl⟩ | ⟨row, rfl⟩ := RequestStage.permits_selectJob permitted
    · dsimp only
      generalize answer : Option.bind _ _ = found
      obtain _ | ⟨row, content⟩ := found
      · exact ⟨trivial, write, document, result, window, scheduled⟩
      · have owner := keyed _ _ (select_found answer)
        exact ⟨congrArg Request.retry owner.symm, write, document, result, window, scheduled⟩
    · dsimp only
      generalize Option.bind _ _ = found
      obtain _ | ⟨row, content⟩ := found
      · exact ⟨trivial, write, document, result, window, scheduled⟩
      · exact ⟨sound, write, document, result, window, scheduled⟩
  | updateJob row current =>
    have flush := RequestStage.permits_updateJob permitted
    simp only [Database.run] at did
    split at did
    · cases did
      cases stage <;> first
        | exact flush.elim
        | exact ⟨trivial, trivial, rfl, rfl, window, scheduled⟩
    · rename_i base found
      have same := keyed _ _ found
      split at did <;> cases did
      cases stage <;> first | exact flush.elim | obtain ⟨rfl, mark⟩ := flush
      · exact ⟨⟨sound, mark⟩, ⟨rfl, same, rfl⟩, document, result, window, scheduled⟩
      · exact ⟨⟨sound, mark⟩, ⟨rfl, same, rfl⟩, document, result, window, scheduled⟩
  | insertResult _ => exact (RequestStage.permits_insertResult permitted).elim
  | rollback =>
    cases did
    cases stage <;> exact ⟨trivial, trivial, rfl, rfl, window, scheduled⟩
  | selectDocument id =>
    cases did
    obtain ⟨row, rfl⟩ := RequestStage.permits_selectDocument permitted
    cases w.db.documents id with
    | none => exact ⟨trivial, write, document, result, window, scheduled⟩
    | some content =>
      refine ⟨fun jobId same => ?_, write, document, result, window, scheduled⟩
      subst same
      cases sound
  | insertDocument id content =>
    cases did
    obtain ⟨jobId, rfl⟩ := RequestStage.permits_insertDocument permitted
    exact ⟨sound, write, ⟨content, rfl⟩, result, window, scheduled⟩
  | insertJob row =>
    obtain ⟨documentId, jobId, rfl, fresh⟩ := RequestStage.permits_insertJob permitted
    simp only [Database.run] at did
    split at did
    · cases did
      exact ⟨trivial, trivial, rfl, rfl, window, scheduled⟩
    · split at did <;> cases did
      obtain ⟨content, same⟩ := document
      obtain ⟨rfl, rfl, status, retryCount, maxRetries, startedAt⟩ := fresh
      exact ⟨⟨⟨rfl, rfl, status, retryCount, maxRetries, startedAt⟩, sound⟩, ⟨w.now, rfl⟩,
        ⟨content, same⟩, result, window, scheduled⟩

theorem RequestLocal.step {o : Op} {reply : Reply o} (h : RequestLocal env request stage loc)
    (keyed : w.db.Keyed) (permitted : stage.permits env request o)
    (ran : o.execute env ctx w loc choice = some reply) :
    RequestLocal env request (stage.next o reply.answer) reply.loc := by
  cases o with
  | db o =>
    by_cases notCommit : o = .commit
    · subst notCommit
      exact h.commit permitted ran
    · obtain ⟨-, done, did, rfl⟩ | ⟨error, -, fallible, -, rfl⟩ := execute_db ran notCommit
      · exact h.runs keyed permitted notCommit did
      · exact h.fails permitted fallible notCommit
  | redis o =>
    obtain ⟨sound, write, document, result, window, scheduled⟩ := h
    obtain ⟨row, eventId, event, rfl, rfl, -⟩ := RequestStage.permits_redis permitted
    obtain ⟨-, rfl⟩ | ⟨error, rfl, -, rfl⟩ | ⟨error, rfl, -, rfl⟩ := execute_redis ran <;>
      exact ⟨sound, write, document, result, window, scheduled⟩
  | runtime o =>
    have likely := execute_answers keyed ran
    obtain ⟨⟨world, answer⟩, did, rfl⟩ := execute_runtime ran
    obtain ⟨sound, write, document, result, window, scheduled⟩ := h
    obtain ⟨rfl, upload, _, _, rfl⟩ | ⟨rfl, rfl⟩ | ⟨_, rfl, rfl⟩ | ⟨_, rfl, rfl⟩ | ⟨-, same, -⟩ :=
      RequestStage.permits_runtime permitted
    · cases answer
      · exact ⟨trivial, write, document, result, window, scheduled⟩
      · exact ⟨upload, write, document, result, window, scheduled⟩
    · cases answer
      · exact likely.elim
      · exact ⟨sound, write, document, result, window, scheduled⟩
    · cases answer
      · exact likely.elim
      · exact ⟨sound, write, document, result, window, scheduled⟩
    · cases answer
      · exact likely.elim
      · exact ⟨sound, write, document, result, window, scheduled⟩
    · rw [same]
      exact ⟨sound, write, document, result, window, scheduled⟩

theorem RequestLocal.start (h : IdleLocal loc) : RequestLocal env request .start loc := by
  obtain ⟨tx, window, scheduled⟩ := h
  refine ⟨trivial, ?_, ?_, ?_, window, scheduled⟩ <;> rw [tx] <;> first | rfl | trivial

theorem RequestLocal.finish (h : RequestLocal env request stage loc)
    (finished : stage.finished = true) : IdleLocal loc := by
  obtain ⟨-, write, document, result, window, scheduled⟩ := h
  obtain ⟨⟨document', write', result'⟩, openSession, win, event, listed⟩ := loc
  obtain rfl : result' = none := result
  cases stage <;> cases finished
  all_goals
    obtain _ | (_ | _ | _) := write' <;> first | exact write.elim | skip
    obtain rfl : document' = none := document
    exact ⟨rfl, window, scheduled⟩

end RequestSteps

theorem IdleLocal.step {name : String} {task : Task} {stage : LoopStage} {o : Op}
    {reply : Reply o} (h : IdleLocal loc) (permitted : stage.permits env name task o)
    (ran : o.execute env ctx w loc choice = some reply) : IdleLocal reply.loc := by
  obtain ⟨tx, window, scheduled⟩ := h
  cases o with
  | db o => exact (LoopStage.permits_db permitted).elim
  | runtime o =>
    obtain ⟨_, -, rfl⟩ := execute_runtime ran
    exact ⟨tx, window, scheduled⟩
  | redis o =>
    have unscheduled : ∀ choice, (w.noteRedis ctx loc w.redis o choice).2.scheduled = none ∧
        (w.noteRedis ctx loc w.redis o choice).2.window = none ∧
        (w.noteRedis ctx loc w.redis o choice).2.tx = {} := by
      intro choice
      obtain ⟨-, -, rfl⟩ | ⟨-, -, _, rfl⟩ | ⟨_, -, -, rfl⟩ | ⟨_, _, _, _, _, -, -, rfl, -⟩ |
        ⟨_, _, -, -, rfl⟩ | ⟨_, -, -, rfl⟩ := LoopStage.permits_redis permitted <;>
        cases choice <;> exact ⟨scheduled, window, tx⟩
    obtain ⟨-, rfl⟩ | ⟨error, -, -, rfl⟩ | ⟨error, -, -, rfl⟩ := execute_redis ran
    all_goals
      obtain ⟨scheduled, window, tx⟩ := unscheduled _
      exact ⟨tx, window, scheduled⟩

end Steps
end DocumentPipeline

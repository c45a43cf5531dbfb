import DocumentPipeline.Events
import DocumentPipeline.Lib.Reserve

/-! Documents are inserted once, under an identifier that one request has drawn,
in the transaction of the first job that refers to them. So a committed document
never changes and the document of a committed job is always there. -/

namespace DocumentPipeline
open EffectProgram Transition Reserve

def RequestStage.documentId? : RequestStage → Option Nat
  | .named documentId | .keyed documentId _ | .documented documentId _ => some documentId
  | .inserted row => some row.documentId
  | _ => none

def Stage.documentId? : Stage → Option Nat
  | .request stage => stage.documentId?
  | _ => none

theorem first_documentId (c : Control) : c.first.documentId? = none := by
  cases c <;> rfl

def Local.stores (loc : Local) : (o : Op) → Choice → Option (Nat × Document)
  | .db .commit, .fails _ => none
  | .db .commit, _ => loc.tx.document
  | _, _ => none

theorem execute_documents {env : Env} {ctx : Context} {w : World} {loc : Local} {choice : Choice}
    {o : Op} {reply : Reply o} (h : o.execute env ctx w loc choice = some reply) :
    reply.world.db.documents = match loc.stores o choice with
      | none => w.db.documents
      | some (id, document) => Function.update w.db.documents id (some document) := by
  cases o with
  | runtime o =>
    obtain ⟨done, did, rfl⟩ := execute_runtime h
    exact congrArg Database.documents (runRuntime_stores did).1
  | redis o =>
    obtain ⟨-, rfl⟩ | ⟨error, -, -, rfl⟩ | ⟨error, -, -, rfl⟩ := execute_redis h
    all_goals exact congrArg Database.documents (noteRedis_stores w.redis o _).1
  | db o =>
    by_cases commit : o = .commit
    · subst commit
      obtain ⟨rfl, rfl⟩ | ⟨error, rfl, -, rfl⟩ | ⟨error, rfl, -, rfl⟩ := execute_commit h <;> rfl
    · have quiet : loc.stores (.db o) choice = none := by
        cases o <;> first | rfl | exact absurd rfl commit
      rw [quiet]
      obtain ⟨-, done, did, rfl⟩ | ⟨error, -, -, -, rfl⟩ := execute_db h commit
      · exact (Database.run_jobs did commit).2.1
      · rfl

def Write.KeepsDocument : Write → Prop
  | .insert _ => True
  | .claim base row | .update _ base row => row.documentId = base.documentId

theorem Consistent.keepsDocument {env : Env} {x : Staged} (consistent : Consistent env x) {t : Nat}
    {th : Thread} {write : Write} (found : x.1.threads[t]? = some th)
    (pending : th.loc.tx.write = some write) : write.KeepsDocument := by
  have lawful := consistent.lawful found pending
  cases write with
  | insert row => trivial
  | update loaded base row =>
    obtain ⟨current, rfl, -⟩ := lawful
    rfl
  | claim base row =>
    have facts := consistent.locals t th found
    revert facts
    cases th.control <;> cases x.2 t <;> intro facts <;> first
      | (rw [IdleLocal.tx facts] at pending
         cases pending)
      | skip
    · have writes := facts.write
      rw [pending] at writes
      rename_i stage
      cases stage <;> first | exact writes.elim | skip
      rw [writes.2.1]
      rfl
    · have writes := facts.write
      rw [pending] at writes
      exact writes.elim

section Commits
variable {env : Env} {x : Staged} {t : Nat} {choice : Choice} (call : Call env x t choice)

theorem stores_commit {loc : Local} {o : Op} {stored : Nat × Document}
    (h : loc.stores o choice = some stored) : o = .db .commit ∧ loc.tx.document = some stored := by
  cases o with
  | runtime o => cases h
  | redis o => cases h
  | db o => cases o <;> first | cases h | (cases choice <;> first | cases h | exact ⟨rfl, h⟩)

theorem Consistent.storing (consistent : Consistent env x) {id : Nat} {document : Document}
    (stored : call.thread.loc.stores call.o choice = some (id, document)) :
    ∃ request row, RequestCall call request (.inserted row) ∧ id = row.documentId := by
  obtain ⟨isCommit, pending⟩ := stores_commit stored
  obtain ⟨item, stage, is⟩ | ⟨request, stage, is⟩ | ⟨task, stage, is⟩ := consistent.kind call
  · rw [is.facts.document] at pending
    cases pending
  · have permitted := is.permitted
    have documents := is.facts.document
    rw [isCommit] at permitted
    obtain ⟨row, rfl⟩ | ⟨row, current, rfl⟩ | ⟨row, current, rfl⟩ := RequestStage.permits_commit permitted
    · obtain ⟨content, same⟩ := documents
      cases same.symm.trans pending
      exact ⟨request, row, is, rfl⟩
    · cases documents.symm.trans pending
    · cases documents.symm.trans pending
  · rw [is.facts.tx] at pending
    cases pending

theorem Consistent.inserting (consistent : Consistent env x) {row : ProcessingJob}
    (committed : call.thread.loc.commits call.o choice = some (.insert row)) :
    ∃ document, call.thread.loc.stores call.o choice = some (row.documentId, document) := by
  obtain ⟨isCommit, pending⟩ := commits_write committed
  obtain ⟨item, stage, is⟩ | ⟨request, stage, is⟩ | ⟨task, stage, is⟩ := consistent.kind call
  · have writes := is.facts.write
    rw [pending] at writes
    exact writes.elim
  · have writes := is.facts.write
    have documents := is.facts.document
    rw [pending] at writes
    cases stage <;> first | exact writes.elim | skip
    obtain ⟨now, rfl⟩ := writes
    obtain ⟨document, same⟩ := documents
    refine ⟨document, ?_⟩
    rw [isCommit] at committed ⊢
    cases choice <;> first | cases committed | exact same
  · rw [is.facts.tx] at pending
    cases pending

theorem RequestStage.next_documentId {stage : RequestStage} {request : Request} {o : Op}
    {answer : Except Exn o.Val} {id : Nat} (permitted : stage.permits env request o)
    (drawn : (stage.next o answer).documentId? = some id) : stage.documentId? = some id ∨
      o = .runtime .uuid4 ∧ HEq answer (Except.ok (ε := Exn) id) := by
  cases o with
  | redis o =>
    obtain ⟨row, eventId, event, rfl, rfl, -⟩ := RequestStage.permits_redis permitted
    cases answer <;> cases drawn
  | runtime o =>
    cases stage <;> cases o <;> first | exact permitted.elim | skip
    all_goals cases answer <;> cases drawn
    · exact .inr ⟨rfl, .rfl⟩
    · exact .inl rfl
  | db o =>
    cases o <;> cases stage <;> first | exact permitted.elim | skip
    all_goals rcases answer with _ | _ | _ <;> cases drawn
    · exact .inl rfl
    · exact .inl (congrArg some (FreshRow.documentId permitted).symm)

theorem documentId_call (consistent : Consistent env x) {id : Nat}
    (drawn : call.stage'.documentId? = some id) : (x.2 t).documentId? = some id ∨
      id = x.1.world.uuids ∧ call.world'.uuids = x.1.world.uuids + 1 := by
  obtain ⟨item, stage, is⟩ | ⟨request, stage, is⟩ | ⟨task, stage, is⟩ := consistent.kind call
  · obtain ⟨goes, -⟩ | ⟨-, goes⟩ := is.goes <;> rw [goes] at drawn
    · cases drawn
    · rw [first_documentId] at drawn
      cases drawn
  · obtain ⟨goes, -⟩ | ⟨-, goes, -⟩ := is.goes <;> rw [goes] at drawn
    · rw [is.staged]
      obtain kept | ⟨asked, answered⟩ := RequestStage.next_documentId is.permitted drawn
      · exact .inl kept
      · exact .inr (call.drew asked answered)
    · cases drawn
  · obtain ⟨goes, -⟩ | goes := is.goes <;> rw [goes] at drawn
    · cases drawn
    · rw [first_documentId] at drawn
      cases drawn

end Commits

/-- Documents stay as they are, and jobs stay with their documents. -/
structure Database.Grows (db db' : Database) : Prop where
  documents : ∀ id document, db.documents id = some document → db'.documents id = some document
  jobs : ∀ jobId row, db.jobs jobId = some row →
    ∃ row', db'.jobs jobId = some row' ∧ row'.documentId = row.documentId

structure Linked (x : Staged) : Prop where
  reserved : Reserved (fun t => (x.2 t).documentId?) x.1.world.uuids
  drawn : ∀ id document, x.1.world.db.documents id = some document → id < x.1.world.uuids
  unfiled : ∀ t id, (x.2 t).documentId? = some id → x.1.world.db.documents id = none
  linked : ∀ jobId row, x.1.world.db.jobs jobId = some row →
    (x.1.world.db.documents row.documentId).isSome = true

namespace Linked
variable {env : Env} {x : Staged}

section Calls
variable {t : Nat} {choice : Choice} (call : Call env x t choice)

theorem documents_call : call.world'.db.documents = match call.thread.loc.stores call.o choice with
    | none => x.1.world.db.documents
    | some (id, document) => Function.update x.1.world.db.documents id (some document) :=
  execute_documents call.ran

theorem jobs_call : call.world'.db.jobs = match call.thread.loc.commits call.o choice with
    | none => x.1.world.db.jobs
    | some write => Function.update x.1.world.db.jobs write.row.id (some write.row) :=
  execute_jobs call.ran

theorem grows_call (linked : Linked x) (consistent : Consistent env x) (locked : Locked x) :
    x.1.world.db.Grows call.world'.db where
  documents id document found := by
    rw [documents_call call]
    cases stored : call.thread.loc.stores call.o choice with
    | none => exact found
    | some pair =>
      obtain ⟨request, row, is, named⟩ := consistent.storing call stored
      refine (Function.update_of_ne ?_ _ _).trans found
      rintro rfl
      rw [named, linked.unfiled t row.documentId (by rw [is.staged]; rfl)] at found
      cases found
  jobs jobId row found := by
    rw [jobs_call call]
    cases committed : call.thread.loc.commits call.o choice with
    | none => exact ⟨row, found, rfl⟩
    | some write =>
      have pending := (commits_write committed).2
      have based := locked.based t _ write call.found pending
      have keeps := consistent.keepsDocument call.found pending
      by_cases own : jobId = write.row.id
      · subst own
        refine ⟨write.row, Function.update_self .., ?_⟩
        cases write with
        | insert _ => cases based.symm.trans found
        | _ =>
          cases based.symm.trans found
          exact keeps
      · exact ⟨row, (Function.update_of_ne own _ _).trans found, rfl⟩

theorem committed_documentId {request : Request} {row : ProcessingJob}
    (is : RequestCall call request (.inserted row)) (isCommit : call.o = .db .commit) :
    call.stage'.documentId? = none := by
  have next : ∀ {o : Op} (answer : Except Exn o.Val), o = .db .commit →
      ((RequestStage.inserted row).next o answer).documentId? = none := by
    rintro o answer rfl
    cases answer <;> rfl
  obtain ⟨goes, -⟩ | ⟨-, goes, -⟩ := is.goes
  · rw [goes]
    exact next _ isCommit
  · rw [goes]
    rfl

theorem act (linked : Linked x) (consistent : Consistent env x) (locked : Locked x) :
    Linked call.result := by
  have grows := linked.grows_call call consistent locked
  have more : x.1.world.uuids ≤ call.world'.uuids := execute_uuids call.ran
  have below_call : ∀ id document, call.world'.db.documents id = some document → id < x.1.world.uuids := by
    intro id document found
    rw [documents_call call] at found
    cases stored : call.thread.loc.stores call.o choice with
    | none =>
      rw [stored] at found
      exact linked.drawn id document found
    | some pair =>
      obtain ⟨request, row, is, named⟩ := consistent.storing call stored
      rw [stored] at found
      by_cases own : id = pair.1
      · exact linked.reserved.below t id (by rw [is.staged, own, named]; rfl)
      · exact linked.drawn id document ((Function.update_of_ne own _ _).symm.trans found)
  refine ⟨?_, fun id document found => ?_, fun t' id held => ?_, fun jobId row found => ?_⟩
  · refine linked.reserved.move more t (fun t' other => ?_) fun id held => ?_
    · exact congrArg Stage.documentId? (call.other_stage other)
    · exact documentId_call call consistent (by rwa [call.own_stage] at held)
  · exact (below_call id document found).trans_le more
  · have before : (x.2 t').documentId? = some id ∨ id = x.1.world.uuids := by
      by_cases own : t' = t
      · subst own
        rw [call.own_stage] at held
        exact (documentId_call call consistent held).imp_right And.left
      · exact .inl (by rwa [call.other_stage own] at held)
    by_contra filed
    obtain ⟨document, found⟩ := Option.ne_none_iff_exists'.mp filed
    have below := below_call id document found
    obtain earlier | rfl := before
    · have unfiled := linked.unfiled t' id earlier
      rw [show call.result.1.world = call.world' from rfl, documents_call call] at found
      cases stored : call.thread.loc.stores call.o choice with
      | none =>
        rw [stored] at found
        cases unfiled.symm.trans found
      | some pair =>
        obtain ⟨request, row, is, named⟩ := consistent.storing call stored
        rw [stored] at found
        by_cases own : id = pair.1
        · have holds : (x.2 t).documentId? = some id := by rw [is.staged, own, named]; rfl
          obtain rfl := linked.reserved.apart t' t id earlier holds
          rw [call.own_stage] at held
          rw [committed_documentId call is (stores_commit stored).1] at held
          cases held
        · cases unfiled.symm.trans ((Function.update_of_ne own _ _).symm.trans found)
    · exact absurd below (Nat.lt_irrefl _)
  · have kept : ∀ row : ProcessingJob, (x.1.world.db.documents row.documentId).isSome = true →
        (call.world'.db.documents row.documentId).isSome = true := by
      intro row isThere
      obtain ⟨document, there⟩ := Option.isSome_iff_exists.mp isThere
      rw [grows.documents _ document there]
      rfl
    rw [show call.result.1.world = call.world' from rfl, jobs_call call] at found
    cases committed : call.thread.loc.commits call.o choice with
    | none =>
      rw [committed] at found
      exact kept row (linked.linked jobId row found)
    | some write =>
      rw [committed] at found
      have pending := (commits_write committed).2
      by_cases own : jobId = write.row.id
      · subst own
        have found : Function.update x.1.world.db.jobs write.row.id (some write.row) write.row.id =
          some row := found
        rw [Function.update_self] at found
        obtain rfl := Option.some.inj found
        cases write with
        | insert row =>
          obtain ⟨document, stored⟩ := consistent.inserting call committed
          rw [show call.result.1.world = call.world' from rfl, documents_call call, stored]
          change (Function.update x.1.world.db.documents row.documentId (some document)
            row.documentId).isSome = true
          rw [Function.update_self]
          rfl
        | _ =>
          have based := locked.based t _ _ call.found pending
          have same := consistent.keepsDocument call.found pending
          exact kept _ (same ▸ linked.linked _ _ based)
      · exact kept row (linked.linked jobId row ((Function.update_of_ne own _ _).symm.trans found))

end Calls

theorem grows (linked : Linked x) (consistent : Consistent env x) (locked : Locked x) {x' : Staged}
    {label : Label} (move : Move env x label x') : x.1.world.db.Grows x'.1.world.db := by
  obtain ⟨t, choice, call, -, rfl⟩ | noCall := move.call_or
  · exact linked.grows_call call consistent locked
  · have rests := move.rests noCall
    exact ⟨fun _ _ found => by rwa [rests.documents],
      fun _ row found => ⟨row, by rwa [rests.jobs], rfl⟩⟩

theorem undisturbed (linked : Linked x) {x' : Staged} {label : Label} (move : Move env x label x')
    (noCall : ∀ t choice, label ≠ .act t choice) : Linked x' := by
  have rests := move.rests noCall
  have held : ∀ t id, (x'.2 t).documentId? = some id → (x.2 t).documentId? = some id := by
    intro t id held
    obtain same | ⟨c, first⟩ := move.stage noCall t
    · rwa [same] at held
    · rw [first, first_documentId] at held
      cases held
  refine ⟨linked.reserved.fewer rests.uuids.ge held, fun id document found => ?_, fun t id is => ?_,
    fun jobId row found => ?_⟩
  · rw [rests.documents] at found
    rw [rests.uuids]
    exact linked.drawn id document found
  · rw [rests.documents]
    exact linked.unfiled t id (held t id is)
  · rw [rests.jobs] at found
    rw [rests.documents]
    exact linked.linked jobId row found

theorem init : Linked (System.init, fun _ => .resting) where
  reserved := .empty (fun _ => rfl) _
  drawn _ _ found := by cases found
  unfiled _ _ held := by cases held
  linked _ _ found := by cases found

end Linked

theorem StagedRun.linked {env : Env} {guard : Guard} {x : Staged} (h : StagedRun env guard x) :
    Linked x := by
  refine h.invariant Linked.init fun _ _ _ reached linked stepped _ => ?_
  have consistent := StagedRun.consistent reached
  obtain ⟨t, choice, call, -, rfl⟩ | noCall := (move_of_step stepped).call_or
  · exact linked.act call consistent (StagedRun.locked reached)
  · exact linked.undisturbed (move_of_step stepped) noCall

end DocumentPipeline

import DocumentPipeline.Linkage
import DocumentPipeline.FilingProtocol

/-! A file is written once, under the name of a UUID that one request has drawn,
and before its document is inserted. So the bytes a committed document refers
to are in place at every point where an upload can end. -/

namespace DocumentPipeline
open EffectProgram Transition Reserve

section Stores
variable {env : Env} {ctx : Context} {w : World} {loc : Local} {choice : Choice}

/-- The file that a call leaves behind, whatever the client saw. -/
def Op.writes : Op → Choice → Option (List String × Bytes)
  | .runtime (.writeBytes path data), choice => if choice.applied then some (path, data) else none
  | _, _ => none

theorem noteDb_files (o : DbOp) (choice : Choice) : (w.noteDb ctx loc o choice).1.files = w.files := by
  cases o with
  | commit =>
    cases pending : loc.tx.write with
    | none => cases choice <;> simp only [World.noteDb, pending]
    | some write =>
      cases choice <;> simp only [World.noteDb, pending] <;> cases write <;> rfl
  | _ => cases choice <;> rfl

theorem noteRedis_files (r : Redis) (o : RedisOp) (choice : Choice) :
    (w.noteRedis ctx loc r o choice).1.files = w.files := by
  cases o <;> cases choice <;> rfl

theorem execute_files {o : Op} {reply : Reply o} (h : o.execute env ctx w loc choice = some reply) :
    reply.world.files = match o.writes choice with
      | none => w.files
      | some (path, data) => Function.update w.files path (some data) := by
  cases o with
  | db o =>
    by_cases commit : o = .commit
    · subst commit
      obtain ⟨rfl, rfl⟩ | ⟨error, rfl, -, rfl⟩ | ⟨error, rfl, -, rfl⟩ := execute_commit h
      · exact noteDb_files .commit .ok
      · rfl
      · exact noteDb_files .commit (.lost error)
    · obtain ⟨rfl, done, did, rfl⟩ | ⟨error, -, -, -, rfl⟩ := execute_db h commit
      · exact noteDb_files o .ok
      · rfl
  | redis o =>
    obtain ⟨-, rfl⟩ | ⟨error, -, -, rfl⟩ | ⟨error, -, -, rfl⟩ := execute_redis h
    all_goals exact noteRedis_files w.redis o _
  | runtime o =>
    obtain ⟨done, did, rfl⟩ := execute_runtime h
    cases o <;> cases choice <;> simp only [World.runRuntime, reduceCtorEq, Option.some.injEq] at did
    all_goals first
      | (subst did; rfl)
      | skip
    · subst did
      cases ctx.item <;> rfl
    · split at did <;> cases did
      rfl
    · split at did <;> cases did <;> rfl

theorem writeBytes_ok {path : List String} {data : Bytes} {reply : Reply (.runtime (.writeBytes path data))}
    (h : Op.execute env ctx w loc (.runtime (.writeBytes path data)) choice = some reply)
    (ok : reply.answer = .ok ()) : reply.world.files = Function.update w.files path (some data) := by
  obtain ⟨done, did, rfl⟩ := execute_runtime h
  cases choice <;> cases did <;> first | rfl | cases ok

theorem execute_inserts {o : Op} {reply : Reply o} (h : o.execute env ctx w loc choice = some reply)
    {id : Nat} {document : Document} (pending : reply.loc.tx.document = some (id, document)) :
    loc.tx.document = some (id, document) ∨ o = .db (.insertDocument id document) := by
  cases o with
  | runtime o =>
    obtain ⟨done, did, rfl⟩ := execute_runtime h
    exact .inl pending
  | redis o =>
    obtain ⟨-, rfl⟩ | ⟨error, -, -, rfl⟩ | ⟨error, -, -, rfl⟩ := execute_redis h
    all_goals
      left
      cases o <;> cases choice <;> exact pending
  | db o =>
    by_cases commit : o = .commit
    · subst commit
      obtain ⟨rfl, rfl⟩ | ⟨error, rfl, -, rfl⟩ | ⟨error, rfl, -, rfl⟩ := execute_commit h <;> cases pending
    · obtain ⟨rfl, done, did, rfl⟩ | ⟨error, -, -, -, rfl⟩ := execute_db h commit
      · dsimp only at pending
        cases o with
        | commit => exact absurd rfl commit
        | insertDocument id' document' =>
          cases did
          cases pending
          exact .inr rfl
        | _ =>
          simp only [Database.run] at did
          repeat' split at did
          all_goals cases did <;> first | exact .inl pending | cases pending
      · cases pending

end Stores

theorem Move.files {env : Env} {x x' : Staged} {label : Label} (move : Move env x label x')
    (noCall : ∀ t choice, label ≠ .act t choice) : x'.1.world.files = x.1.world.files := by
  cases move with
  | act call => exact absurd rfl (noCall _ _)
  | _ => rfl

namespace FilingStage
variable {env : Env} {stage : FilingStage} {o : Op} {answer : Except Exn o.Val}

theorem next_fileId {uuid : Nat} (holds : (stage.next o answer).fileId? = some uuid) :
    stage.fileId? = some uuid ∨ o = .runtime .uuid4 ∧ HEq answer (Except.ok (ε := Exn) uuid) := by
  revert holds
  unfold next
  split <;> intro holds
  all_goals first
    | exact .inl holds
    | cases holds
  exact .inr ⟨rfl, .rfl⟩

theorem next_upload {upload : ValidatedUpload} (holds : (stage.next o answer).upload? = some upload) :
    stage.upload? = some upload := by
  revert holds
  unfold next
  split <;> intro holds
  all_goals first
    | exact holds
    | cases holds

theorem next_filed {upload : ValidatedUpload} {uuid : Nat} {today : Time}
    (reached : stage.next o answer = .filed upload uuid today) : stage = .filed upload uuid today ∨
      stage = .dated upload uuid today ∧ ∃ path data, o = .runtime (.writeBytes path data) ∧
        HEq answer (Except.ok (ε := Exn) ()) := by
  revert reached
  unfold next
  split <;> intro reached
  all_goals first
    | exact .inl reached
    | cases reached
  exact .inr ⟨rfl, _, _, rfl, .rfl⟩

theorem next_known {jobId documentId : Nat} {document : Document}
    (reached : stage.next o answer = .known jobId documentId document) :
    stage = .known jobId documentId document ∨
      (∃ (id : Nat) (row : ProcessingJob), o = .db (.selectJob id) ∧
        HEq answer (Except.ok (ε := Exn) (some (row, document))) ∧ row.id = jobId ∧
          row.documentId = documentId) ∨
      ∃ id before, o = .db (.selectDocument id) ∧
        HEq answer (Except.ok (ε := Exn) (some document)) ∧ stage = .known jobId documentId before := by
  revert reached
  unfold next
  split <;> intro reached
  all_goals first
    | exact .inl reached
    | cases reached
  · exact .inr (.inl ⟨_, _, rfl, .rfl, rfl, rfl⟩)
  · exact .inr (.inr ⟨_, _, rfl, .rfl, rfl⟩)

end FilingStage

/-- A committed job and its document. -/
def Database.Knows (db : Database) (jobId documentId : Nat) (document : Document) : Prop :=
  ∃ row, db.jobs jobId = some row ∧ row.documentId = documentId ∧ db.documents documentId = some document

theorem Database.Knows.grow {db db' : Database} {jobId documentId : Nat} {document : Document}
    (h : db.Knows jobId documentId document) (grows : db.Grows db') :
    db'.Knows jobId documentId document := by
  obtain ⟨row, found, rfl, content⟩ := h
  obtain ⟨row', found', same⟩ := grows.jobs _ _ found
  exact ⟨row', found', same, grows.documents _ _ content⟩

def World.KeepsFiles (w w' : World) : Prop :=
  ∀ path data, w.files path = some data → w'.files path = some data

/-- The stored bytes of a document are those of an upload that passed the gate,
and its key ends in the extension that was validated. -/
structure InCustody (env : Env) (w : World) (document : Document) (upload : ValidatedUpload) : Prop where
  accepted : ∃ file, env.uploadGate file = .ok upload
  stored : ∃ path, FileStorage.resolve env.storageRoot document.storagePath = .ok path ∧
    w.files path = some upload.data
  fileSize : document.fileSize = upload.data.length
  checksum : document.checksum = env.sha256Hex upload.data
  extension : FileStorage.suffix document.storedFilename = upload.extension

theorem InCustody.keep {env : Env} {w w' : World} {document : Document} {upload : ValidatedUpload}
    (h : InCustody env w document upload) (kept : w.KeepsFiles w') : InCustody env w' document upload := by
  obtain ⟨path, resolved, there⟩ := h.stored
  exact { h with stored := ⟨path, resolved, kept path _ there⟩ }

abbrev Filings := Nat → FilingStage

structure Shelved (env : Env) (x : Staged) (g : Filings) : Prop where
  conforms : ∀ (t : Nat) (th : Thread) (request : Request) (p : Prog Routes.ApiResponse),
    x.1.threads[t]? = some th → th.control = .serving request p → filing env p (fun _ _ => True) (g t)
  reserved : Reserved (fun t => (g t).fileId?) x.1.world.uuids
  named : ∀ path, (x.1.world.files path).isSome = true →
    ∃ uuid < x.1.world.uuids, FileStorage.NamedBy uuid path
  unwritten : ∀ t uuid, (g t).fileId? = some uuid → ∀ path, FileStorage.NamedBy uuid path →
    x.1.world.files path = none
  accepted : ∀ t upload, (g t).upload? = some upload → ∃ file, env.uploadGate file = .ok upload
  filed : ∀ t upload uuid today, g t = .filed upload uuid today → ∃ path,
    FileStorage.resolve env.storageRoot (storedAs env upload uuid today).storagePath = .ok path ∧
      x.1.world.files path = some upload.data
  known : ∀ t jobId documentId document, g t = .known jobId documentId document →
    x.1.world.db.Knows jobId documentId document
  pending : ∀ (t : Nat) (th : Thread) (id : Nat) (document : Document), x.1.threads[t]? = some th →
    th.loc.tx.document = some (id, document) → ∃ upload, InCustody env x.1.world document upload
  documents : ∀ id document, x.1.world.db.documents id = some document →
    ∃ upload, InCustody env x.1.world document upload

def Env.GatesExtensions (env : Env) : Prop :=
  ∀ file upload, env.uploadGate file = .ok upload → IsExtension upload.extension

structure Files {env : Env} {x : Staged} {t : Nat} {choice : Choice} (call : Call env x t choice)
    (stage stage' : FilingStage) : Prop where
  conforms : ∀ (request : Request) (p : Prog Routes.ApiResponse),
    call.thread'.control = .serving request p → filing env p (fun _ _ => True) stage'
  writes : ∀ path data, call.o.writes choice = some (path, data) → ∃ upload uuid today,
    stage = .dated upload uuid today ∧ data = upload.data ∧ stage'.fileId? = none ∧
      FileStorage.resolve env.storageRoot (storedAs env upload uuid today).storagePath = .ok path
  inserts : ∀ id document, call.o = .db (.insertDocument id document) → ∃ upload uuid today,
    stage = .filed upload uuid today ∧ document.Describes (storedAs env upload uuid today)
  fileId : ∀ uuid, stage'.fileId? = some uuid → stage.fileId? = some uuid ∨
    uuid = x.1.world.uuids ∧ call.world'.uuids = x.1.world.uuids + 1
  upload : ∀ upload, stage'.upload? = some upload → stage.upload? = some upload
  filed : ∀ upload uuid today, stage' = .filed upload uuid today → stage = .filed upload uuid today ∨
    ∃ path, FileStorage.resolve env.storageRoot (storedAs env upload uuid today).storagePath = .ok path ∧
      call.world'.files path = some upload.data
  known : ∀ jobId documentId document, stage' = .known jobId documentId document →
    x.1.world.db.Knows jobId documentId document

section Calls
variable {env : Env} {x : Staged} {g : Filings} {t : Nat} {choice : Choice} (call : Call env x t choice)

theorem selectJob_answer {ctx : Context} {w : World} {loc : Local} {id : Nat} {row : ProcessingJob}
    {document : Document} {reply : Reply (.db (.selectJob id))} (keyed : w.db.Keyed)
    (h : Op.execute env ctx w loc (.db (.selectJob id)) choice = some reply)
    (found : reply.answer = .ok (some (row, document))) :
    w.db.Knows row.id row.documentId document := by
  obtain ⟨stored, content⟩ := execute_selectJob h found
  exact ⟨row, keyed id row stored ▸ stored, rfl, content⟩

theorem selectDocument_answer {ctx : Context} {w : World} {loc : Local} {id : Nat}
    {document : Document} {reply : Reply (.db (.selectDocument id))}
    (h : Op.execute env ctx w loc (.db (.selectDocument id)) choice = some reply)
    (found : reply.answer = .ok (some document)) : w.db.documents id = some document := by
  obtain ⟨-, done, did, rfl⟩ | ⟨error, -, -, -, rfl⟩ := execute_db h nofun
  · cases did
    exact Except.ok.inj found
  · cases found

/-- Attempts and loops leave the files and the documents alone. -/
theorem Files.other (unserved : ∀ request p, call.thread'.control ≠ .serving request p)
    (writes : call.o.writes choice = none)
    (inserts : ∀ id document, call.o ≠ .db (.insertDocument id document)) {stage : FilingStage}
    (known : ∀ jobId documentId document, stage = .known jobId documentId document →
      x.1.world.db.Knows jobId documentId document) : Files call stage stage where
  conforms request p serves := absurd serves (unserved request p)
  writes path data is := by cases writes.symm.trans is
  inserts id document is := absurd is (inserts id document)
  fileId _ := .inl
  upload _ := id
  filed _ _ _ := .inl
  known := known

theorem AttemptCall.files {call : Call env x t choice} {item : DeliveredEvent} {stage : AttemptStage}
    (is : AttemptCall call item stage) (shelved : Shelved env x g) : Files call (g t) (g t) := by
  have permitted := is.permitted
  refine .other call (fun request p serves => ?_) ?_ (fun id document isOp => ?_) (shelved.known t)
  · obtain ⟨loop, rest, _, p', -, reached⟩ := is.control
    cases reached.symm.trans (Control.settle_serving serves)
  · revert permitted
    cases call.o with
    | runtime o =>
      cases o <;> intro permitted <;> first
        | rfl
        | (cases stage <;> exact permitted.elim)
    | _ => exact fun _ => rfl
  · rw [isOp] at permitted
    cases stage <;> exact permitted.elim

theorem LoopCall.files {call : Call env x t choice} {task : Task} {stage : LoopStage}
    (is : LoopCall call task stage) (shelved : Shelved env x g) : Files call (g t) (g t) := by
  have permitted := is.permitted
  refine .other call (fun request p serves => ?_) ?_ (fun id document isOp => ?_) (shelved.known t)
  · have runs := is.control.2.1
    rw [Control.settle_serving serves] at runs
    cases runs
  · revert permitted
    cases call.o with
    | runtime o =>
      intro permitted
      obtain ⟨-, -, rfl⟩ := LoopStage.permits_runtime permitted
      rfl
    | _ => exact fun _ => rfl
  · rw [isOp] at permitted
    exact LoopStage.permits_db permitted

theorem RequestCall.files {call : Call env x t choice} {request : Request} {stage : RequestStage}
    (is : RequestCall call request stage) (consistent : Consistent env x) (shelved : Shelved env x g) :
    (g t).permits env call.o ∧ Files call (g t) ((g t).next call.o call.reply.answer) := by
  have likely := consistent.answers call
  obtain ⟨p, p', control, reached⟩ := is.control
  have conforms := shelved.conforms t _ request p call.found control
  clear is
  obtain ⟨thread, o, next, reply, found, waits, ran⟩ := call
  rw [control] at waits
  cases p <;> cases waits
  obtain ⟨permitted, onward⟩ := conforms
  have permitted : (g t).permits env o := permitted
  refine ⟨permitted, ?_, ?_, ?_, ?_, fun upload => FilingStage.next_upload, ?_, ?_⟩
  · intro request' p serves
    cases reached.symm.trans (Control.settle_serving serves)
    cases reached
    exact onward _ _ ⟨likely, rfl⟩
  · intro path data writes
    cases o with
    | runtime o =>
      cases o <;> first | cases writes | skip
      simp only [Op.writes] at writes
      split at writes <;> cases writes
      obtain ⟨upload, uuid, today, dated, is, resolved⟩ := permitted
      refine ⟨upload, uuid, today, dated, is, ?_, resolved⟩
      rw [dated]
      rcases reply with ⟨_, _, _ | _⟩ <;> rfl
    | _ => cases writes
  · rintro id document rfl
    exact permitted
  · intro uuid holds
    obtain kept | ⟨asked, answered⟩ := FilingStage.next_fileId holds
    · exact .inl kept
    · exact .inr (Call.drew ⟨thread, o, _, reply, found, by rw [control]; rfl, ran⟩ asked answered)
  · intro upload uuid today filed
    obtain kept | ⟨dated, path, data, rfl, answered⟩ := FilingStage.next_filed filed
    · exact .inl kept
    · obtain ⟨upload', uuid', today', dated', rfl, resolved⟩ := permitted
      cases dated.symm.trans dated'
      refine .inr ⟨path, resolved, ?_⟩
      change reply.world.files path = _
      rw [writeBytes_ok ran (eq_of_heq answered), Function.update_self]
  · intro jobId documentId document known
    obtain kept | ⟨id, row, rfl, answered, rfl, rfl⟩ | ⟨id, before, rfl, answered, earlier⟩ :=
      FilingStage.next_known known
    · exact shelved.known t _ _ _ kept
    · exact selectJob_answer consistent.keyed ran (eq_of_heq answered)
    · obtain ⟨jobId', before', same⟩ := permitted
      cases earlier.symm.trans same
      obtain ⟨row, isRow, names, -⟩ := shelved.known t _ _ _ earlier
      exact ⟨row, isRow, names, selectDocument_answer ran (eq_of_heq answered)⟩

theorem Shelved.files (shelved : Shelved env x g) (consistent : Consistent env x) :
    ∃ stage', Files call (g t) stage' := by
  obtain ⟨item, stage, is⟩ | ⟨request, stage, is⟩ | ⟨task, stage, is⟩ := consistent.kind call
  · exact ⟨_, is.files shelved⟩
  · exact ⟨_, (is.files consistent shelved).2⟩
  · exact ⟨_, is.files shelved⟩

section Filed
variable {call} (shelved : Shelved env x g) (proper : env.GatesExtensions) {stage' : FilingStage}
  (files : Files call (g t) stage')
include shelved proper files

theorem Shelved.written {path : List String} {data : Bytes}
    (writes : call.o.writes choice = some (path, data)) : ∃ uuid, (g t).fileId? = some uuid ∧
      FileStorage.NamedBy uuid path ∧ x.1.world.files path = none ∧ stage'.fileId? = none := by
  obtain ⟨upload, uuid, today, dated, -, spent, resolved⟩ := files.writes path data writes
  have holds : (g t).fileId? = some uuid := by rw [dated]; rfl
  obtain ⟨file, accepted⟩ := shelved.accepted t upload (by rw [dated]; rfl)
  have extension := proper file upload accepted
  have named : FileStorage.NamedBy uuid path := ⟨upload.extension, extension,
    FileStorage.resolve_last (FileStorage.name_plain extension) (FileStorage.name_proper extension) resolved⟩
  exact ⟨uuid, holds, named, shelved.unwritten t uuid holds path named, spent⟩

theorem Shelved.keeps : x.1.world.KeepsFiles call.world' := by
  intro path data there
  have after : call.world'.files = _ := execute_files call.ran
  rw [after]
  cases writes : call.o.writes choice with
  | none => exact there
  | some written =>
    obtain ⟨uuid, -, -, absent, -⟩ := shelved.written proper files writes
    refine (Function.update_of_ne ?_ _ _).trans there
    rintro rfl
    cases absent.symm.trans there

theorem Shelved.inserted {id : Nat} {document : Document} (isOp : call.o = .db (.insertDocument id document)) :
    ∃ upload, InCustody env x.1.world document upload := by
  obtain ⟨upload, uuid, today, filed, describes⟩ := files.inserts id document isOp
  obtain ⟨file, passed⟩ := shelved.accepted t upload (by rw [filed]; rfl)
  obtain ⟨path, resolved, there⟩ := shelved.filed t upload uuid today filed
  refine ⟨upload, ⟨file, passed⟩, ⟨path, describes.storagePath ▸ resolved, there⟩, describes.fileSize,
    describes.checksum, ?_⟩
  rw [describes.storedFilename]
  exact FileStorage.suffix_name (proper file upload passed)

private abbrev refiled (t : Nat) (g : Filings) (stage' : FilingStage) : Filings := Function.update g t stage'

omit shelved proper in
theorem Files.held {t' uuid : Nat} (holds : (refiled t g stage' t').fileId? = some uuid) :
    (g t').fileId? = some uuid ∨ uuid = x.1.world.uuids ∧ call.world'.uuids = x.1.world.uuids + 1 := by
  by_cases same : t' = t
  · subst same
    exact files.fileId uuid (by rwa [refiled, Function.update_self] at holds)
  · exact .inl (by rwa [refiled, Function.update_of_ne same] at holds)

theorem Shelved.named_call {path : List String} (there : (call.world'.files path).isSome = true) :
    ∃ uuid < call.world'.uuids, FileStorage.NamedBy uuid path := by
  have more : x.1.world.uuids ≤ call.world'.uuids := execute_uuids call.ran
  have after : call.world'.files = _ := execute_files call.ran
  have kept : (x.1.world.files path).isSome = true →
      ∃ uuid < call.world'.uuids, FileStorage.NamedBy uuid path := fun old => by
    obtain ⟨uuid, below, named⟩ := shelved.named path old
    exact ⟨uuid, below.trans_le more, named⟩
  rw [after] at there
  cases writes : call.o.writes choice with
  | none => exact kept (by rwa [writes] at there)
  | some written =>
    obtain ⟨uuid, holds, named, -⟩ := shelved.written proper files writes
    by_cases same : path = written.1
    · exact ⟨uuid, (shelved.reserved.below t uuid holds).trans_le more, same ▸ named⟩
    · rw [writes] at there
      exact kept ((Function.update_of_ne same _ x.1.world.files) ▸ there)

theorem Shelved.unwritten_call {t' uuid : Nat} (holds : (refiled t g stage' t').fileId? = some uuid)
    {path : List String} (named : FileStorage.NamedBy uuid path) : call.world'.files path = none := by
  have after : call.world'.files = _ := execute_files call.ran
  have absent : x.1.world.files path = none := by
    obtain old | ⟨rfl, -⟩ := files.held holds
    · exact shelved.unwritten t' uuid old path named
    · by_contra there
      obtain ⟨uuid', below, named'⟩ := shelved.named path (Option.isSome_iff_ne_none.mpr there)
      rw [named.unique named'] at below
      exact absurd below (Nat.lt_irrefl _)
  rw [after]
  cases writes : call.o.writes choice with
  | none => exact absent
  | some written =>
    obtain ⟨uuid', holds', named', -, spent⟩ := shelved.written proper files writes
    refine (Function.update_of_ne ?_ _ _).trans absent
    rintro rfl
    obtain rfl := named.unique named'
    by_cases same : t' = t
    · subst same
      rw [refiled, Function.update_self, spent] at holds
      cases holds
    · rw [refiled, Function.update_of_ne same] at holds
      exact same (shelved.reserved.apart t' t uuid holds holds')

theorem Shelved.pending_call {id : Nat} {document : Document}
    (pending : call.reply.loc.tx.document = some (id, document)) :
    ∃ upload, InCustody env call.world' document upload := by
  have keeps := shelved.keeps proper files
  obtain old | isOp := execute_inserts call.ran pending
  · obtain ⟨upload, custody⟩ := shelved.pending t _ id document call.found old
    exact ⟨upload, custody.keep keeps⟩
  · obtain ⟨upload, custody⟩ := shelved.inserted proper files isOp
    exact ⟨upload, custody.keep keeps⟩

theorem Shelved.documents_call {id : Nat} {document : Document}
    (found : call.world'.db.documents id = some document) :
    ∃ upload, InCustody env call.world' document upload := by
  have keeps := shelved.keeps proper files
  have kept : x.1.world.db.documents id = some document →
      ∃ upload, InCustody env call.world' document upload := fun old => by
    obtain ⟨upload, custody⟩ := shelved.documents id document old
    exact ⟨upload, custody.keep keeps⟩
  rw [Linked.documents_call call] at found
  cases stored : call.thread.loc.stores call.o choice with
  | none => exact kept (by rwa [stored] at found)
  | some pair =>
    rw [stored] at found
    by_cases same : id = pair.1
    · subst same
      have found : Function.update x.1.world.db.documents pair.1 (some pair.2) pair.1 = some document := found
      rw [Function.update_self] at found
      obtain rfl := Option.some.inj found
      obtain ⟨upload, custody⟩ := shelved.pending t _ _ _ call.found (stores_commit stored).2
      exact ⟨upload, custody.keep keeps⟩
    · exact kept ((Function.update_of_ne same _ _).symm.trans found)

end Filed

theorem Shelved.act (shelved : Shelved env x g) (proper : env.GatesExtensions)
    (consistent : Consistent env x) (grows : x.1.world.db.Grows call.world'.db) :
    ∃ g', Shelved env call.result g' := by
  obtain ⟨stage', files⟩ := shelved.files call consistent
  have keeps := shelved.keeps proper files
  have own : refiled t g stage' t = stage' := Function.update_self ..
  have other : ∀ {t'}, t' ≠ t → refiled t g stage' t' = g t' :=
    fun apart => Function.update_of_ne apart ..
  refine ⟨refiled t g stage', ?_, ?_, fun path => shelved.named_call proper files,
    fun t' uuid holds path => shelved.unwritten_call proper files holds, ?_, ?_, ?_, ?_,
    fun id document => shelved.documents_call proper files⟩
  · intro t' th request p found serves
    obtain ⟨rfl, rfl⟩ | ⟨apart, isFound⟩ := call.threads_result found
    · rw [own]
      exact files.conforms request p serves
    · rw [other apart]
      exact shelved.conforms t' th request p isFound serves
  · exact shelved.reserved.move (execute_uuids call.ran) t (fun t' apart => by rw [other apart])
      fun uuid holds => files.held holds
  · intro t' upload holds
    by_cases same : t' = t
    · subst same
      exact shelved.accepted t' upload (files.upload upload (own ▸ holds))
    · exact shelved.accepted t' upload (other same ▸ holds)
  · intro t' upload uuid today filed
    have old : g t' = .filed upload uuid today ∨ ∃ path,
        FileStorage.resolve env.storageRoot (storedAs env upload uuid today).storagePath = .ok path ∧
          call.world'.files path = some upload.data := by
      by_cases same : t' = t
      · subst same
        exact files.filed upload uuid today (own ▸ filed)
      · exact .inl (other same ▸ filed)
    obtain before | stored := old
    · obtain ⟨path, resolved, there⟩ := shelved.filed t' upload uuid today before
      exact ⟨path, resolved, keeps path _ there⟩
    · exact stored
  · intro t' jobId documentId document known
    by_cases same : t' = t
    · subst same
      exact (files.known _ _ _ (own ▸ known)).grow grows
    · exact (shelved.known t' _ _ _ (other same ▸ known)).grow grows
  · intro t' th id document found pending
    obtain ⟨rfl, rfl⟩ | ⟨apart, isFound⟩ := call.threads_result found
    · exact shelved.pending_call proper files pending
    · obtain ⟨upload, custody⟩ := shelved.pending t' th id document isFound pending
      exact ⟨upload, custody.keep keeps⟩

end Calls

theorem FilingStage.first_upload {env : Env} {request : Request} {upload : ValidatedUpload}
    (holds : (first env request).upload? = some upload) : ∃ file, env.uploadGate file = .ok upload := by
  cases request with
  | retry jobId => cases holds
  | upload file documentType =>
    refine ⟨file, ?_⟩
    simp only [first, upload?] at holds
    cases passed : env.uploadGate file with
    | error error =>
      rw [passed] at holds
      cases holds
    | ok other =>
      rw [passed] at holds
      cases holds
      rfl

theorem serve_filing {env : Env} {request request' : Request} {p : Prog Routes.ApiResponse}
    (serves : Control.serve env request = .serving request' p) :
    filing env p (fun _ _ => True) (FilingStage.first env request') := by
  cases request with
  | upload file documentType =>
    cases serves
    exact uploadDocument_filing env file documentType
  | retry jobId =>
    cases serves
    exact retryJob_filing env jobId _

def Filings.renew (env : Env) (g : Filings) (x x' : Staged) : Filings := fun t =>
  match x.1.threads[t]?, (x'.1.threads[t]?).map Thread.control with
  | none, some (Control.serving request _) => FilingStage.first env request
  | _, _ => g t

namespace Shelved
variable {env : Env} {x x' : Staged} {g : Filings}

theorem renew_cases (env : Env) (g : Filings) (x x' : Staged) (t : Nat) :
    g.renew env x x' t = g t ∨ ∃ request, g.renew env x x' t = FilingStage.first env request := by
  unfold Filings.renew
  split
  · exact .inr ⟨_, rfl⟩
  · exact .inl rfl

theorem undisturbed {label : Label} (shelved : Shelved env x g) (consistent : Consistent env x)
    (move : Move env x label x') (noCall : ∀ t choice, label ≠ .act t choice) :
    Shelved env x' (g.renew env x x') := by
  have rests := move.rests noCall
  have files := move.files noCall
  have keeps : x.1.world.KeepsFiles x'.1.world := fun path data there => files ▸ there
  have grows : x.1.world.db.Grows x'.1.world.db :=
    ⟨fun _ _ found => by rwa [rests.documents], fun _ row found => ⟨row, by rwa [rests.jobs], rfl⟩⟩
  have held : ∀ t uuid, (g.renew env x x' t).fileId? = some uuid → (g t).fileId? = some uuid := by
    intro t uuid holds
    obtain same | ⟨request, first⟩ := renew_cases env g x x' t
    · rwa [same] at holds
    · rw [first] at holds
      cases request <;> cases holds
  refine ⟨?_, shelved.reserved.fewer rests.uuids.ge held, fun path there => ?_,
    fun t uuid holds path named => ?_, fun t upload holds => ?_, fun t upload uuid today filed => ?_,
    fun t jobId documentId document known => ?_, fun t th id document found pending => ?_,
    fun id document found => ?_⟩
  · intro t th request p found serves
    obtain ⟨isFound, -⟩ | ⟨-, loop, control, -⟩ | ⟨unborn, request', control, -⟩ |
      ⟨_, loop, -, -, rfl, -⟩ | ⟨choice, -, labelled, -⟩ | ⟨_, -, -, rfl, -⟩ := move.thread found
    · simp only [Filings.renew, isFound]
      exact shelved.conforms t th request p isFound serves
    · cases control.symm.trans serves
    · simp only [Filings.renew, unborn, found, Option.map_some, serves]
      exact serve_filing (control.symm.trans serves)
    · cases loop <;> cases serves
    · exact absurd labelled (noCall t choice)
    · cases serves
  · rw [rests.uuids]
    exact shelved.named path (files ▸ there)
  · rw [files]
    exact shelved.unwritten t uuid (held t uuid holds) path named
  · obtain same | ⟨request, first⟩ := renew_cases env g x x' t
    · exact shelved.accepted t upload (same ▸ holds)
    · exact FilingStage.first_upload (first ▸ holds)
  · obtain same | ⟨request, first⟩ := renew_cases env g x x' t
    · rw [files]
      exact shelved.filed t upload uuid today (same ▸ filed)
    · cases request <;> cases first.symm.trans filed
  · obtain same | ⟨request, first⟩ := renew_cases env g x x' t
    · exact (shelved.known t _ _ _ (same ▸ known)).grow grows
    · cases request <;> cases first.symm.trans known
  · obtain ⟨isFound, -⟩ | ⟨idle, -⟩ := consistent.threads move noCall found
    · obtain ⟨upload, custody⟩ := shelved.pending t th id document isFound pending
      exact ⟨upload, custody.keep keeps⟩
    · rw [idle.tx] at pending
      cases pending
  · rw [rests.documents] at found
    obtain ⟨upload, custody⟩ := shelved.documents id document found
    exact ⟨upload, custody.keep keeps⟩

theorem init : Shelved env (System.init, fun _ => .resting) fun _ => .start none where
  conforms _ _ _ _ found := by cases found
  reserved := .empty (fun _ => rfl) _
  named _ there := by cases there
  unwritten _ _ holds := by cases holds
  accepted _ _ holds := by cases holds
  filed _ _ _ _ filed := by cases filed
  known _ _ _ _ known := by cases known
  pending _ _ _ _ found := by cases found
  documents _ _ found := by cases found

end Shelved

theorem StagedRun.shelved {env : Env} {guard : Guard} (proper : env.GatesExtensions) {x : Staged}
    (h : StagedRun env guard x) : ∃ g, Shelved env x g := by
  refine Reach.invariant (I := fun x => ∃ g, Shelved env x g) ⟨_, Shelved.init⟩
    (fun _ _ _ reached shelved stepped _ => ?_) h
  obtain ⟨g, shelved⟩ := shelved
  have consistent := StagedRun.consistent reached
  obtain ⟨t, choice, call, -, rfl⟩ | noCall := (move_of_step stepped).call_or
  · exact shelved.act call proper consistent
      ((StagedRun.linked reached).grows_call call consistent (StagedRun.locked reached))
  · exact ⟨_, shelved.undisturbed consistent (move_of_step stepped) noCall⟩

end DocumentPipeline

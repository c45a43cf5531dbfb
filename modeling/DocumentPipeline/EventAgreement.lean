import DocumentPipeline.Custody
import DocumentPipeline.Retrying
import DocumentPipeline.StoredResults
import DocumentPipeline.UploadGate

/-! An event names a job and repeats the key and the type of its document. The
copy stays right through every republication and every retry, because the rows
it repeats never change; so what a worker reads is the file of the job's own
document. -/

namespace DocumentPipeline
open EffectProgram Transition Queue JobService Processor

/-- The database knows the job and the document that an event names. -/
def Database.Agrees (db : Database) (event : DocumentProcessingEvent) : Prop :=
  ∃ jobId documentId document, db.Knows jobId documentId document ∧
    event.Names jobId documentId document

theorem Database.Agrees.grow {db db' : Database} {event : DocumentProcessingEvent}
    (h : db.Agrees event) (grows : db.Grows db') : db'.Agrees event := by
  obtain ⟨jobId, documentId, document, knows, names⟩ := h
  exact ⟨jobId, documentId, document, knows.grow grows, names⟩

theorem Database.Agrees.nextAttempt {db : Database} {event : DocumentProcessingEvent}
    (h : db.Agrees event) (eventId : Nat) : db.Agrees (event.nextAttempt eventId) := by
  obtain ⟨jobId, documentId, document, knows, names⟩ := h
  exact ⟨jobId, documentId, document, knows, names.jobId, names.documentId, names.storagePath,
    names.requestedDocumentType⟩

def EventsAgree (x : Staged) : Prop := ∀ event, 0 < copies x event → x.1.world.db.Agrees event

section Copies
variable {x : Staged} {event : DocumentProcessingEvent}

theorem copies_of_entry (unique : Unique x) {fields : StreamFields}
    (mem : fields ∈ x.1.world.redis.entries) (is : fields.data = some (.event event)) :
    0 < copies x event := by
  have published := List.count_pos_iff.mpr (unique.entries fields mem event is)
  simp only [copies]
  omega

theorem copies_of_retry {score : ℚ} (mem : (.event event, score) ∈ x.1.world.redis.retry) :
    0 < copies x event := by
  have scheduled : 0 < (x.1.world.redis.retry.map (·.1)).count (.event event) :=
    List.count_pos_iff.mpr (List.mem_map.mpr ⟨_, mem, rfl⟩)
  simp only [copies]
  omega

theorem EventsAgree.delivered (agree : EventsAgree x) (unique : Unique x) {item : DeliveredEvent}
    (delivered : x.1.world.redis.Delivered item) : x.1.world.db.Agrees item.event := by
  obtain ⟨fields, ⟨isEntry, -⟩, decoded⟩ := delivered
  exact agree item.event (copies_of_entry unique (List.mem_of_getElem? isEntry) (decodeOne_version decoded).1)

end Copies

namespace EventsAgree
variable {env : Env} {x : Staged} {g : Filings}

theorem announced {t : Nat} {choice : Choice} {call : Call env x t choice} {request : Request}
    {stage : RequestStage} {event : DocumentProcessingEvent} (is : RequestCall call request stage)
    (consistent : Consistent env x) (shelved : Shelved env x g)
    (publishes : call.o.publishes choice = [event]) : x.1.world.db.Agrees event := by
  have permitted := (is.files consistent shelved).1
  generalize call.o = o at permitted publishes
  cases o with
  | redis o =>
    cases o with
    | xadd fields =>
      obtain ⟨jobId, documentId, document, event', known, rfl, names⟩ := permitted
      simp only [Op.publishes] at publishes
      split at publishes <;> cases publishes
      exact ⟨jobId, documentId, document, shelved.known t _ _ _ known, names⟩
    | _ => cases publishes
  | _ => cases publishes

theorem act {t : Nat} {choice : Choice} (call : Call env x t choice) (agree : EventsAgree x)
    (consistent : Consistent env x) (deliveries : Deliveries x) (unique : Unique x)
    (shelved : Shelved env x g) (grows : x.1.world.db.Grows call.world'.db) : EventsAgree call.result := by
  intro event copied
  refine Database.Agrees.grow ?_ grows
  obtain fewer | ⟨-, -, ⟨item, row, eventId, is, rfl⟩ | ⟨request, row, eventId, is, -, publishes⟩⟩ :=
    copies_source call consistent event
  · exact agree event (copied.trans_le fewer)
  · obtain ⟨loop, rest, p, p', control, -⟩ := is.control
    have handled : item ∈ call.thread.control.items := by
      rw [control]
      exact List.mem_cons_self
    exact (agree.delivered unique (deliveries.items t _ call.found item handled)).nextAttempt eventId
  · exact announced is consistent shelved publishes

theorem undisturbed {x' : Staged} {label : Label} (agree : EventsAgree x) (consistent : Consistent env x)
    (move : Move env x label x') (noCall : ∀ t choice, label ≠ .act t choice)
    (grows : x.1.world.db.Grows x'.1.world.db) : EventsAgree x' := by
  intro event copied
  refine (agree event (copied.trans_le ?_)).grow grows
  have held := total_undisturbed (f := fun th _ => th.control.held.count event) consistent move
    noCall fun th _ none_ => by rw [none_]; rfl
  have published : x'.1.world.published = x.1.world.published :=
    congrArg (List.filterMap _) (move.rests noCall).history
  simp only [copies, published, (move.rests noCall).redis]
  omega

end EventsAgree

theorem StagedRun.eventsAgree {env : Env} {guard : Guard} (proper : env.GatesExtensions) {x : Staged}
    (h : StagedRun env guard x) : EventsAgree x := by
  refine Reach.invariant (I := EventsAgree) (fun event copied => by cases copied)
    (fun x label x' reached agree stepped _ => ?_) h
  have consistent := StagedRun.consistent reached
  have grows := (StagedRun.linked reached).grows consistent (StagedRun.locked reached)
    (move_of_step stepped)
  obtain ⟨g, shelved⟩ := StagedRun.shelved proper reached
  obtain ⟨t, choice, call, -, rfl⟩ | noCall := (move_of_step stepped).call_or
  · exact agree.act call consistent (StagedRun.deliveries reached) (StagedRun.unique reached) shelved grows
  · exact agree.undisturbed consistent (move_of_step stepped) noCall grows

def Op.misreads (env : Env) (event : DocumentProcessingEvent) : Op → Prop
  | .runtime (.readBytes path) => FileStorage.resolve env.storageRoot event.storagePath ≠ .ok path
  | _ => False

section Reads
variable {env : Env} {event : DocumentProcessingEvent}

theorem reads_of_quiet {α : Type} {p : Prog α} (quiet : p.Avoids beyondBookkeeping) :
    p.Avoids (Op.misreads env event) := by
  refine quiet.fewer fun o misreads => ?_
  unfold Op.misreads at misreads
  split at misreads
  · trivial
  · exact misreads.elim

theorem read_reads : (FileStorage.read env event.storagePath).Avoids (Op.misreads env event) := by
  unfold FileStorage.read
  cases resolved : FileStorage.resolve env.storageRoot event.storagePath with
  | error error => trivial
  | ok target =>
    refine .tryCatch (.perform fun misreads => misreads resolved) fun error => ?_
    split
    · trivial
    · split <;> trivial

theorem persist_reads (job : JobObject) (output : ExtractionOutput) (text : Text) :
    (persist env job output text).Avoids (Op.misreads env event) := by
  refine .bind (.lift _) fun loaded => .bind ?_ fun completed =>
    .tryCatch (.bind (.perform nofun) fun _ => .bind (.perform nofun) fun _ => .perform nofun) fun error => ?_
  · exact .bind (.lift _) fun _ => .bind (.lift _) fun _ => .bind (.perform nofun) fun _ => trivial
  · split
    · exact .bind (.bind (.perform nofun) fun _ => trivial) fun job => .bind (.lift _) fun _ => trivial
    · trivial

theorem run_reads (job : JobObject) : (run env job event).Avoids (Op.misreads env event) := by
  refine .bind (.perform nofun) fun _ => .bind read_reads fun data => .bind (.lift _) fun text =>
    .bind ?_ fun documentType => .bind (.perform nofun) fun output =>
      .bind (persist_reads _ _ _) fun _ => trivial
  unfold resolveType
  split
  · trivial
  · exact .bind (.perform nofun) fun _ => trivial

theorem handle_reads (name : String) (item : DeliveredEvent) :
    (handle env name item).Avoids (Op.misreads env item.event) := by
  have processed : (process env name item).Avoids (Op.misreads env item.event) := by
    refine .bind (.perform nofun) fun _ => .andFinally ?_ (.perform nofun)
    refine .bind (reads_of_quiet (claimJob_quiet _ _ _)) fun claimed => ?_
    cases claimed with
    | none => trivial
    | some job =>
      dsimp only
      split
      · exact .bind (reads_of_quiet (markFailed_quiet _ _)) fun _ => trivial
      · exact .tryCatch (run_reads job) fun error => reads_of_quiet (handleFailure_quiet job error)
  refine .bind (.tryCatch (.bind processed fun _ => trivial) fun _ => trivial) fun outcome => ?_
  cases outcome with
  | none => trivial
  | some outcome =>
    refine .bind (.tryCatch (.perform nofun) fun error => ?_) fun _ => trivial
    split <;> trivial

def System.ReadsOwn (env : Env) (s : System) : Prop :=
  ∀ (t : Nat) (th : Thread) (loop : Loop) (item : DeliveredEvent) (rest : List DeliveredEvent)
    (p : Prog (Option ProcessingOutcome)), s.threads[t]? = some th →
    th.control = .handling loop item rest p → p.Avoids (Op.misreads env item.event)

theorem settle_handling {name : String} {c : Control} {loop : Loop} {item : DeliveredEvent}
    {rest : List DeliveredEvent} {p : Prog (Option ProcessingOutcome)}
    (handles : c.settle env name = .handling loop item rest p) :
    c = .handling loop item rest p ∨ p = handle env name item := by
  have next : ∀ {loop' items}, Control.takeNext env name loop' items = .handling loop item rest p →
      p = handle env name item := by
    intro loop' items is
    cases items <;> cases is
    rfl
  have publish : ∀ events, Control.publishNext events ≠ .handling loop item rest p := by
    intro events
    cases events <;> nofun
  have again : ∀ loop' error, Control.afterError loop' error ≠ .handling loop item rest p := by
    intro loop' error
    unfold Control.afterError
    split <;> nofun
  cases c with
  | idle loop => cases handles
  | stopped => cases handles
  | fetching loop p =>
    cases p <;> first | exact .inr (next handles) | exact absurd handles (again _ _) | cases handles
  | handling loop item rest p =>
    cases p <;> first | exact .inr (next handles) | exact .inl handles | cases handles
  | popping p =>
    cases p <;> first | exact absurd handles (publish _) | exact absurd handles (again _ _) | cases handles
  | publishing event rest p =>
    cases p <;> first | exact absurd handles (publish _) | exact absurd handles (again _ _) | cases handles
  | serving request p => cases p <;> cases handles

theorem StagedRun.readsOwn {guard : Guard} {x : Staged} (h : StagedRun env guard x) :
    x.1.ReadsOwn env := by
  refine Reach.invariant (I := fun x => x.1.ReadsOwn env) (fun _ _ _ _ _ _ found => by cases found)
    (fun x label x' reached reads stepped _ => ?_) h
  intro t th loop item rest p found handles
  obtain ⟨isFound, -⟩ | ⟨-, loop', control, -⟩ | ⟨-, request, control, -⟩ |
    ⟨_, loop', -, -, rfl, -⟩ | ⟨choice, call, -, -, rfl, -⟩ | ⟨_, -, -, rfl, -⟩ :=
    (move_of_step stepped).thread found
  · exact reads t th loop item rest p isFound handles
  · cases control.symm.trans handles
  · rw [control] at handles
    cases request <;> cases handles
  · cases loop' <;> cases handles
  · obtain reached | rfl := settle_handling handles
    · obtain ⟨⟨proc, name, control, loc⟩, o, next, reply, isFound, waits, ran⟩ := call
      cases control <;> first | cases waits | skip
      all_goals
        rename_i program
        cases program <;> cases waits
        cases reached
      exact (reads t _ loop item rest _ isFound rfl).2 reply.answer
    · exact handle_reads _ item
  · cases handles

end Reads

def Env.extractingAs (env : Env) (extension : String) : Env :=
  { env with extractText := fun data _ => env.extractText data extension }

/-- What a worker that handles an event finds: the job's document, in custody,
its file where the attempt reads, and the extractor of the validated extension. -/
def Handleable (env : Env) (w : World) (event : DocumentProcessingEvent) (c : Control) : Prop :=
  ∃ row document upload, w.db.jobs event.jobId = some row ∧
    w.db.documents row.documentId = some document ∧ InCustody env w document upload ∧
    (∀ ctx path next, c.next? = some ⟨.runtime (.readBytes path), next⟩ →
      w.runRuntime env ctx (.readBytes path) .ok = some (w, .ok upload.data)) ∧
    ∀ job : JobObject, job.document = document →
      run env job event = run (env.extractingAs upload.extension) job event

theorem run_extractingAs {env : Env} {job : JobObject} {event : DocumentProcessingEvent} {extension : String}
    (suffix : FileStorage.suffix job.document.storedFilename = extension) :
    run env job event = run (env.extractingAs extension) job event := by
  subst suffix
  rfl

theorem Reached.handleable {env : Env} (proper : env.GatesExtensions) {guard : Guard} {s : System}
    (h : Reached env guard s) {t : Nat} {th : Thread} {item : DeliveredEvent}
    (found : s.threads[t]? = some th) (handles : th.control.item? = some item) :
    Handleable env s.world item.event th.control := by
  obtain ⟨stages, staged⟩ := h.staged
  obtain ⟨g, shelved⟩ := StagedRun.shelved proper staged
  obtain ⟨proc, name, control, loc⟩ := th
  cases control <;> cases handles
  rename_i loop rest p
  have delivered := (StagedRun.deliveries staged).items t _ found item List.mem_cons_self
  obtain ⟨jobId, documentId, document, ⟨row, isRow, rfl, isDocument⟩, names⟩ :=
    (StagedRun.eventsAgree proper staged).delivered (StagedRun.unique staged) delivered
  obtain ⟨upload, custody⟩ := shelved.documents _ document isDocument
  refine ⟨row, document, upload, names.jobId ▸ isRow, isDocument, custody, fun ctx path next waits => ?_,
    fun job same => run_extractingAs (same ▸ custody.extension)⟩
  obtain ⟨target, resolved, there⟩ := custody.stored
  have own := StagedRun.readsOwn staged t _ loop item rest p found rfl
  cases p <;> cases waits
  have reads : FileStorage.resolve env.storageRoot item.event.storagePath = .ok path :=
    Classical.not_not.mp own.1
  cases resolved.symm.trans (names.storagePath ▸ reads)
  have there : s.world.files path = some upload.data := there
  simp only [World.runRuntime, there]

/-- Every committed job has its document and every document its file, and every
event on the stream or in the retry set repeats the database; so a worker finds
the file and takes the extractor of the extension that was validated. -/
theorem custody_kept (env : Env) (unicode : FileValidation.Unicode) (settings : FileValidation.UploadSettings)
    (ascii : unicode.LowersAscii) (s : System) (h : Reached (env.withUploadGate unicode settings) anyRun s) :
    let deployed := env.withUploadGate unicode settings
    (∀ id document, s.world.db.documents id = some document →
      ∃ upload, InCustody deployed s.world document upload) ∧
    (∀ jobId row, s.world.db.jobs jobId = some row →
      ∃ document, s.world.db.documents row.documentId = some document) ∧
    (∀ event, (∃ fields ∈ s.world.redis.entries, fields.data = some (.event event)) ∨
        (∃ score, (.event event, score) ∈ s.world.redis.retry) → s.world.db.Agrees event) ∧
    ∀ (t : Nat) (th : Thread) (item : DeliveredEvent), s.threads[t]? = some th →
      th.control.item? = some item → Handleable deployed s.world item.event th.control := by
  intro deployed
  have proper : deployed.GatesExtensions := fun file upload =>
    FileValidation.uploadGate_extension ascii
  obtain ⟨stages, staged⟩ := h.staged
  obtain ⟨g, shelved⟩ := StagedRun.shelved proper staged
  have agree := StagedRun.eventsAgree proper staged
  refine ⟨shelved.documents, fun jobId row found => ?_, fun event isThere => ?_,
    fun t th item found handles => Reached.handleable proper h found handles⟩
  · exact Option.isSome_iff_exists.mp ((StagedRun.linked staged).linked jobId row found)
  · obtain ⟨fields, mem, is⟩ | ⟨score, mem⟩ := isThere
    · exact agree event (copies_of_entry (StagedRun.unique staged) mem is)
    · exact agree event (copies_of_retry mem)

theorem custody_kept_txt : ∃ s document upload,
    Reached (sampleEnv.withUploadGate asciiUnicode {}) anyRun s ∧
      s.world.db.documents 1 = some document ∧
      InCustody (sampleEnv.withUploadGate asciiUnicode {}) s.world document upload := by
  obtain ⟨s, h, stored⟩ := Reached.exists_run (sampleEnv.withUploadGate asciiUnicode {}) anyRun
    (fun _ _ _ => true) (fun s => (s.world.db.documents 1).isSome) (fun _ _ _ _ => trivial)
    (.receive 0 (.upload ⟨some "a.txt", some "text/plain", [[104, 105]]⟩ none) :: Label.oks 0 9)
    (by decide +kernel)
  obtain ⟨document, isDocument⟩ := Option.isSome_iff_exists.mp stored
  obtain ⟨upload, custody⟩ := (custody_kept sampleEnv asciiUnicode {} (fun _ _ => rfl) s h).1 1 document isDocument
  exact ⟨s, document, upload, h, isDocument, custody⟩

end DocumentPipeline

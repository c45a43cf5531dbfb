import DocumentPipeline.EventIdentity
import DocumentPipeline.EventAgreement
import DocumentPipeline.SerialRows

/-! What an answered request has done to the stream. No request issues a second
XADD, so none publishes twice; and a request that is accepted has published the
event of the job it names, which agrees with the committed rows from then on. -/

namespace DocumentPipeline
open EffectProgram Transition Queue Routes JobService

/-- Whether a request has issued its XADD, and what is known of its effect. -/
inductive Announcement
  | unsent
  | sent (event : DocumentProcessingEvent)
  | unsure

namespace Announcement

def Allows : Announcement → List DocumentProcessingEvent → Prop
  | .unsent, published => published = []
  | .sent event, published => published = [event]
  | .unsure, published => published.length ≤ 1

def permits : Announcement → Op → Prop
  | .unsent, .redis (.xadd fields) => ∃ event, fields = toStreamFields event
  | _, .redis (.xadd _) => False
  | _, _ => True

def next : Announcement → (o : Op) → Except Exn o.Val → Announcement
  | _, .redis (.xadd ⟨some (.event event)⟩), .ok _ => .sent event
  | _, .redis (.xadd _), _ => .unsure
  | announcement, _, _ => announcement

theorem Allows.atMostOne {announcement : Announcement} {published : List DocumentProcessingEvent}
    (h : announcement.Allows published) : published.length ≤ 1 := by
  cases announcement with
  | unsent => exact (congrArg List.length h).trans_le (Nat.zero_le 1)
  | sent event => exact (congrArg List.length h).le
  | unsure => exact h

end Announcement

def Op.appends : Op → Prop
  | .redis (.xadd _) => True
  | _ => False

section Calls
variable {announcement : Announcement} {o : Op}

theorem permits_of_silent (silent : ¬o.appends) : announcement.permits o := by
  unfold Announcement.permits
  split
  · exact absurd trivial silent
  · exact absurd trivial silent
  · trivial

theorem next_of_silent (silent : ¬o.appends) (reply : Except Exn o.Val) :
    announcement.next o reply = announcement := by
  unfold Announcement.next
  split
  · exact absurd trivial silent
  · exact absurd trivial silent
  · rfl

theorem publishes_of_silent (silent : ¬o.appends) (choice : Choice) : o.publishes choice = [] := by
  unfold Op.publishes
  split
  · exact absurd trivial silent
  · rfl

theorem Announcement.Allows.execute {env : Env} {ctx : Context} {w : World} {loc : Local} {choice : Choice}
    {reply : Reply o} {published : List DocumentProcessingEvent} (allows : announcement.Allows published)
    (permitted : announcement.permits o) (ran : o.execute env ctx w loc choice = some reply) :
    (announcement.next o reply.answer).Allows (o.publishes choice ++ published) := by
  by_cases appends : o.appends
  · cases o with
    | runtime o => exact appends.elim
    | db o => exact appends.elim
    | redis o =>
      cases o with
      | xadd fields =>
        cases announcement with
        | unsent =>
          obtain ⟨event, rfl⟩ := permitted
          cases allows
          obtain ⟨rfl, rfl⟩ | ⟨error, rfl, -, rfl⟩ | ⟨error, rfl, -, rfl⟩ := execute_redis ran
          · rfl
          · exact Nat.zero_le 1
          · exact Nat.le_refl 1
        | sent event => exact permitted.elim
        | unsure => exact permitted.elim
      | _ => exact appends.elim
  · rw [next_of_silent appends, publishes_of_silent appends]
    exact allows

end Calls

/-- The event of the job that a response names. -/
def Routes.ApiResponse.Describes : ApiResponse → DocumentProcessingEvent → Prop
  | .jobRetry jobId _ _, event => event.jobId = jobId
  | .uploadAccepted documentId jobId _, event => event.jobId = jobId ∧ event.documentId = documentId

abbrev announces {α : Type} (p : Prog α) (Q : Except Exn α → Announcement → Prop)
    (announcement : Announcement) : Prop :=
  wp (.tracking Announcement.permits (fun _ _ => True) Announcement.next) p Q announcement

def Supports (r : Except Exn ApiResponse) (announcement : Announcement) : Prop :=
  ∀ response, r = .ok response → ∃ event, announcement = .sent event ∧ response.Describes event

section Requests
variable {α : Type} {announcement : Announcement}

theorem announces_of_silent {p : Prog α} (silent : p.Avoids Op.appends) :
    announces p (fun _ last => last = announcement) announcement := by
  refine silent.wp (I := (· = announcement)) (fun _ o _ quiet => permits_of_silent quiet) ?_ rfl
  rintro _ o reply _ rfl quiet ⟨-, rfl⟩
  exact next_of_silent quiet reply

theorem flushAndCommit_silent (loaded current : ProcessingJob) :
    (flushAndCommit loaded current).Avoids Op.appends :=
  .bind (.perform id) fun _ => .perform id

theorem markFailed_silent (job : JobObject) (message : String) :
    (markFailed job message).Avoids Op.appends :=
  .bind (.lift _) fun _ => .bind (.lift _) fun _ => .bind (.perform id) fun _ =>
    .bind (flushAndCommit_silent _ _) fun _ => trivial

theorem getJob_silent (jobId : Nat) : (getJob jobId).Avoids Op.appends := by
  refine .bind (.perform id) fun found => ?_
  split <;> trivial

theorem resetForManualRetry_silent (job : JobObject) : (resetForManualRetry job).Avoids Op.appends :=
  .bind (.lift _) fun _ => .bind (.lift _) fun _ => .bind (.perform id) fun _ =>
    .bind (flushAndCommit_silent _ _) fun _ => trivial

theorem save_silent (env : Env) (data : Bytes) (extension : String) :
    (FileStorage.save env data extension).Avoids Op.appends := by
  refine .bind (.perform id) fun _ => .bind (.perform id) fun _ => .bind (.lift _) fun _ =>
    .bind (.tryCatch (.perform id) fun error => ?_) fun _ => trivial
  split <;> trivial

theorem createDocumentAndJob_silent (stored : StoredFile) (originalFilename contentType : String)
    (documentType : Option DocumentType) (maxRetries : Int) :
    (createDocumentAndJob stored originalFilename contentType documentType maxRetries).Avoids
      Op.appends := by
  refine .bind (.perform id) fun _ => .bind (.perform id) fun _ => .bind (.perform id) fun _ => ?_
  refine .bind (.perform id) fun _ => .bind (.perform id) fun _ => ?_
  refine .bind (.bind (.perform id) fun found => ?_) fun job => .bind (.perform id) fun found => ?_
  all_goals split <;> trivial

theorem publishJob_announces (job : JobObject) :
    announces (publishJob job) (fun r announcement => ∀ messageId, r = .ok messageId →
      ∃ event, announcement = .sent event ∧ event.jobId = job.row.id ∧
        event.documentId = job.row.documentId) .unsent := by
  refine (wp_bind _ _ _ _ _).mpr ((wp_bind _ _ _ _ _).mpr ((wp_lift _ _ _ _).mpr ?_))
  cases attributes : job.attributes with
  | error error => exact fun _ same => (by cases same)
  | ok row =>
    obtain rfl : job.row = row := by
      unfold JobObject.attributes at attributes
      split at attributes <;> cases attributes
      rfl
    refine wp_tracking_then trivial (fun eventId _ => ?_) fun _ _ _ same => (by cases same)
    refine (wp_tryCatch _ _ _ _ _).mpr (wp_tracking_perform ⟨_, rfl⟩ (fun messageId _ => ?_)
      fun error _ => ?_)
    · exact fun _ _ => ⟨_, rfl, rfl, rfl⟩
    · dsimp only
      split <;> exact fun _ same => (by cases same)

theorem publishOrFail_announces (job : JobObject) (message : String) :
    announces (publishOrFail job message) (fun r announcement => ∀ value, r = .ok value →
      ∃ event, announcement = .sent event ∧ event.jobId = job.row.id ∧
        event.documentId = job.row.documentId) .unsent := by
  refine (wp_tryCatch _ _ _ _ _).mpr ((wp_bind _ _ _ _ _).mpr
    (wp_mono _ ?_ (publishJob_announces job)))
  rintro (error | messageId) announcement sent
  · dsimp only
    split
    · exact wp_seq _ (announces_of_silent (markFailed_silent job message))
        (fun _ _ _ _ same => by cases same) fun _ _ _ _ same => (by cases same)
    · exact fun _ same => (by cases same)
  · exact fun _ _ => sent messageId rfl

theorem providedSession_announces {body : Prog ApiResponse} (h : announces body Supports .unsent) :
    announces (providedSession body) Supports .unsent := by
  refine wp_tracking_then trivial (fun _ _ => ?_) fun _ _ _ same => (by cases same)
  refine (wp_andFinally _ _ _ _ _).mpr ((wp_tryCatch _ _ _ _ _).mpr (wp_mono _ ?_ h))
  rintro (error | response) announcement supports
  · have raised (error : Exn) (last : Announcement) : Supports (.error error) last :=
      fun _ same => by cases same
    refine wp_tracking_then (permits_of_silent id) (fun _ _ => (wp_throw _ _ _ _).mpr ?_) fun _ _ => ?_
    · exact wp_tracking_perform (permits_of_silent id) (fun _ _ => raised _ _) fun _ _ => raised _ _
    · exact wp_tracking_perform (permits_of_silent id) (fun _ _ => raised _ _) fun _ _ => raised _ _
  · refine wp_tracking_perform (permits_of_silent id) (fun _ _ => ?_) fun _ _ _ same => (by cases same)
    rw [next_of_silent id]
    exact supports

theorem uploadDocument_announces (env : Env) (file : UploadFile) (documentType : Option DocumentType) :
    announces (uploadDocument env file documentType) Supports .unsent := by
  refine providedSession_announces ((wp_bind _ _ _ _ _).mpr ((wp_lift _ _ _ _).mpr ?_))
  cases env.uploadGate file with
  | error error => exact fun _ same => (by cases same)
  | ok upload =>
    refine wp_seq _ (announces_of_silent (save_silent env _ _)) ?_ fun _ _ _ _ same => (by cases same)
    rintro stored _ rfl
    refine wp_seq _ (announces_of_silent (createDocumentAndJob_silent stored _ _ _ _)) ?_
      fun _ _ _ _ same => (by cases same)
    rintro job _ rfl
    refine wp_seq _ (publishOrFail_announces job _) (fun _ announcement sent response same => ?_)
      fun _ _ _ _ same => (by cases same)
    cases same
    obtain ⟨event, isSent, jobId, documentId⟩ := sent () rfl
    exact ⟨event, isSent, jobId, documentId⟩

theorem retryJob_announces (jobId : Nat) : announces (retryJob jobId) Supports .unsent := by
  refine providedSession_announces ?_
  refine wp_seq _ (announces_of_silent (getJob_silent jobId)) ?_ fun _ _ _ _ same => (by cases same)
  rintro job _ rfl
  refine wp_seq _ (announces_of_silent (resetForManualRetry_silent job)) ?_
    fun _ _ _ _ same => (by cases same)
  rintro job _ rfl
  refine wp_seq _ (publishOrFail_announces job _) (fun _ announcement sent response same => ?_)
    fun _ _ _ _ same => (by cases same)
  cases same
  obtain ⟨event, isSent, own, -⟩ := sent () rfl
  exact ⟨event, isSent, own⟩

theorem serve_announces (env : Env) {request request' : Request} {p : Prog ApiResponse}
    (serves : Control.serve env request = .serving request' p) : announces p Supports .unsent := by
  cases request <;> cases serves
  · exact uploadDocument_announces env _ _
  · exact retryJob_announces _

end Requests

/-- What an answer says about the events that its thread has published. -/
def World.Honours (w : World) (t : Nat) (answer : Except Exn ApiResponse) : Prop :=
  (w.publishedBy t).length ≤ 1 ∧
    ∀ response, answer = .ok response → ∃ event, w.publishedBy t = [event] ∧ response.Describes event

/-- Threads that serve requests are in keeping with what they have published, and
threads that have answered are done. -/
structure Announces (x : Staged) : Prop where
  unborn : ∀ t : Nat, x.1.threads[t]? = none → x.1.world.publishedBy t = []
  serving : ∀ (t : Nat) (th : Thread) (request : Request) (p : Prog ApiResponse),
    x.1.threads[t]? = some th → th.control = .serving request p →
      ∃ announcement : Announcement, announcement.Allows (x.1.world.publishedBy t) ∧
        announces p Supports announcement
  answered : ∀ t answer, .answered t answer ∈ x.1.world.history →
    (∃ th, x.1.threads[t]? = some th ∧ th.control = .stopped) ∧ x.1.world.Honours t answer

namespace Announces
variable {env : Env} {x : Staged} {t : Nat} {choice : Choice}

theorem served_of_announce {reached : Control} {t' : Nat} {answer : Except Exn ApiResponse}
    (announced : .answered t' answer ∈ reached.announce t) :
    t' = t ∧ ∃ request p, reached = .serving request p ∧ p.outcome? = some answer := by
  cases reached with
  | fetching loop p =>
    cases p with
    | ret items =>
      obtain ⟨item, -, same⟩ := List.mem_map.mp announced
      cases same
    | _ => cases announced
  | serving request p =>
    cases p with
    | call o next => cases announced
    | ret response =>
      cases List.mem_singleton.mp announced
      exact ⟨rfl, request, _, rfl, rfl⟩
    | raise error =>
      cases List.mem_singleton.mp announced
      exact ⟨rfl, request, _, rfl, rfl⟩
  | _ => cases announced

theorem advances (announced : Announces x) (consistent : Consistent env x) (call : Call env x t choice)
    {request : Request} {p : Prog ApiResponse} (serves : call.reached = .serving request p) :
    ∃ announcement : Announcement, announcement.Allows (call.world'.publishedBy t) ∧
      announces p Supports announcement := by
  obtain ⟨item, stage, is⟩ | ⟨request', stage, is⟩ | ⟨task, stage, is⟩ := consistent.kind call
  · obtain ⟨loop, rest, q, q', -, handles⟩ := is.control
    cases handles.symm.trans serves
  · obtain ⟨q, q', before, -⟩ := is.control
    obtain ⟨next, rfl, after⟩ := call.serving_next before
    cases after.symm.trans serves
    obtain ⟨announcement, allows, permitted, follows⟩ :=
      announced.serving t _ _ _ call.found before
    rw [publishedBy_call call t, if_pos rfl]
    exact ⟨_, allows.execute permitted call.ran, follows _ _ ⟨trivial, rfl⟩⟩
  · have runs := is.control.2.1
    rw [serves] at runs
    cases runs

theorem published_other (call : Call env x t choice) {t' : Nat} (other : t' ≠ t) :
    call.world'.publishedBy t' = x.1.world.publishedBy t' := by
  rw [publishedBy_call, if_neg (Ne.symm other), List.nil_append]

theorem act (announced : Announces x) (consistent : Consistent env x) (call : Call env x t choice) :
    Announces call.result where
  unborn t' absent := by
    have before := ((Move.act call).remains absent).1
    have other : t' ≠ t := by
      rintro rfl
      cases before.symm.trans call.found
    exact (published_other call other).trans (announced.unborn t' before)
  serving t' th request p found control := by
    obtain ⟨rfl, rfl⟩ | ⟨other, isFound⟩ := call.threads_result found
    · exact announced.advances consistent call (Control.settle_serving control)
    · rw [show call.result.1.world = call.world' from rfl, published_other call other]
      exact announced.serving t' th request p isFound control
  answered t' answer mem := by
    obtain now | observed | earlier := call.mem_history.mp mem
    · obtain ⟨rfl, request, p, serves, ended⟩ := served_of_announce now
      obtain ⟨announcement, allows, follows⟩ := announced.advances consistent call serves
      have settles : call.thread'.control = .stopped := by
        rw [show call.thread'.control = call.reached.settle env call.thread.name from rfl, serves]
        cases p <;> first | rfl | cases ended
      refine ⟨⟨call.thread', call.own_result, settles⟩, allows.atMostOne, fun response same => ?_⟩
      subst same
      cases p with
      | call o next => cases ended
      | raise error => cases ended
      | ret response' =>
        cases ended
        obtain ⟨event, rfl, describes⟩ := follows response rfl
        exact ⟨event, allows, describes⟩
    · exact absurd observed (not_observes_answered answer)
    · obtain ⟨⟨th, found, stopped⟩, honours⟩ := announced.answered t' answer earlier
      have other : t' ≠ t := by
        rintro rfl
        cases call.found.symm.trans found
        have waits := call.waits
        rw [stopped] at waits
        cases waits
      refine ⟨⟨th, (call.other_result other).trans found, stopped⟩, ?_⟩
      unfold World.Honours
      rw [show call.result.1.world = call.world' from rfl, published_other call other]
      exact honours

theorem undisturbed {x' : Staged} {label : Label} (announced : Announces x) (move : Move env x label x')
    (noCall : ∀ t choice, label ≠ .act t choice) : Announces x' := by
  have rests := move.rests noCall
  have published (t : Nat) : x'.1.world.publishedBy t = x.1.world.publishedBy t := by
    simp only [World.publishedBy, rests.history]
  refine ⟨fun t absent => ?_, fun t th request p found control => ?_, fun t answer mem => ?_⟩
  · exact (published t).trans (announced.unborn t (move.remains absent).1)
  · rw [published]
    obtain ⟨isFound, -⟩ | ⟨-, loop, idle, -⟩ | ⟨unborn, received, serves, -⟩ | ⟨_, loop, -, -, rfl, -⟩ |
      ⟨choice, call, labelled, -⟩ | ⟨_, -, -, rfl, -⟩ := move.thread found
    · exact announced.serving t th request p isFound control
    · cases idle.symm.trans control
    · exact ⟨.unsent, announced.unborn t unborn, serve_announces env (serves.symm.trans control)⟩
    · cases loop <;> cases control
    · exact absurd labelled (noCall t choice)
    · cases control
  · rw [rests.history] at mem
    obtain ⟨⟨th, found, stopped⟩, honours⟩ := announced.answered t answer mem
    refine ⟨?_, by unfold World.Honours; rw [published]; exact honours⟩
    cases found' : x'.1.threads[t]? with
    | none => cases (move.remains found').1.symm.trans found
    | some th' =>
      refine ⟨th', rfl, ?_⟩
      obtain ⟨isFound, -⟩ | ⟨unborn, -⟩ | ⟨unborn, -⟩ | ⟨_, loop, isFound, idle, -, -⟩ |
        ⟨choice, call, labelled, -⟩ | ⟨_, -, -, rfl, -⟩ := move.thread found'
      · cases isFound.symm.trans found
        exact stopped
      · cases unborn.symm.trans found
      · cases unborn.symm.trans found
      · cases isFound.symm.trans found
        cases idle.symm.trans stopped
      · exact absurd labelled (noCall t choice)
      · rfl

end Announces

theorem StagedRun.announces {env : Env} {guard : Guard} {x : Staged} (h : StagedRun env guard x) :
    Announces x := by
  refine Reach.invariant (I := Announces) ⟨fun _ _ => rfl, fun _ _ _ _ found => (by cases found),
    fun _ _ mem => (List.not_mem_nil mem).elim⟩ (fun x label x' reached announced stepped _ => ?_) h
  obtain ⟨t, choice, call, -, rfl⟩ | noCall := (move_of_step stepped).call_or
  · exact announced.act (StagedRun.consistent reached) call
  · exact announced.undisturbed (move_of_step stepped) noCall

theorem published_of_publishedBy {w : World} {t : Nat} {event : DocumentProcessingEvent}
    (mem : event ∈ w.publishedBy t) : event ∈ w.published := by
  obtain ⟨observation, among, is⟩ := List.mem_filterMap.mp mem
  refine List.mem_filterMap.mpr ⟨observation, among, ?_⟩
  cases observation with
  | published thread event' =>
    simp only [Observation.publishedBy?] at is
    split at is <;> cases is
    rfl
  | _ => cases is

theorem Streamed.entry {w : World} (streamed : Streamed w) {event : DocumentProcessingEvent}
    (published : event ∈ w.published) : toStreamFields event ∈ w.redis.entries := by
  rw [streamed, List.mem_reverse] at published
  obtain ⟨fields, among, is⟩ := List.mem_flatMap.mp published
  obtain ⟨data⟩ := fields
  obtain rfl : data = some (.event event) := mem_eventsOf.mp is
  exact among

theorem Reached.accepted {env : Env} (proper : env.GatesExtensions) {s : System}
    (h : Reached env anyRun s) {t : Nat} {response : ApiResponse}
    (answered : .answered t (.ok response) ∈ s.world.history) :
    ∃ event, s.world.publishedBy t = [event] ∧ response.Describes event ∧
      toStreamFields event ∈ s.world.redis.entries ∧ s.world.db.Agrees event := by
  obtain ⟨stages, staged⟩ := h.staged
  obtain ⟨-, -, accepted⟩ := (StagedRun.announces staged).answered t _ answered
  obtain ⟨event, isPublished, describes⟩ := accepted response rfl
  have published : event ∈ s.world.published :=
    published_of_publishedBy (isPublished ▸ List.mem_singleton_self event)
  have entry := (StagedRun.streamed staged).entry published
  exact ⟨event, isPublished, describes, entry,
    StagedRun.eventsAgree proper staged event (copies_of_entry (StagedRun.unique staged) entry rfl)⟩

theorem gatesExtensions {unicode : FileValidation.Unicode} (ascii : unicode.LowersAscii) (env : Env)
    (settings : FileValidation.UploadSettings) : (env.withUploadGate unicode settings).GatesExtensions :=
  fun _ _ => FileValidation.uploadGate_extension ascii

/-- An answered request has published one event at most. If it was accepted, it
has published one: the event of the job in its response, which is on the stream
and repeats the committed rows of that job and its document, in every state from
the answer on. -/
theorem accepted_published (env : Env) (unicode : FileValidation.Unicode)
    (settings : FileValidation.UploadSettings) (ascii : unicode.LowersAscii) {s : System}
    (h : Reached (env.withUploadGate unicode settings) anyRun s) {t : Nat}
    {answer : Except Exn ApiResponse} (answered : .answered t answer ∈ s.world.history) :
    (s.world.publishedBy t).length ≤ 1 ∧
    ∀ response, answer = .ok response → ∃ event, s.world.publishedBy t = [event] ∧
      response.Describes event ∧ toStreamFields event ∈ s.world.redis.entries ∧
        s.world.db.Agrees event := by
  obtain ⟨stages, staged⟩ := h.staged
  obtain ⟨-, once, -⟩ := (StagedRun.announces staged).answered t answer answered
  refine ⟨once, fun response same => ?_⟩
  subst same
  exact h.accepted (gatesExtensions ascii env settings) answered

def Observation.acceptance? (t : Nat) : Observation → Option ApiResponse
  | .answered thread (.ok response) => if thread = t then some response else none
  | _ => none

theorem Observation.of_acceptance {t : Nat} {observation : Observation} {response : ApiResponse}
    (h : observation.acceptance? t = some response) : observation = .answered t (.ok response) := by
  unfold acceptance? at h
  split at h
  · split at h <;> cases h
    rename_i own
    rw [own]
  · cases h

theorem exists_accepted : ∃ s, Reached (sampleEnv.withUploadGate asciiUnicode {}) anyRun s ∧
    .answered 0 (.ok (.uploadAccepted 1 2 .queued)) ∈ s.world.history ∧
      (s.world.db.jobs 2).isSome = true := by
  obtain ⟨s, h, accepted⟩ := Reached.exists_run (sampleEnv.withUploadGate asciiUnicode {}) anyRun
    (fun _ _ _ => true)
    (fun s => (s.world.history.any fun observation =>
      observation.acceptance? 0 = some (.uploadAccepted 1 2 .queued)) && (s.world.db.jobs 2).isSome)
    (fun _ _ _ _ => trivial)
    (.receive 0 (.upload ⟨some "a.txt", some "text/plain", [[104, 105]]⟩ none) :: Label.oks 0 14)
    (by decide +kernel)
  obtain ⟨answered, stored⟩ := Bool.and_eq_true_iff.mp accepted
  obtain ⟨observation, among, accepts⟩ := List.any_eq_true.mp answered
  obtain rfl := Observation.of_acceptance (of_decide_eq_true accepts)
  exact ⟨s, h, among, stored⟩

theorem accepted_published_txt : ∃ s event, Reached (sampleEnv.withUploadGate asciiUnicode {}) anyRun s ∧
    s.world.publishedBy 0 = [event] ∧ event.jobId = 2 ∧ s.world.db.Agrees event := by
  obtain ⟨s, h, answered, -⟩ := exists_accepted
  obtain ⟨event, published, describes, -, agrees⟩ :=
    (accepted_published sampleEnv asciiUnicode {} (fun _ _ => rfl) h answered).2 _ rfl
  exact ⟨s, event, h, published, describes.1, agrees⟩

end DocumentPipeline

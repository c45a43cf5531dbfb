import DocumentPipeline.CrashRecovery
import DocumentPipeline.Events

/-! Whether a retrying job has a retry on its way. `_handle_failure` adds the
retry event to Redis before it commits the mark, so another worker can be handed
the event while the row still says processing; its claim is then rejected and
the event acknowledged. -/

namespace DocumentPipeline
open EffectProgram Transition Queue JobService

/-- No process crashes and every call to PostgreSQL and Redis succeeds. -/
def flawless (s : System) : Label → Bool
  | .crash _ => false
  | .act t choice => match s.call? t with
    | some (_, .runtime _) | none => true
    | some _ => (choice matches .ok)
  | _ => true

/-- No claim is tried for a retry event before the attempt that scheduled it has
committed, or given up, its mark. -/
def marksFirst (s : System) : Label → Bool
  | .act t _ => match s.call? t with
    | some (th, .db (.executeClaim _ _ _ _)) => th.control.item?.all fun item =>
      s.threads.all (·.loc.scheduled ≠ some item.event)
    | _ => true
  | _ => true

abbrev flawlessRun : Guard := fun s label _ => flawless s label = true

abbrev flawlessMarks : Guard := fun s label _ => (flawless s label && marksFirst s label) = true

/-- The event is on the stream and not yet acknowledged. -/
def Redis.OnStream (r : Redis) (event : DocumentProcessingEvent) : Prop :=
  ∃ id, r.entries[id]? = some (toStreamFields event) ∧
    (r.lastDelivered ≤ id ∨ (r.pending id).isSome = true)

theorem Redis.OnStream.run {r : Redis} {event : DocumentProcessingEvent} (h : r.OnStream event)
    (now : Time) {o : RedisOp}
    (unacked : ∀ id, o = .xack id → r.entries[id]? ≠ some (toStreamFields event)) :
    (r.run now o).redis.OnStream event := by
  obtain ⟨id, isEntry, waits⟩ := h
  refine ⟨id, (run_extends now r o).entries _ _ isEntry, ?_⟩
  obtain undelivered | pending := waits
  · cases o with
    | xreadgroup consumer count =>
      simp only [Redis.run]
      by_cases fresh : id < r.lastDelivered + (r.undelivered count).length
      · right
        rw [if_pos ⟨undelivered, fresh⟩]
        rfl
      · exact .inl (not_lt.mp fresh)
    | _ => exact .inl undelivered
  · exact .inr (run_pending pending fun acks => unacked id acks isEntry)

namespace AttemptStage

def unclaimed : AttemptStage → Bool
  | .start | .opened | .clocked _ | .failed | .dropped => true
  | _ => false

def claiming : AttemptStage → Bool
  | .matched _ => true
  | stage => stage.unclaimed

section Next
variable {env : Env} {name : String} {item : DeliveredEvent} {stage : AttemptStage} {o : Op}
  {answer : Except Exn o.Val}

theorem claiming_of_unclaimed (h : stage.unclaimed = true) : stage.claiming = true := by
  cases stage <;> first | rfl | cases h

theorem claiming_next (permitted : stage.permits env name item o) (h : stage.claiming = true) :
    (stage.next item o answer).claiming = true ∨ stage.next item o answer = .rejected ∨
      stage.next item o answer = .owned := by
  cases stage <;> try cases h
  all_goals
    rcases o with o | o | o <;> cases o <;> first
      | exact permitted.elim
      | exact .inl rfl
      | (rcases answer with _ | _ | _ <;> first | exact .inl rfl | exact .inr (.inl rfl))
      | (rcases answer with _ | _ <;> first | exact .inl rfl | exact .inr (.inr rfl))

theorem unclaimed_next (permitted : stage.permits env name item o) (h : stage.unclaimed = true) :
    (stage.next item o answer).unclaimed = true ∨
      ∃ jobId consumer now cut, o = .db (.executeClaim jobId consumer now cut) := by
  cases stage <;> try cases h
  all_goals
    rcases o with o | o | o <;> cases o <;> first
      | exact permitted.elim
      | exact .inr ⟨_, _, _, _, rfl⟩
      | exact .inl rfl
      | (cases answer <;> exact .inl rfl)

end Next
end AttemptStage
/-- The event is on its way to a worker, and every handler that has it is in an
early stage. -/
structure Coming (x : Staged) (early : AttemptStage → Bool) (event : DocumentProcessingEvent) :
    Prop where
  version : event.eventVersion = DocumentPipeline.eventVersion
  live : Waiting x.1 event ∨ x.1.world.redis.OnStream event
  handlers : ∀ (t : Nat) (th : Thread) (item : DeliveredEvent) (stage : AttemptStage),
    x.1.threads[t]? = some th → th.control.item? = some item → item.event = event →
      x.2 t = .attempt stage → early stage = true

theorem decodeOne_toStreamFields {event : DocumentProcessingEvent}
    (version : event.eventVersion = DocumentPipeline.eventVersion) :
    decodeOne (toStreamFields event) = .ok event := by
  simp only [decodeOne, toStreamFields, version, ne_eq, not_true_eq_false, if_false]

theorem decodeOne_version {fields : StreamFields} {event : DocumentProcessingEvent}
    (h : decodeOne fields = .ok event) :
    fields.data = some (.event event) ∧ event.eventVersion = DocumentPipeline.eventVersion := by
  simp only [decodeOne] at h
  split at h
  · cases h
  · cases h
  · rename_i other isEvent
    split at h
    · cases h
    · rename_i version
      cases h
      exact ⟨isEvent, by simpa using version⟩

namespace Coming
variable {env : Env} {x : Staged} {t : Nat} {choice : Choice} {event : DocumentProcessingEvent}
  {early : AttemptStage → Bool}

theorem vehicle (coming : Coming x early event) : Vehicle x.1 event.jobId := by
  obtain (⟨score, member⟩ | ⟨t, th, found, held⟩) | ⟨id, isEntry, waits⟩ := coming.live
  · exact .inr (.inl ⟨event, score, member, rfl⟩)
  · exact .inr (.inr ⟨t, th, found, event, held, rfl⟩)
  · exact .inl ⟨id, _, event, isEntry, decodeOne_toStreamFields coming.version, rfl, waits⟩

theorem unacked (coming : Coming x early event) (never : ∀ how, early (.acking how) = false)
    (consistent : Consistent env x) (deliveries : Deliveries x) (call : Call env x t choice)
    {id : Nat} (acks : call.o = .redis (.xack id)) :
    x.1.world.redis.entries[id]? ≠ some (toStreamFields event) := by
  intro isEntry
  have decodes := decodeOne_toStreamFields coming.version
  obtain ⟨item, stage, is⟩ | ⟨request, stage, is⟩ | ⟨task, stage, is⟩ := consistent.kind call
  · have permitted := is.permitted
    rw [acks] at permitted
    obtain ⟨_, _, _, -, absurd⟩ | ⟨how, rfl, same⟩ := AttemptStage.permits_redis permitted
    · cases absurd
    · cases same
      obtain ⟨loop, rest, p, p', control, -⟩ := is.control
      obtain ⟨fields, ⟨found, -⟩, decoded⟩ := deliveries.items t call.thread call.found item (by
        rw [control]
        exact List.mem_cons_self)
      cases found.symm.trans isEntry
      have handled := coming.handlers t call.thread item _ call.found (by rw [control]; rfl)
        (Except.ok.inj (decoded.symm.trans decodes)) is.staged
      cases (never how).symm.trans handled
  · have permitted := is.permitted
    rw [acks] at permitted
    obtain ⟨_, _, _, -, absurd, -⟩ := RequestStage.permits_redis permitted
    cases absurd
  · have permitted := is.permitted
    rw [acks] at permitted
    obtain ⟨-, -, absurd⟩ | ⟨-, -, _, absurd⟩ | ⟨_, -, -, absurd⟩ |
      ⟨_, counts, messages, id, fields, -, rfl, same, mem, malformed⟩ | ⟨_, _, -, -, absurd⟩ |
      ⟨_, -, -, absurd⟩ := LoopStage.permits_redis permitted
    case inr.inr.inr.inl =>
      cases same
      cases (deliveries.messages t counts messages is.staged _ mem).1.symm.trans isEntry
      exact malformed event decodes
    all_goals cases absurd

theorem live_act (coming : Coming x early event) (never : ∀ how, early (.acking how) = false)
    (consistent : Consistent env x) (deliveries : Deliveries x) (call : Call env x t choice)
    (flawless : ∀ o, call.o = .redis o → choice = .ok) :
    Waiting call.result.1 event ∨ call.world'.redis.OnStream event := by
  have redis : call.world'.redis = call.o.redisAfter x.1.world choice := execute_redisAfter call.ran
  obtain waiting | onStream := coming.live
  · obtain kept | ⟨other, rest, p, control, publishes, gone⟩ | ⟨clock, limit, pops, -, notOk⟩ :=
      waiting.call consistent call
    · exact .inl kept
    · have ok := flawless _ publishes
      obtain rfl | ⟨-, notOk⟩ := gone
      · right
        rw [redis, publishes, ok]
        exact ⟨x.1.world.redis.entries.length, List.getElem?_concat_length,
          .inl deliveries.delivered⟩
      · exact absurd ok notOk
    · exact absurd (flawless _ pops) notOk
  · right
    rw [redis]
    cases isOp : call.o with
    | redis o =>
      simp only [Op.redisAfter]
      split
      · exact onStream.run _ fun id acks => coming.unacked never consistent deliveries call
          (by rw [isOp, acks])
      · exact onStream
    | _ => exact onStream

theorem act (coming : Coming x early event) (never : ∀ how, early (.acking how) = false)
    (starts : early .start = true) (consistent : Consistent env x) (deliveries : Deliveries x)
    (call : Call env x t choice) (flawless : ∀ o, call.o = .redis o → choice = .ok)
    (onward : ∀ item stage, AttemptCall call item stage → item.event = event →
      early stage = true → early (stage.next item call.o call.reply.answer) = true) :
    Coming call.result early event := by
  refine ⟨coming.version, coming.live_act never consistent deliveries call flawless,
    fun t' th' item stage found handles same staged => ?_⟩
  obtain ⟨rfl, rfl⟩ | ⟨other, isFound⟩ := call.threads_result found
  · rw [call.own_stage] at staged
    obtain ⟨event', stage', is⟩ | ⟨request, stage', is⟩ | ⟨task, stage', is⟩ := consistent.kind call
    · obtain ⟨goes, control'⟩ | ⟨-, goes⟩ := is.goes
      · cases goes.symm.trans staged
        obtain ⟨loop, rest, p, p', control, reached⟩ := is.control
        rw [control', reached] at handles
        cases handles
        exact onward _ _ is same (coming.handlers t' _ _ _ call.found (by rw [control]; rfl) same
          is.staged)
      · cases Control.first_attempt (goes.symm.trans staged)
        exact starts
    · obtain ⟨goes, -⟩ | ⟨-, goes, -⟩ := is.goes <;> cases goes.symm.trans staged
    · obtain ⟨goes, -⟩ | goes := is.goes
      · cases goes.symm.trans staged
      · cases Control.first_attempt (goes.symm.trans staged)
        exact starts
  · rw [call.other_stage other] at staged
    exact coming.handlers t' th' item stage isFound handles same staged

theorem undisturbed {x' : Staged} {label : Label} (coming : Coming x early event)
    (consistent : Consistent env x) (move : Move env x label x')
    (noCall : ∀ t choice, label ≠ .act t choice) (alive : ∀ proc, label ≠ .crash proc) :
    Coming x' early event := by
  refine ⟨coming.version, ?_, fun t th item stage found handles same staged => ?_⟩
  · rw [(move.rests noCall).redis]
    exact coming.live.imp_left fun waiting => waiting.undisturbed move noCall alive
  · obtain ⟨isFound, kept⟩ | ⟨-, -, none_, -⟩ := consistent.threads move noCall found
    · exact coming.handlers t th item stage isFound handles same (kept.symm.trans staged)
    · cases none_.symm.trans handles

theorem weaken {later : AttemptStage → Bool} (coming : Coming x early event)
    (weaker : ∀ stage, early stage = true → later stage = true) : Coming x later event :=
  ⟨coming.version, coming.live, fun t th item stage found handles same staged =>
    weaker stage (coming.handlers t th item stage found handles same staged)⟩

end Coming

theorem execute_scheduled {env : Env} {ctx : Context} {w : World} {loc : Local} {choice : Choice}
    {o : Op} {reply : Reply o} {event : DocumentProcessingEvent}
    (ran : o.execute env ctx w loc choice = some reply)
    (scheduled : reply.loc.scheduled = some event) : loc.scheduled = some event ∨
      ∃ score, o = .redis (.zadd (.event event) score) ∧ choice = .ok := by
  cases o with
  | runtime o =>
    obtain ⟨done, did, rfl⟩ := execute_runtime ran
    exact .inl scheduled
  | redis o =>
    obtain ⟨rfl, rfl⟩ | ⟨error, rfl, -, rfl⟩ | ⟨error, rfl, -, rfl⟩ := execute_redis ran
    all_goals cases o <;> first | exact .inl scheduled | cases scheduled | skip
    rename_i member score
    cases member with
    | event added =>
      cases scheduled
      exact .inr ⟨score, rfl, rfl⟩
    | _ => cases scheduled
  | db o =>
    by_cases commit : o = .commit
    · subst commit
      obtain ⟨document, write, result⟩ := loc.tx
      obtain ⟨rfl, rfl⟩ | ⟨error, rfl, -, rfl⟩ | ⟨error, rfl, -, rfl⟩ := execute_commit ran
      · cases scheduled
      · exact .inl scheduled
      · cases scheduled
    · obtain ⟨rfl, done, did, rfl⟩ | ⟨error, rfl, -, -, rfl⟩ := execute_db ran commit
      · cases o <;> first | exact absurd rfl commit | exact .inl scheduled | cases scheduled
      · exact .inl scheduled

namespace AttemptStage
section Reply
variable {env : Env} {name : String} {item : DeliveredEvent} {stage : AttemptStage} {ctx : Context}
  {w : World} {loc : Local} {choice : Choice} {o : Op} {reply : Reply o}

theorem next_rejected (permitted : stage.permits env name item o)
    (ran : o.execute env ctx w loc choice = some reply) (early : stage.claiming = true)
    (rejected : stage.next item o reply.answer = .rejected) {row : ProcessingJob}
    (found : w.db.jobs item.event.jobId = some row) : row.status ∉ claimableStatuses := by
  cases stage <;> try cases early
  all_goals
    rcases o with o | o | o <;> cases o <;> first
      | exact permitted.elim
      | cases rejected
      | skip
  case clocked.refl.db.executeClaim =>
    obtain ⟨rfl, rfl, rfl, rfl⟩ := permitted
    obtain ⟨rfl, done, did, rfl⟩ | ⟨error, -, -, -, rfl⟩ := execute_db ran nofun
    · simp only [Database.run, found] at did
      split at did
      · split at did <;> cases did
        cases rejected
      · rename_i noMatch
        intro claimable
        exact noMatch (by simp [claimMatches, claimable])
    · cases rejected
  all_goals
    rcases reply with ⟨_, _, _ | _⟩ <;> cases rejected

theorem next_owned (facts : AttemptLocal env name item stage loc)
    (permitted : stage.permits env name item o)
    (ran : o.execute env ctx w loc choice = some reply) (early : stage.claiming = true)
    (owned : stage.next item o reply.answer = .owned) :
    ∃ write, loc.commits o choice = some write ∧ item.event.jobId = write.row.id := by
  have writes := facts.write
  cases stage <;> try cases early
  all_goals
    rcases o with o | o | o <;> cases o <;> first
      | exact permitted.elim
      | cases owned
      | skip
  case matched.refl.db.commit =>
    cases committed : loc.tx.write with
    | none =>
      rw [committed] at writes
      exact writes.elim
    | some write =>
      rw [committed] at writes
      cases write with
      | claim base row =>
        obtain ⟨owner, rfl, -⟩ := writes
        obtain ⟨rfl, rfl⟩ | ⟨error, rfl, -, rfl⟩ | ⟨error, rfl, -, rfl⟩ := execute_commit ran
        · exact ⟨_, committed, owner.symm⟩
        · cases owned
        · cases owned
      | _ => exact writes.elim
  all_goals
    rcases reply with ⟨_, _, _ | _ | _⟩ <;> cases owned

end Reply
end AttemptStage

/-- Every retrying row, and every mark that is about to make one, has a retry
event on its way. -/
structure RetriesComing (x : Staged) : Prop where
  rows : ∀ jobId row, x.1.world.db.jobs jobId = some row → row.status = .retrying →
    ∃ event, event.jobId = jobId ∧ Coming x AttemptStage.claiming event
  marks : ∀ (t : Nat) (th : Thread) (event : DocumentProcessingEvent),
    x.1.threads[t]? = some th → th.loc.scheduled = some event →
      Coming x AttemptStage.unclaimed event

namespace RetriesComing
variable {env : Env} {x : Staged} {t : Nat} {choice : Choice}

theorem redis_ok (call : Call env x t choice) (guarded : flawless x.1 (.act t choice) = true) :
    ∀ o, call.o = .redis o → choice = .ok := by
  intro o isRedis
  simp only [flawless, call.call?_eq, isRedis] at guarded
  cases choice <;> first | rfl | cases guarded

theorem schedule (consistent : Consistent env x) (deliveries : Deliveries x) (unique : Unique x)
    (call : Call env x t choice) {event : DocumentProcessingEvent} {score : ℚ}
    (adds : call.o = .redis (.zadd (.event event) score)) (ok : choice = .ok) :
    Coming call.result AttemptStage.unclaimed event := by
  have redis : call.world'.redis = call.o.redisAfter x.1.world choice := execute_redisAfter call.ran
  have member : (.event event, score) ∈ call.result.1.world.redis.retry := by
    rw [show call.result.1.world = call.world' from rfl, redis, adds, ok]
    exact Redis.zadd_mem ..
  refine ⟨?_, .inl (.inl ⟨score, member⟩), fun t' th' item stage found handles same _ => ?_⟩
  · obtain ⟨item, stage, is⟩ | ⟨request, stage, is⟩ | ⟨task, stage, is⟩ := consistent.kind call
    · have permitted := is.permitted
      rw [adds] at permitted
      obtain ⟨row, eventId, _, -, issued⟩ | ⟨_, -, absurd⟩ := AttemptStage.permits_redis permitted
      · cases issued
        obtain ⟨loop, rest, p, p', control, -⟩ := is.control
        obtain ⟨fields, -, decoded⟩ := deliveries.items t call.thread call.found item (by
          rw [control]
          exact List.mem_cons_self)
        exact (decodeOne_version decoded).2
      · cases absurd
    · have permitted := is.permitted
      rw [adds] at permitted
      obtain ⟨_, _, _, -, absurd, -⟩ := RequestStage.permits_redis permitted
      cases absurd
    · have permitted := is.permitted
      rw [adds] at permitted
      obtain ⟨-, -, absurd⟩ | ⟨-, -, _, absurd⟩ | ⟨_, -, -, absurd⟩ | ⟨_, _, _, _, _, -, -, absurd, -⟩ |
        ⟨_, _, -, -, absurd⟩ | ⟨_, -, -, absurd⟩ := LoopStage.permits_redis permitted <;> cases absurd
  · -- a handler has it from the stream, which would be a second copy
    exfalso
    have handled : item ∈ th'.control.items := by
      cases control : th'.control <;> rw [control] at handles <;> cases handles
      exact List.mem_cons_self
    obtain ⟨fields, ⟨isEntry, -⟩, decoded⟩ :=
      (deliveries.act consistent call).items t' th' found item handled
    have after := unique.act call consistent
    have published := after.entries fields (List.mem_of_getElem? isEntry) event
      (same ▸ (decodeOne_version decoded).1)
    have once : copies call.result event ≤ 1 := after.single event
    have copied : 0 < call.world'.published.count event := List.count_pos_iff.mpr published
    have waits : 0 < (call.world'.redis.retry.map (·.1)).count (.event event) :=
      List.count_pos_iff.mpr (List.mem_map.mpr ⟨_, member, rfl⟩)
    simp only [copies] at once
    omega

/-- A retry stays on its way while its row is retrying. -/
theorem rows_kept (coming : RetriesComing x) (consistent : Consistent env x)
    (deliveries : Deliveries x) (call : Call env x t choice)
    (ok : ∀ o, call.o = .redis o → choice = .ok) {jobId : Nat} {row : ProcessingJob}
    (found : x.1.world.db.jobs jobId = some row) (retrying : row.status = .retrying)
    (apart : ∀ write, call.thread.loc.commits call.o choice = some write → jobId ≠ write.row.id) :
    ∃ event, event.jobId = jobId ∧ Coming call.result AttemptStage.claiming event := by
  obtain ⟨event, owner, comes⟩ := coming.rows jobId row found retrying
  refine ⟨event, owner, comes.act (fun _ => rfl) rfl consistent deliveries call ok
    fun item stage is same early => ?_⟩
  have own : item.event.jobId = jobId := same ▸ owner
  obtain onward | rejected | owned := AttemptStage.claiming_next is.permitted early
  · exact onward
  · have claimable := AttemptStage.next_rejected is.permitted call.ran early rejected (own ▸ found)
    rw [retrying] at claimable
    exact absurd (List.mem_cons_of_mem _ List.mem_cons_self) claimable
  · obtain ⟨write, committed, isRow⟩ := AttemptStage.next_owned is.facts is.permitted call.ran early owned
    exact absurd (own.symm.trans isRow) (apart write committed)

theorem retrying_marked (consistent : Consistent env x) (call : Call env x t choice)
    {write : Write} (pending : call.thread.loc.tx.write = some write)
    (retrying : write.row.status = .retrying) : ∃ item row current event,
      AttemptCall call item (.marking row current (some event)) ∧ event.jobId = write.row.id ∧
        call.thread.loc.scheduled = some event := by
  obtain ⟨item, stage, is⟩ | ⟨request, stage, is⟩ | ⟨task, stage, is⟩ := consistent.kind call
  · have writes := is.facts.write
    have sound := is.facts.sound
    have scheduled := is.facts.scheduled
    rw [pending] at writes
    cases write with
    | insert row => exact writes.elim
    | claim base row =>
      cases (show row.status = _ from (consistent.lawful call.found pending).1).symm.trans retrying
    | update seen base row =>
      cases stage <;> first | exact writes.elim | skip
      case marking held current event =>
        obtain ⟨rfl, same, rfl⟩ := writes
        cases event with
        | none =>
          obtain ⟨-, allowed, message, now, rfl⟩ := sound
          simp [Write.row, ProcessingJob.flushed, allowed_ne allowed] at retrying
        | some event =>
          obtain ⟨owner, allowed, -, ⟨message, rfl⟩, eventId, rfl⟩ := sound
          refine ⟨item, _, _, _, is, ?_, scheduled⟩
          exact owner.symm.trans same.symm
      all_goals
        obtain ⟨rfl, -, rfl⟩ := writes
        obtain ⟨-, allowed, now, rfl⟩ := sound
        simp [Write.row, ProcessingJob.flushed, allowed_ne allowed] at retrying
  · have writes := is.facts.write
    have sound := is.facts.sound
    have lawful := consistent.lawful call.found pending
    rw [pending] at writes
    cases write with
    | claim base row => exact writes.elim
    | insert row => cases (show row.status = .queued from lawful).symm.trans retrying
    | update seen base row =>
      cases stage <;> first | exact writes.elim | skip
      · obtain ⟨rfl, -, rfl⟩ := writes
        obtain ⟨-, allowed, now, rfl⟩ := sound
        simp [Write.row, ProcessingJob.flushed, allowed_ne allowed] at retrying
      · obtain ⟨rfl, -, rfl⟩ := writes
        obtain ⟨-, allowed, message, now, rfl⟩ := sound
        simp [Write.row, ProcessingJob.flushed, allowed_ne allowed] at retrying
  · rw [is.facts.tx] at pending
    cases pending

theorem act (coming : RetriesComing x) (consistent : Consistent env x) (deliveries : Deliveries x)
    (unique : Unique x) (call : Call env x t choice)
    (guarded : flawless x.1 (.act t choice) = true)
    (first : marksFirst x.1 (.act t choice) = true) : RetriesComing call.result := by
  have ok := redis_ok call guarded
  refine ⟨fun jobId row found retrying => ?_, fun t' th event found scheduled => ?_⟩
  · simp only [Call.world', World.note_db, execute_jobs call.ran] at found
    cases committed : call.thread.loc.commits call.o choice with
    | none =>
      rw [committed] at found
      exact coming.rows_kept consistent deliveries call ok found retrying fun write commits => by
        cases committed.symm.trans commits
    | some write =>
      rw [committed] at found
      simp only at found
      by_cases own : jobId = write.row.id
      · subst own
        rw [Function.update_self] at found
        cases found
        have pending := (commits_write committed).2
        obtain ⟨item, held, current, event, is, owner, scheduled⟩ :=
          retrying_marked consistent call pending retrying
        refine ⟨event, owner, ?_⟩
        refine ((coming.marks t _ event call.found scheduled).weaken fun _ =>
          AttemptStage.claiming_of_unclaimed).act (fun _ => rfl) rfl consistent deliveries call ok ?_
        -- the marking attempt itself is past its claim
        intro other stage is' same early
        cases is.staged.symm.trans is'.staged
        cases early
      · rw [Function.update_of_ne own] at found
        exact coming.rows_kept consistent deliveries call ok found retrying fun write' commits => by
          cases committed.symm.trans commits
          exact own
  · have comes : Coming x AttemptStage.unclaimed event →
        (∃ (t' : Nat) (th' : Thread), x.1.threads[t']? = some th' ∧
          th'.loc.scheduled = some event) →
        Coming call.result AttemptStage.unclaimed event := by
      rintro before ⟨other, th', isThread, marked⟩
      refine before.act (fun _ => rfl) rfl consistent deliveries call ok
        fun item stage is same early => ?_
      obtain onward | ⟨jobId, consumer, now, cut, claims⟩ :=
        AttemptStage.unclaimed_next is.permitted early
      · exact onward
      · obtain ⟨loop, rest, p, p', control, -⟩ := is.control
        simp only [marksFirst, call.call?_eq, claims, control, Control.item?, Option.all_some,
          List.all_eq_true, decide_eq_true_eq, same] at first
        exact absurd marked (first th' (List.mem_of_getElem? isThread))
    obtain ⟨rfl, rfl⟩ | ⟨other, isFound⟩ := call.threads_result found
    · obtain before | ⟨score, adds, isOk⟩ := execute_scheduled call.ran scheduled
      · exact comes (coming.marks t' _ event call.found before) ⟨t', _, call.found, before⟩
      · exact schedule consistent deliveries unique call adds isOk
    · exact comes (coming.marks t' th event isFound scheduled) ⟨t', th, isFound, scheduled⟩

theorem undisturbed {x' : Staged} {label : Label} (coming : RetriesComing x)
    (consistent : Consistent env x) (move : Move env x label x')
    (noCall : ∀ t choice, label ≠ .act t choice) (alive : ∀ proc, label ≠ .crash proc) :
    RetriesComing x' := by
  refine ⟨fun jobId row found retrying => ?_, fun t th event found scheduled => ?_⟩
  · rw [(move.rests noCall).jobs] at found
    obtain ⟨event, owner, comes⟩ := coming.rows jobId row found retrying
    exact ⟨event, owner, comes.undisturbed consistent move noCall alive⟩
  · obtain ⟨isFound, -⟩ | ⟨idle, -⟩ := consistent.threads move noCall found
    · exact (coming.marks t th event isFound scheduled).undisturbed consistent move noCall alive
    · cases idle.scheduled.symm.trans scheduled

end RetriesComing

/-- Without crashes and faults every retrying job has a retry on its way, as
long as no claim for a retry event comes before the mark of the attempt that
scheduled it. -/
theorem retrying_has_vehicle {env : Env} {s : System} (h : Reached env flawlessMarks s)
    (jobId : Nat) (row : ProcessingJob) (found : s.world.db.jobs jobId = some row)
    (retrying : row.status = .retrying) : Vehicle s jobId := by
  obtain ⟨g, staged⟩ := h.staged
  have coming : RetriesComing (s, g) := staged.invariant
    ⟨fun _ _ absent => by (cases absent), fun _ _ _ absent => by (cases absent)⟩
    fun x label x' (reached : StagedRun env flawlessMarks x) coming stepped guarded => by
      simp only [flawlessMarks, Bool.and_eq_true] at guarded
      have move := move_of_step stepped
      obtain ⟨t, choice, call, rfl, rfl⟩ | noCall := move.call_or
      · exact coming.act reached.consistent reached.deliveries reached.unique call guarded.1 guarded.2
      · exact coming.undisturbed reached.consistent move noCall fun proc crashed => by
          rw [crashed] at guarded
          cases guarded.1
  obtain ⟨event, rfl, comes⟩ := coming.rows jobId row found retrying
  exact comes.vehicle

def System.retries (s : System) (jobId : Nat) : Bool :=
  (s.world.db.jobs jobId).any (·.status = .retrying)

theorem System.retries_sound {s : System} {jobId : Nat} (h : s.retries jobId = true) :
    ∃ row, s.world.db.jobs jobId = some row ∧ row.status = .retrying := by
  simpa only [retries, Option.any_eq_true, decide_eq_true_eq] using h

theorem retrying_has_vehicle_timedOut : ∃ s row, Reached sampleEnv flawlessMarks s ∧
    s.world.db.jobs 2 = some row ∧ row.status = .retrying ∧ Vehicle s 2 := by
  obtain ⟨s, reached, accepted⟩ := Reached.exists_run sampleEnv flawlessMarks
    (fun s label _ => flawless s label && marksFirst s label) (·.retries 2)
    (fun _ _ _ guarded => guarded)
    ([.receive 0 sampleUpload] ++ Label.oks 0 14 ++ [.startWorker 1 "w"] ++ Label.timedOut 1)
    (by decide +kernel)
  obtain ⟨row, found, retrying⟩ := System.retries_sound accepted
  exact ⟨s, row, reached, found, retrying, retrying_has_vehicle reached 2 row found retrying⟩

/-- A retry event is published, handed to a second worker and acknowledged
before the attempt that scheduled it commits its mark. -/
def overtakenMarkRun : List Label :=
  [.receive 0 sampleUpload] ++ Label.oks 0 14 ++ [.startWorker 1 "w1", .iterate 1] ++
    Label.oks 1 8 ++ [.act 1 sampleTimeout] ++ Label.oks 1 2 ++ [.act 1 (.drawn 0)] ++
    Label.oks 1 3 ++ [.tick 10000000, .iterate 3] ++ Label.oks 3 3 ++
    [.startWorker 2 "w2", .iterate 4] ++ Label.oks 4 7 ++ Label.oks 1 4

theorem retrying_stranded : ¬∀ env s, Reached env flawlessRun s → ∀ jobId row,
    s.world.db.jobs jobId = some row → row.status = .retrying → Vehicle s jobId := by
  intro vehicles
  obtain ⟨s, reached, accepted⟩ := Reached.exists_run sampleEnv flawlessRun
    (fun s label _ => flawless s label) (fun s => s.retries 2 && s.drained)
    (fun _ _ _ guarded => guarded) overtakenMarkRun (by decide +kernel)
  obtain ⟨retries, drained⟩ := Bool.and_eq_true_iff.mp accepted
  obtain ⟨row, found, retrying⟩ := System.retries_sound retries
  exact System.drained_sound drained 2 (vehicles sampleEnv s reached 2 row found retrying)

end DocumentPipeline

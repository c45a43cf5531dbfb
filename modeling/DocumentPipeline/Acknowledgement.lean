import DocumentPipeline.DeliveryCounts
import DocumentPipeline.EventAgreement
import DocumentPipeline.EventIdentity
import DocumentPipeline.RetryBudget

/-! Acknowledgement. An entry that validates leaves the pending list by the XACK
of an attempt at it that ended well: the attempt had claimed the job, or had
been refused because the job was not waiting. So no entry is used up while its
job goes on waiting. -/

namespace DocumentPipeline
open EffectProgram Transition Queue JobService

/-- The entry has been delivered and the job of its event waits for no attempt. -/
structure System.Attends (s : System) (id : Nat) (event : DocumentProcessingEvent) : Prop where
  delivered : id < s.world.redis.lastDelivered
  taken : ∃ row, s.world.db.jobs event.jobId = some row ∧ row.status ∉ claimableStatuses

def Attended (env : Env) (s : System) (id : Nat) (event : DocumentProcessingEvent) : Prop :=
  ∃ s₀, Reached env anyRun s₀ ∧ Reach (System.step env) s₀ anyRun s ∧ s₀.Attends id event

theorem Attended.now {env : Env} {s : System} {id : Nat} {event : DocumentProcessingEvent}
    (reached : Reached env anyRun s) (attends : s.Attends id event) : Attended env s id event :=
  ⟨s, reached, .start, attends⟩

theorem Attended.step {env : Env} {s s' : System} {id : Nat} {event : DocumentProcessingEvent}
    {label : Label} (attended : Attended env s id event)
    (stepped : System.step env s label = some s') : Attended env s' id event := by
  obtain ⟨s₀, reached, later, attends⟩ := attended
  exact ⟨s₀, reached, later.step stepped trivial, attends⟩

theorem step_of_stagedStep {env : Env} {x x' : Staged} {label : Label}
    (stepped : stagedStep env x label = some x') : System.step env x.1 label = some x'.1 := by
  simp only [stagedStep, tracked, Option.map_eq_some_iff] at stepped
  obtain ⟨s', stepped, rfl⟩ := stepped
  exact stepped

structure Known (x : Staged) : Prop where
  rows : ∀ t row, (x.2 t).row? = some row → (x.1.world.db.jobs row.id).isSome = true
  events : ∀ event, 0 < copies x event → (x.1.world.db.jobs event.jobId).isSome = true

namespace Known
variable {env : Env} {x x' : Staged} {t : Nat} {choice : Choice}

theorem item (known : Known x) (unique : Unique x) {item : DeliveredEvent}
    (delivered : x.1.world.redis.Delivered item) :
    (x.1.world.db.jobs item.event.jobId).isSome = true := by
  obtain ⟨fields, ⟨isEntry, -⟩, decoded⟩ := delivered
  exact known.events item.event
    (copies_of_entry unique (List.mem_of_getElem? isEntry) (decodeOne_version decoded).1)

theorem rows_call (known : Known x) (consistent : Consistent env x) (call : Call env x t choice)
    {row : ProcessingJob} (carried : call.stage'.row? = some row) :
    (x.1.world.db.jobs row.id).isSome = true := by
  have stored : ∀ jobId, x.1.world.db.jobs jobId = some row →
      (x.1.world.db.jobs row.id).isSome = true := by
    intro jobId found
    rw [consistent.keyed jobId row found, found]
    rfl
  obtain ⟨item, stage, is⟩ | ⟨request, stage, is⟩ | ⟨task, stage, is⟩ := consistent.kind call
  · have held : ∀ row, stage.row? = some row → (x.1.world.db.jobs row.id).isSome = true :=
      fun row isHeld => known.rows t row (by rw [is.staged]; exact isHeld)
    obtain ⟨goes, -⟩ | ⟨-, goes⟩ := is.goes <;> rw [goes] at carried
    · exact (next_row is.permitted call.ran carried).elim (held row) (stored _)
    · rw [first_row] at carried
      cases carried
  · have held : ∀ row, stage.row? = some row → (x.1.world.db.jobs row.id).isSome = true :=
      fun row isHeld => known.rows t row (by rw [is.staged]; exact isHeld)
    obtain ⟨goes, -⟩ | ⟨-, goes, -⟩ := is.goes <;> rw [goes] at carried
    · obtain isHeld | ⟨jobId, found⟩ | ⟨reset, now, isHeld, rfl⟩ :=
        RequestStage.next_row is.facts.sound is.permitted call.ran carried
      · exact held row isHeld
      · exact stored jobId found
      · exact held reset isHeld
    · cases carried
  · obtain ⟨goes, -⟩ | goes := is.goes <;> rw [goes] at carried
    · cases carried
    · rw [first_row] at carried
      cases carried

theorem events_call (known : Known x) (consistent : Consistent env x) (unique : Unique x)
    (deliveries : Deliveries x) (call : Call env x t choice) {event : DocumentProcessingEvent}
    (copied : 0 < copies call.result event) : (x.1.world.db.jobs event.jobId).isSome = true := by
  obtain fewer | ⟨-, -, ⟨item, row, eventId, is, rfl⟩ | ⟨request, row, eventId, is, fresh, -⟩⟩ :=
    copies_source call consistent event
  · exact known.events event (copied.trans_le fewer)
  · obtain ⟨loop, rest, p, p', control, -⟩ := is.control
    have handled : item ∈ call.thread.control.items := by
      rw [control]
      exact List.mem_cons_self
    exact known.item unique (deliveries.items t _ call.found item handled)
  · rw [fresh.jobId]
    exact known.rows t row (by rw [is.staged]; rfl)

theorem step {guard : Guard} {label : Label} (known : Known x) (reached : StagedRun env guard x)
    (stepped : stagedStep env x label = some x') : Known x' := by
  have stays : ∀ jobId, (x.1.world.db.jobs jobId).isSome = true →
      (x'.1.world.db.jobs jobId).isSome = true := by
    intro jobId there
    obtain ⟨row, found⟩ := Option.isSome_iff_exists.mp there
    obtain ⟨row', found', -⟩ := sameJob_step reached stepped found
    rw [found']
    rfl
  have consistent := StagedRun.consistent reached
  obtain ⟨t, choice, call, -, rfl⟩ | noCall := (move_of_step stepped).call_or
  · refine ⟨fun t' row carried => stays _ ?_, fun event copied => stays _ ?_⟩
    · by_cases own : t' = t
      · subst own
        rw [call.own_stage] at carried
        exact known.rows_call consistent call carried
      · rw [call.other_stage own] at carried
        exact known.rows t' row carried
    · exact known.events_call consistent (StagedRun.unique reached) (StagedRun.deliveries reached)
        call copied
  · have fewer := copies_undisturbed consistent (move_of_step stepped) noCall
    refine ⟨fun t' row carried => stays _ ?_, fun event copied => stays _ ?_⟩
    · obtain same | ⟨c, first⟩ := (move_of_step stepped).stage noCall t'
      · rw [same] at carried
        exact known.rows t' row carried
      · rw [first, first_row] at carried
        cases carried
    · exact known.events event (copied.trans_le (fewer event))

end Known

theorem StagedRun.known {env : Env} {guard : Guard} {x : Staged} (h : StagedRun env guard x) :
    Known x :=
  h.invariant ⟨fun _ _ carried => (by cases carried), fun _ copied => (by cases copied)⟩
    fun _ _ _ reached known stepped _ => known.step reached stepped

/-- The attempt has claimed its job, or has been refused. -/
def AttemptStage.decided : AttemptStage → Bool
  | .start | .opened | .clocked _ | .matched _ | .failed | .dropped => false
  | _ => true

namespace AttemptStage
variable {stage : AttemptStage} {item : DeliveredEvent} {o : Op} {answer : Except Exn o.Val}

theorem next_decided (after : (stage.next item o answer).decided = true) :
    stage.decided = true ∨
    (∃ jobId consumer now cut, o = .db (.executeClaim jobId consumer now cut) ∧
      HEq answer (Except.ok (ε := Exn) (none : Option Nat))) ∨
    ∃ now, stage = .matched now ∧ o = .db .commit ∧ HEq answer (Except.ok (ε := Exn) ()) := by
  cases decided : stage.decided with
  | true => exact .inl rfl
  | false =>
    refine .inr ?_
    cases stage <;> cases decided
    all_goals cases o with
      | runtime o => cases o <;> rcases answer with _ | _ <;> cases after
      | redis o => cases o <;> rcases answer with _ | _ <;> cases after
      | db o => cases o <;> rcases answer with _ | _ | _ <;> first
          | exact .inl ⟨_, _, _, _, rfl, .rfl⟩
          | exact .inr ⟨_, rfl, rfl, .rfl⟩
          | cases after

end AttemptStage

namespace Redis
variable {r : Redis} {now : Time} {o : RedisOp} {id : Nat}

/-- The entry was handed out and is no longer pending. -/
def Settled (r : Redis) (id : Nat) : Prop := id < r.lastDelivered ∧ r.pending id = none

theorem run_settles (settled : (r.run now o).redis.Settled id) : r.Settled id ∨ o = .xack id := by
  obtain ⟨delivered, acked⟩ := settled
  cases o with
  | xreadgroup consumer count =>
    simp only [run] at delivered acked
    split at acked
    · cases acked
    · rename_i outside
      exact .inl ⟨by omega, acked⟩
  | xclaim consumer minIdle ids =>
    simp only [run] at delivered acked
    split at acked
    · exact .inl ⟨delivered, Option.map_eq_none_iff.mp acked⟩
    · exact .inl ⟨delivered, acked⟩
  | xack messageId =>
    simp only [run, Function.update_apply] at delivered acked
    split at acked
    · rename_i own
      exact .inr (congrArg _ own.symm)
    · exact .inl ⟨delivered, acked⟩
  | _ => exact .inl ⟨delivered, acked⟩

end Redis

structure Acknowledged (env : Env) (x : Staged) : Prop where
  reached : Reached env anyRun x.1
  handled : ∀ (t : Nat) (th : Thread) (item : DeliveredEvent) (stage : AttemptStage),
    x.1.threads[t]? = some th → th.control.item? = some item → x.2 t = .attempt stage →
      stage.decided = true → Attended env x.1 item.messageId item.event
  settled : ∀ id fields event, x.1.world.redis.entries[id]? = some fields →
    decodeOne fields = .ok event → x.1.world.redis.Settled id → Attended env x.1 id event

namespace Acknowledged
variable {env : Env} {x x' : Staged} {t : Nat} {choice : Choice}

/-- A claim that is refused finds the job taken; one that is committed takes it. -/
theorem decides (deliveries : Deliveries x) (known : Known x) (unique : Unique x)
    (call : Call env x t choice) {item : DeliveredEvent} {stage : AttemptStage}
    (is : AttemptCall call item stage)
    (after : (stage.next item call.o call.reply.answer).decided = true) :
    stage.decided = true ∨ x.1.Attends item.messageId item.event ∨
      call.result.1.Attends item.messageId item.event := by
  obtain ⟨loop, rest, p, p', control, -⟩ := is.control
  have delivered : x.1.world.redis.Delivered item := by
    refine deliveries.items t _ call.found item ?_
    rw [control]
    exact List.mem_cons_self
  have permitted := is.permitted
  have facts := is.facts
  have jobs : call.world'.db.jobs = _ := execute_jobs call.ran
  have further : x.1.world.redis.Extends call.world'.redis := by
    rw [show call.world'.redis = _ from execute_redisAfter call.ran]
    exact Redis.redisAfter_extends _ _ _
  obtain before | ⟨jobId, consumer, now, cut, isClaim, none_⟩ | ⟨now, rfl, isCommit, done⟩ :=
    AttemptStage.next_decided after
  · exact .inl before
  · refine .inr (.inl ⟨?_, ?_⟩)
    · obtain ⟨fields, ⟨-, below⟩, -⟩ := delivered
      exact below
    · obtain ⟨thread, o, next, reply, found, waits, ran⟩ := call
      dsimp only at isClaim none_ permitted
      subst isClaim
      obtain ⟨-, rfl, -, -⟩ := AttemptStage.permits_executeClaim permitted
      obtain ⟨row, isRow⟩ := Option.isSome_iff_exists.mp (known.item unique delivered)
      refine ⟨row, isRow, fun claimable => ?_⟩
      obtain ⟨-, done, did, rfl⟩ | ⟨error, -, -, -, rfl⟩ := execute_db ran fun same => (by cases same)
      · have matched : claimMatches row cut = true := by
          simp only [claimMatches, claimable, decide_true, Bool.true_or]
        simp only [Database.run, isRow, matched, if_true] at did
        split at did <;> cases did
        cases eq_of_heq none_
      · cases eq_of_heq none_
  · refine .inr (.inr ⟨?_, ?_⟩)
    · obtain ⟨fields, ⟨-, below⟩, -⟩ := delivered
      exact below.trans_le further.delivered
    · have writes := facts.write
      cases pending : call.thread.loc.tx.write with
      | none =>
        rw [pending] at writes
        exact writes.elim
      | some write =>
        have own := facts.writes_own pending
        rw [pending] at writes
        have committed : call.thread.loc.commits call.o choice = some write := by
          obtain ⟨thread, o, next, reply, found, waits, ran⟩ := call
          dsimp only at isCommit done pending ⊢
          subst isCommit
          obtain ⟨rfl, -⟩ | ⟨error, rfl, -, rfl⟩ | ⟨error, rfl, -, rfl⟩ := execute_commit ran
          · exact pending
          · cases eq_of_heq done
          · cases eq_of_heq done
        rw [committed] at jobs
        refine ⟨write.row, ?_, ?_⟩
        · rw [show call.result.1.world.db.jobs = _ from jobs, ← own]
          exact Function.update_self ..
        · cases write <;> first | exact writes.elim | skip
          obtain ⟨-, rfl, -⟩ := writes
          exact fun claimable => by cases claimable with | tail _ h => cases h with | tail _ h => cases h

theorem handled_act (acknowledged : Acknowledged env x) (consistent : Consistent env x)
    (deliveries : Deliveries x) (known : Known x) (unique : Unique x) (call : Call env x t choice)
    (stepped : System.step env x.1 (.act t choice) = some call.result.1) {item : DeliveredEvent}
    {stage : AttemptStage} (handles : call.thread'.control.item? = some item)
    (staged : call.stage' = .attempt stage) (decided : stage.decided = true) :
    Attended env call.result.1 item.messageId item.event := by
  have unstarted : ∀ c : Control, c.first = .attempt stage → False := by
    intro c first
    rw [Control.first_attempt first] at decided
    cases decided
  obtain ⟨item', stage', is⟩ | ⟨request, stage', is⟩ | ⟨task, stage', is⟩ := consistent.kind call
  · obtain ⟨goes, control'⟩ | ⟨-, goes⟩ := is.goes <;> rw [goes] at staged
    · obtain ⟨loop, rest, p, p', control, reached⟩ := is.control
      rw [control', reached] at handles
      cases handles
      cases staged
      obtain before | attends | attends := decides deliveries known unique call is decided
      · refine (acknowledged.handled t _ item stage' call.found ?_ is.staged before).step stepped
        rw [control]
        rfl
      · exact (Attended.now acknowledged.reached attends).step stepped
      · exact .now (acknowledged.reached.step stepped trivial) attends
    · exact (unstarted _ staged).elim
  · obtain ⟨goes, -⟩ | ⟨-, goes, -⟩ := is.goes <;> rw [goes] at staged <;> cases staged
  · obtain ⟨goes, -⟩ | goes := is.goes <;> rw [goes] at staged
    · cases staged
    · exact (unstarted _ staged).elim

/-- An XACK is issued for an entry that does not validate, or by an attempt that
has been attended to. -/
theorem acked (acknowledged : Acknowledged env x) (consistent : Consistent env x)
    (deliveries : Deliveries x) (call : Call env x t choice) {id : Nat} {fields : StreamFields}
    {event : DocumentProcessingEvent} (acks : call.o = .redis (.xack id))
    (entry : x.1.world.redis.entries[id]? = some fields) (valid : decodeOne fields = .ok event) :
    Attended env x.1 id event := by
  obtain ⟨item, stage, is⟩ | ⟨request, stage, is⟩ | ⟨task, stage, is⟩ := consistent.kind call
  · have permitted := is.permitted
    rw [acks] at permitted
    obtain ⟨_, _, _, -, other⟩ | ⟨how, rfl, own⟩ := AttemptStage.permits_redis permitted
    · cases other
    · cases own
      obtain ⟨loop, rest, p, p', control, -⟩ := is.control
      have delivered := deliveries.items t _ call.found item (by rw [control]; exact List.mem_cons_self)
      obtain ⟨fields', ⟨isEntry, -⟩, decoded⟩ := delivered
      cases entry.symm.trans isEntry
      cases valid.symm.trans decoded
      exact acknowledged.handled t _ item _ call.found (by rw [control]; rfl) is.staged rfl
  · have permitted := is.permitted
    rw [acks] at permitted
    obtain ⟨_, _, _, -, other, -⟩ := RequestStage.permits_redis permitted
    cases other
  · have permitted := is.permitted
    rw [acks] at permitted
    obtain ⟨-, -, other⟩ | ⟨-, -, _, other⟩ | ⟨_, -, -, other⟩ |
      ⟨loop, counts, messages, messageId, fields', -, decoding, own, mem, malformed⟩ |
      ⟨_, _, -, -, other⟩ | ⟨_, -, -, other⟩ := LoopStage.permits_redis permitted <;> first
      | cases other
      | skip
    cases own
    obtain ⟨isEntry, -⟩ := deliveries.messages t counts messages (by rw [is.staged, decoding]) _ mem
    cases entry.symm.trans isEntry
    exact absurd valid (malformed event)

theorem settled_act (acknowledged : Acknowledged env x) (consistent : Consistent env x)
    (deliveries : Deliveries x) (call : Call env x t choice)
    (stepped : System.step env x.1 (.act t choice) = some call.result.1) {id : Nat}
    {fields : StreamFields} {event : DocumentProcessingEvent}
    (entry : call.world'.redis.entries[id]? = some fields) (valid : decodeOne fields = .ok event)
    (settled : call.world'.redis.Settled id) : Attended env call.result.1 id event := by
  have redis : call.world'.redis = call.o.redisAfter x.1.world choice := execute_redisAfter call.ran
  have further : x.1.world.redis.Extends call.world'.redis := by
    rw [redis]
    exact Redis.redisAfter_extends _ _ _
  have settles : x.1.world.redis.Settled id ∨ call.o = .redis (.xack id) ∧
      id < x.1.world.redis.lastDelivered := by
    rw [redis] at settled
    generalize call.o = o at settled
    cases o with
    | redis o =>
      simp only [Op.redisAfter] at settled
      split at settled
      · obtain before | rfl := Redis.run_settles settled
        · exact .inl before
        · exact .inr ⟨rfl, settled.1⟩
      · exact .inl settled
    | _ => exact .inl settled
  have below : id < x.1.world.redis.lastDelivered := settles.elim And.left And.right
  have isEntry : x.1.world.redis.entries[id]? = some fields := by
    have inside := below.trans_le deliveries.delivered
    rw [List.getElem?_eq_getElem inside, ← further.entries id _ (List.getElem?_eq_getElem inside)]
    exact entry
  obtain before | ⟨acks, -⟩ := settles
  · exact (acknowledged.settled id fields event isEntry valid before).step stepped
  · exact (acknowledged.acked consistent deliveries call acks isEntry valid).step stepped

theorem step {guard : Guard} {label : Label} (acknowledged : Acknowledged env x)
    (run : StagedRun env guard x) (stepped : stagedStep env x label = some x') :
    Acknowledged env x' := by
  have consistent := StagedRun.consistent run
  have deliveries := StagedRun.deliveries run
  have known := StagedRun.known run
  have unique := StagedRun.unique run
  have moved := step_of_stagedStep stepped
  refine ⟨acknowledged.reached.step moved trivial, ?_, ?_⟩
  · intro t' th item stage found handles staged decided
    obtain ⟨t, choice, call, rfl, rfl⟩ | noCall := (move_of_step stepped).call_or
    · obtain ⟨rfl, rfl⟩ | ⟨other, isFound⟩ := call.threads_result found
      · rw [call.own_stage] at staged
        exact acknowledged.handled_act consistent deliveries known unique call moved handles staged
          decided
      · rw [call.other_stage other] at staged
        exact (acknowledged.handled t' th item stage isFound handles staged decided).step moved
    · obtain ⟨isFound, same⟩ | ⟨-, -, item, -⟩ := consistent.threads (move_of_step stepped) noCall found
      · rw [same] at staged
        exact (acknowledged.handled t' th _ stage isFound handles staged decided).step moved
      · cases item.symm.trans handles
  · intro id fields event entry valid settled
    obtain ⟨t, choice, call, rfl, rfl⟩ | noCall := (move_of_step stepped).call_or
    · exact acknowledged.settled_act consistent deliveries call moved entry valid settled
    · rw [((move_of_step stepped).rests noCall).redis] at entry settled
      exact (acknowledged.settled id fields event entry valid settled).step moved

end Acknowledged

theorem StagedRun.acknowledged {env : Env} {x : Staged} (h : StagedRun env anyRun x) :
    Acknowledged env x :=
  h.invariant ⟨.start, fun _ _ _ _ found => (by cases found), fun _ _ _ entry => (by cases entry)⟩
    fun _ _ _ reached acknowledged stepped _ => acknowledged.step reached stepped

/-- Every entry that validates and is no longer pending was attended to after its
delivery: at some moment its job was being processed or was done with. -/
theorem acknowledged_attended {env : Env} {s : System} (h : Reached env anyRun s) {id : Nat}
    {fields : StreamFields} {event : DocumentProcessingEvent}
    (entry : s.world.redis.entries[id]? = some fields) (valid : decodeOne fields = .ok event)
    (settled : s.world.redis.Settled id) :
    ∃ s₀ row, Reached env anyRun s₀ ∧ Reach (System.step env) s₀ anyRun s ∧
      id < s₀.world.redis.lastDelivered ∧ s₀.world.db.jobs event.jobId = some row ∧
        row.status ∉ claimableStatuses := by
  obtain ⟨g, staged⟩ := h.staged
  obtain ⟨s₀, reached, later, delivered, row, found, taken⟩ :=
    (StagedRun.acknowledged staged).settled id fields event entry valid settled
  exact ⟨s₀, row, reached, later, delivered, found, taken⟩

/-- The consumer acknowledges the only entry after it has completed the job. -/
theorem acknowledged_attended_completed : ∃ s fields event, Reached sampleEnv anyRun s ∧
    s.world.redis.entries[0]? = some fields ∧ decodeOne fields = .ok event ∧
      s.world.redis.Settled 0 ∧
        ∃ s₀ row, Reached sampleEnv anyRun s₀ ∧ Reach (System.step sampleEnv) s₀ anyRun s ∧
          0 < s₀.world.redis.lastDelivered ∧ s₀.world.db.jobs event.jobId = some row ∧
            row.status ∉ claimableStatuses := by
  obtain ⟨s, reached, accepted⟩ := Reached.exists_run sampleEnv anyRun (fun _ _ _ => true)
    (fun s => (s.world.redis.entries[0]?).any (fun fields => (decodeOne fields).isOk) &&
      (0 < s.world.redis.lastDelivered && (s.world.redis.pending 0).isNone))
    (fun _ _ _ _ => trivial) (completedRun ++ Label.oks 1 2) (by decide +kernel)
  simp only [Bool.and_eq_true, Option.any_eq_true, decide_eq_true_eq,
    Option.isNone_iff_eq_none] at accepted
  obtain ⟨⟨fields, entry, valid⟩, settled⟩ := accepted
  cases decoded : decodeOne fields with
  | error error =>
    rw [decoded] at valid
    cases valid
  | ok event =>
    exact ⟨s, fields, event, reached, entry, decoded, settled,
      acknowledged_attended reached entry decoded settled⟩

end DocumentPipeline

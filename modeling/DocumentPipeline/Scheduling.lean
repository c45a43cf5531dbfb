import Mathlib.Data.List.TakeWhile
import DocumentPipeline.Events

/-! What becomes of scheduled retries. The pop takes a whole batch out of the
retry set and the sweep publishes it event by event; a failed publish ends the
sweep, and with it the rest of the batch. -/

namespace DocumentPipeline
open EffectProgram Transition Queue

def Choice.isLost : Choice → Bool
  | .lost _ => true
  | _ => false

/-- No process crashes, and a pop or a publish of a sweep that fails changes
nothing. A loop that raises takes its process down in the source; here the other
loops of the process go on, and what follows holds of these runs as well. -/
def soberSweeps (s : System) : Label → Bool
  | .crash _ => false
  | .act t choice => match s.call? t with
    | some (_, .redis (.popDueRetries _ _)) => !choice.isLost
    | some (th, .redis (.xadd _)) => match th.control with
      | .publishing _ _ _ => !choice.isLost
      | _ => true
    | _ => true
  | _ => true

/-- A publish fails for the last event of its batch only. -/
def failsLast (s : System) : Label → Bool
  | .act t choice => match s.call? t with
    | some (th, .redis (.xadd _)) => match th.control with
      | .publishing _ rest _ => choice matches .ok || rest.isEmpty
      | _ => true
    | _ => true
  | _ => true

abbrev sweeping : Guard := fun s label _ => soberSweeps s label = true

abbrev sweepingWhole : Guard := fun s label _ => (soberSweeps s label && failsLast s label) = true

/-- No scheduled event is lost but with its own publish. -/
def Kept (s : System) : Prop :=
  ∀ event due, .scheduled event due ∈ s.world.history → event ∈ s.world.published ∨
    Waiting s event ∨ ∃ t, .publishFailed t event ∈ s.world.history

/-- A scheduled event is published at most once and popped when it is due on the
clock of the worker that pops it; it is lost only with its own publish. -/
structure RetriesConserved (env : Env) (s : System) : Prop where
  once : ∀ event due, .scheduled event due ∈ s.world.history → s.world.published.count event ≤ 1
  due : ∀ t event due clock, .popped t event due clock ∈ s.world.history →
    .scheduled event due ∈ s.world.history ∧ due ≤ clock ∧ ∃ th now, s.threads[t]? = some th ∧
      clock = now.timestamp ∧ now ≤ s.world.clock env th.proc
  kept : Kept s

section Observations
variable {env : Env} {x : Staged} {t : Nat} {choice : Choice} (call : Call env x t choice)

theorem scheduled_call {event : DocumentProcessingEvent} {due : ℚ}
    (mem : .scheduled event due ∈ call.world'.history) :
    .scheduled event due ∈ x.1.world.history ∨
      call.o = .redis (.zadd (.event event) due) ∧ choice.applied = true := by
  obtain announced | observed | before := call.mem_history.mp mem
  · obtain ⟨_, absurd⟩ | ⟨_, absurd⟩ := mem_announce announced <;> cases absurd
  · obtain absurd | ⟨write, -, absurd⟩ | ⟨o, isRedis, mem⟩ | ⟨-, _, -, absurd⟩ := mem_observes observed
    · cases absurd
    · cases write <;> cases absurd
    · obtain ⟨_, _, -, -, absurd | ⟨-, absurd⟩⟩ | ⟨_, _, rfl, applied, same⟩ |
        ⟨_, _, _, _, -, -, absurd⟩ | ⟨_, absurd⟩ := mem_redis_observes mem
      case inr.inl =>
        cases same
        exact .inr ⟨isRedis, applied⟩
      all_goals cases absurd
    · cases absurd
  · exact .inl before

theorem popped_call {t' : Nat} {event : DocumentProcessingEvent} {due clock : ℚ}
    (mem : .popped t' event due clock ∈ call.world'.history) :
    .popped t' event due clock ∈ x.1.world.history ∨
      t' = t ∧ ∃ limit, call.o = .redis (.popDueRetries clock limit) ∧
        (.event event, due) ∈ x.1.world.redis.due clock limit := by
  obtain announced | observed | before := call.mem_history.mp mem
  · obtain ⟨_, absurd⟩ | ⟨_, absurd⟩ := mem_announce announced <;> cases absurd
  · obtain absurd | ⟨write, -, absurd⟩ | ⟨o, isRedis, mem⟩ | ⟨-, _, -, absurd⟩ := mem_observes observed
    · cases absurd
    · cases write <;> cases absurd
    · obtain ⟨_, _, -, -, absurd | ⟨-, absurd⟩⟩ | ⟨_, _, -, -, absurd⟩ |
        ⟨_, limit, _, _, rfl, isDue, same⟩ | ⟨_, absurd⟩ := mem_redis_observes mem
      case inr.inr.inl =>
        cases same
        exact .inr ⟨rfl, limit, isRedis, isDue⟩
      all_goals cases absurd
    · cases absurd
  · exact .inl before

theorem due_le {r : Redis} {clock due : ℚ} {limit : Nat} {member : Payload}
    (mem : (member, due) ∈ r.due clock limit) : due ≤ clock ∧ (member, due) ∈ r.retry := by
  have within := List.mem_of_mem_take mem
  exact ⟨by simpa using List.mem_takeWhile_imp within, (List.takeWhile_sublist _).subset within⟩

end Observations

structure Punctual (env : Env) (x : Staged) : Prop where
  members : ∀ event score, (.event event, score) ∈ x.1.world.redis.retry →
    .scheduled event score ∈ x.1.world.history
  times : ∀ (t : Nat) (th : Thread) (now : Time), x.1.threads[t]? = some th →
    x.2 t = .loop (.clocked now) → now ≤ x.1.world.clock env th.proc
  due : ∀ t event due clock, .popped t event due clock ∈ x.1.world.history →
    .scheduled event due ∈ x.1.world.history ∧ due ≤ clock ∧ ∃ th now,
      x.1.threads[t]? = some th ∧ clock = now.timestamp ∧ now ≤ x.1.world.clock env th.proc

namespace Punctual
variable {env : Env} {x : Staged} {t : Nat} {choice : Choice}

theorem clocked_now (call : Call env x t choice) {task : Task} {stage : LoopStage}
    (is : LoopCall call task stage) {now : Time}
    (reached : stage.next call.o call.reply.answer = .clocked now) :
    now = x.1.world.clock env call.thread.proc := by
  have permitted := is.permitted
  obtain ⟨thread, o, next, reply, found, waits, ran⟩ := call
  cases o with
  | db o => exact (LoopStage.permits_db permitted).elim
  | runtime o =>
    obtain ⟨-, rfl, rfl⟩ := LoopStage.permits_runtime permitted
    obtain ⟨done, did, rfl⟩ := execute_runtime ran
    cases choice <;> cases did
    cases reached
    rfl
  | redis o =>
    cases stage <;> cases o <;> rcases reply with ⟨_, _, _ | _⟩ <;> cases reached

theorem members_call (call : Call env x t choice) {event : DocumentProcessingEvent} {score : ℚ}
    (mem : (.event event, score) ∈ call.world'.redis.retry) :
    (.event event, score) ∈ x.1.world.redis.retry ∨
      .scheduled event score ∈ call.world'.history := by
  have redis : call.world'.redis = call.o.redisAfter x.1.world choice := execute_redisAfter call.ran
  have observed : .scheduled event score ∈ call.o.observes (System.context t call.thread) x.1.world
      call.thread.loc choice → .scheduled event score ∈ call.world'.history := fun mem =>
    call.mem_history.mpr (.inr (.inl mem))
  generalize call.world'.history = history at observed ⊢
  rw [redis] at mem
  cases quiet : call.o.reschedules with
  | false =>
    rw [Redis.redisAfter_retry quiet] at mem
    exact .inl mem
  | true =>
    cases isOp : call.o with
    | redis o =>
      rw [isOp] at mem observed
      simp only [Op.redisAfter] at mem
      split at mem
      · rename_i applied
        cases o with
        | zadd member due =>
          obtain same | old := List.mem_cons.mp ((Redis.insertDue_perm member due _).mem_iff.mp mem)
          · cases same
            refine .inr (observed (List.mem_append_right _ ?_))
            simp only [RedisOp.observes, applied, if_true, World.eventsOf, List.map_cons, List.map_nil,
              List.mem_singleton]
          · exact .inl (List.mem_filter.mp old).1
        | popDueRetries clock limit => exact .inl (List.mem_of_mem_drop mem)
        | _ => exact .inl mem
      · exact .inl mem
    | _ =>
      rw [isOp] at quiet
      cases quiet

theorem act (punctual : Punctual env x) (consistent : Consistent env x)
    (call : Call env x t choice) : Punctual env call.result := by
  have clock : ∀ proc, call.world'.clock env proc = x.1.world.clock env proc := fun proc => by
    simp only [World.clock, Call.world', World.note_now, execute_now call.ran]
  have older : x.1.world.history ⊆ call.world'.history := fun _ mem =>
    call.mem_history.mpr (.inr (.inr mem))
  refine ⟨fun event score mem => ?_, fun t' th now found staged => ?_,
    fun t' event due clock' mem => ?_⟩
  · obtain old | new := members_call call mem
    · exact older (punctual.members event score old)
    · exact new
  · rw [clock]
    obtain ⟨rfl, rfl⟩ | ⟨other, isFound⟩ := call.threads_result found
    · rw [call.own_stage] at staged
      obtain ⟨item, stage, is⟩ | ⟨request, stage, is⟩ | ⟨task, stage, is⟩ := consistent.kind call
      · obtain ⟨goes, -⟩ | ⟨-, goes⟩ := is.goes
        · cases goes.symm.trans staged
        · cases Control.first_loop (goes.symm.trans staged)
      · obtain ⟨goes, -⟩ | ⟨-, goes, -⟩ := is.goes <;> cases goes.symm.trans staged
      · obtain ⟨goes, -⟩ | goes := is.goes
        · exact (clocked_now call is (Stage.loop.inj (goes.symm.trans staged))).le
        · cases Control.first_loop (goes.symm.trans staged)
    · rw [call.other_stage other] at staged
      exact punctual.times t' th now isFound staged
  · obtain before | ⟨rfl, limit, pops, isDue⟩ := popped_call call mem
    · obtain ⟨scheduled, past, th, now, found, read, early⟩ := punctual.due t' event due clock' before
      obtain ⟨th', found', proc⟩ := (Move.act call).proc found
      exact ⟨older scheduled, past, th', now, found', read, by rw [proc, clock]; exact early⟩
    · obtain ⟨past, member⟩ := due_le isDue
      obtain ⟨now, is, read⟩ := consistent.popping call pops
      have early := punctual.times t' _ now call.found is.staged
      exact ⟨older (punctual.members event due member), past, call.thread', now, call.own_result,
        read, by rw [clock]; exact early⟩

theorem undisturbed {x' : Staged} {label : Label} (punctual : Punctual env x)
    (consistent : Consistent env x) (move : Move env x label x')
    (noCall : ∀ t choice, label ≠ .act t choice) : Punctual env x' := by
  have rests := move.rests noCall
  have later : ∀ proc, x.1.world.clock env proc ≤ x'.1.world.clock env proc := fun proc =>
    Int.add_le_add_right rests.now _
  refine ⟨fun event score mem => ?_, fun t th now found staged => ?_,
    fun t event due clock mem => ?_⟩
  · rw [rests.redis] at mem
    rw [rests.history]
    exact punctual.members event score mem
  · obtain ⟨isFound, same⟩ | ⟨-, first, -⟩ := consistent.threads move noCall found
    · exact (punctual.times t th now isFound (same.symm.trans staged)).trans (later _)
    · cases Control.first_loop (first.symm.trans staged)
  · rw [rests.history] at mem ⊢
    obtain ⟨scheduled, past, th, now, found, read, before⟩ := punctual.due t event due clock mem
    obtain ⟨th', found', proc⟩ := move.proc found
    exact ⟨scheduled, past, th', now, found', read, proc ▸ before.trans (later _)⟩

theorem step {x' : Staged} {label : Label} (punctual : Punctual env x)
    (consistent : Consistent env x) (move : Move env x label x') : Punctual env x' := by
  obtain ⟨t, choice, call, rfl, rfl⟩ | noCall := move.call_or
  · exact punctual.act consistent call
  · exact punctual.undisturbed consistent move noCall

theorem init : Punctual env (System.init, fun _ => .resting) where
  members _ _ mem := by cases mem
  times _ _ _ found := by cases found
  due _ _ _ _ mem := by cases mem

end Punctual

theorem StagedRun.punctual {env : Env} {guard : Guard} {x : Staged} (h : StagedRun env guard x) :
    Punctual env x :=
  h.invariant Punctual.init fun _ _ _ reached punctual stepped _ =>
    punctual.step (StagedRun.consistent reached) (move_of_step stepped)

namespace Kept
variable {env : Env} {x : Staged} {t : Nat} {choice : Choice}

theorem waiting_act (consistent : Consistent env x) (call : Call env x t choice)
    (sober : soberSweeps x.1 (.act t choice) = true) (last : failsLast x.1 (.act t choice) = true)
    {event : DocumentProcessingEvent} (waiting : Waiting x.1 event) :
    event ∈ call.world'.published ∨ Waiting call.result.1 event ∨
      ∃ t, .publishFailed t event ∈ call.world'.history := by
  obtain kept | ⟨other, rest, p, control, publishes, gone⟩ | ⟨clock, limit, pops, applied, notOk⟩ :=
    waiting.call consistent call
  · exact .inr (.inl kept)
  · simp only [failsLast, call.call?_eq, publishes, control] at last
    simp only [soberSweeps, call.call?_eq, publishes, control] at sober
    have published := published_call call
    have observed : ∀ ob, ob ∈ call.o.observes (System.context t call.thread) x.1.world
        call.thread.loc choice → ob ∈ call.world'.history := fun ob mem =>
      call.mem_history.mpr (.inr (.inl mem))
    rw [publishes] at published observed
    obtain rfl | ⟨error, rfl⟩ | ⟨error, rfl⟩ := call.redis_choice publishes
    · obtain rfl | ⟨-, notOk⟩ := gone
      · left
        rw [published]
        exact List.mem_append_left _ (List.mem_singleton_self event)
      · exact absurd rfl notOk
    · obtain rfl | ⟨behind, -⟩ := gone
      · refine .inr (.inr ⟨t, observed _ (List.mem_append_right _ ?_)⟩)
        exact List.mem_singleton_self _
      · have none_ : rest = [] := List.isEmpty_iff.mp (by simpa using last)
        rw [none_] at behind
        cases behind
    · cases sober
  · simp only [soberSweeps, call.call?_eq, pops] at sober
    obtain rfl | ⟨error, rfl⟩ | ⟨error, rfl⟩ := call.redis_choice pops
    · exact absurd rfl notOk
    · cases applied
    · cases sober

theorem step {x' : Staged} {label : Label} (kept : Kept x.1) (consistent : Consistent env x)
    (move : Move env x label x') (sober : soberSweeps x.1 label = true)
    (last : failsLast x.1 label = true) : Kept x'.1 := by
  intro event due mem
  obtain ⟨t, choice, call, rfl, rfl⟩ | noCall := move.call_or
  · obtain before | ⟨isZadd, applied⟩ := scheduled_call call mem
    · obtain published | waiting | ⟨t', failed⟩ := kept event due before
      · left
        rw [show call.result.1.world = call.world' from rfl, published_call call]
        exact List.mem_append_right _ published
      · exact waiting_act consistent call sober last waiting
      · exact .inr (.inr ⟨t', call.mem_history.mpr (.inr (.inr failed))⟩)
    · have redis : call.world'.redis = call.o.redisAfter x.1.world choice :=
        execute_redisAfter call.ran
      refine .inr (.inl (.inl ⟨due, ?_⟩))
      rw [show call.result.1.world = call.world' from rfl, redis, isZadd]
      simp only [Op.redisAfter, applied, if_true]
      exact Redis.zadd_mem ..
  · have rests := move.rests noCall
    have alive : ∀ proc, label ≠ .crash proc := by
      rintro proc rfl
      cases sober
    rw [rests.history] at mem ⊢
    obtain published | waiting | failed := kept event due mem
    · exact .inl (by rwa [World.published, rests.history])
    · exact .inr (.inl (waiting.undisturbed move noCall alive))
    · exact .inr (.inr failed)

end Kept

/-- Sweeps conserve scheduled retries as long as no publish fails before the
last event of its batch. -/
theorem retries_conserved {env : Env} {s : System} (h : Reached env sweepingWhole s) :
    RetriesConserved env s := by
  obtain ⟨g, staged⟩ := h.staged
  have kept : Kept s := staged.invariant (I := fun x => Kept x.1) (fun _ _ mem => by cases mem)
    fun x label x' (reached : StagedRun env sweepingWhole x) kept stepped guarded => by
      rw [sweepingWhole, Bool.and_eq_true] at guarded
      exact kept.step reached.consistent (move_of_step stepped) guarded.1 guarded.2
  refine ⟨fun event due _ => ?_, staged.punctual.due, kept⟩
  exact (Nat.le_add_left _ _).trans (staged.unique.single event)

def sweptRun : List Label :=
  [.receive 0 sampleUpload] ++ Label.oks 0 14 ++ [.startWorker 1 "w"] ++ Label.timedOut 1 ++
    [.tick 600000000, .iterate 3] ++ Label.oks 3 3

theorem retries_conserved_swept : ∃ s, Reached sampleEnv sweepingWhole s ∧
    s.world.published.length = 2 ∧ RetriesConserved sampleEnv s := by
  obtain ⟨s, reached, accepted⟩ := Reached.exists_run sampleEnv sweepingWhole
    (fun s label _ => soberSweeps s label && failsLast s label)
    (fun s => s.world.published.length = 2) (fun _ _ _ guarded => guarded) sweptRun
    (by decide +kernel)
  exact ⟨s, reached, by simpa using accepted, retries_conserved reached⟩

def System.losesRetry (s : System) : Bool :=
  s.world.history.any fun
    | .scheduled event _ => event ∉ s.world.published && s.world.redis.retry.all (·.1 ≠ .event event) &&
      s.threads.all (event ∉ ·.control.held) && s.world.history.all fun
        | .publishFailed _ other => other ≠ event
        | _ => true
    | _ => false

theorem System.losesRetry_sound {s : System} (h : s.losesRetry = true) : ¬Kept s := by
  intro kept
  obtain ⟨observation, mem, lost⟩ := List.any_eq_true.mp h
  split at lost
  · rename_i event due
    simp only [Bool.and_eq_true, decide_eq_true_eq, List.all_eq_true] at lost
    obtain ⟨⟨⟨unpublished, members⟩, threads⟩, failures⟩ := lost
    obtain published | (⟨score, member⟩ | ⟨t, th, found, held⟩) | ⟨t, failed⟩ := kept event due mem
    · exact unpublished published
    · exact members _ member rfl
    · exact threads th (List.mem_of_getElem? found) held
    · have apart := failures _ failed
      simp at apart
  · cases lost

/-- Two jobs time out; the sweep pops both retries and fails to publish the
first, which ends it. -/
def brokenBatchRun : List Label :=
  [.receive 0 sampleUpload] ++ Label.oks 0 14 ++ [.receive 0 sampleUpload] ++ Label.oks 1 14 ++
    [.startWorker 1 "w"] ++ Label.timedOut 2 ++ Label.timedOut 2 ++
    [.tick 600000000, .iterate 4] ++ Label.oks 4 2 ++ [.act 4 (.fails (.connection ""))]

theorem retries_not_conserved :
    ¬∀ env s, Reached env sweeping s → RetriesConserved env s := by
  intro conserved
  obtain ⟨s, reached, accepted⟩ := Reached.exists_run sampleEnv sweeping
    (fun s label _ => soberSweeps s label) System.losesRetry (fun _ _ _ sober => sober)
    brokenBatchRun (by decide +kernel)
  exact System.losesRetry_sound accepted (conserved sampleEnv s reached).kept

end DocumentPipeline

import DocumentPipeline.Deliveries
import DocumentPipeline.History

/-! Where the copies of an event are. An event is a member of the retry set, is
held by a scheduler, or has been published; its identifier is drawn once, so
there is never more than one copy of it, whatever fails. -/

namespace DocumentPipeline
open EffectProgram Transition Queue

def Observation.published? : Observation → Option DocumentProcessingEvent
  | .published _ event => some event
  | _ => none

def World.published (w : World) : List DocumentProcessingEvent :=
  w.history.filterMap (·.published?)

def Op.publishes : Op → Choice → List DocumentProcessingEvent
  | .redis (.xadd fields), choice => if choice.applied then World.eventsOf fields.data else []
  | _, _ => []

def Op.reschedules : Op → Bool
  | .redis (.zadd _ _) | .redis (.popDueRetries _ _) => true
  | _ => false

/-- The copies of an event: scheduled, popped and not yet published, published. -/
def copies (x : Staged) (event : DocumentProcessingEvent) : Nat :=
  (x.1.world.redis.retry.map (·.1)).count (.event event) +
    total x (fun th _ => th.control.held.count event) + x.1.world.published.count event

namespace Redis

theorem insertDue_perm (member : Payload) (score : ℚ) (entries : List (Payload × ℚ)) :
    (insertDue member score entries).Perm ((member, score) :: entries) := by
  induction entries with
  | nil => exact .refl _
  | cons entry rest ih =>
    simp only [insertDue]
    split
    · exact .refl _
    · exact (ih.cons entry).trans (.swap ..)

theorem due_eq_take (r : Redis) (now : ℚ) (limit : Nat) :
    r.due now limit = r.retry.take (r.due now limit).length := by
  have isPrefix : r.due now limit <+: r.retry :=
    (List.take_prefix _ _).trans (List.takeWhile_prefix _)
  exact List.prefix_iff_eq_take.mp isPrefix

theorem zadd_retry (now : Time) (r : Redis) (member other : Payload) (score : ℚ) :
    ((r.run now (.zadd member score)).redis.retry.map (·.1)).count other ≤
      (r.retry.map (·.1)).count other + if other = member then 1 else 0 := by
  simp only [run]
  rw [((insertDue_perm member score _).map _).count_eq]
  have fewer : (((r.retry.filter fun entry => entry.1 ≠ member).map (·.1)).count other) ≤
      (r.retry.map (·.1)).count other :=
    ((List.filter_sublist).map _).count_le other
  simp only [List.map_cons, List.count_cons]
  split <;> split <;> simp_all

theorem pop_retry (now : Time) (r : Redis) (clock : ℚ) (limit : Nat) (other : Payload) :
    ((r.run now (.popDueRetries clock limit)).redis.retry.map (·.1)).count other +
      (r.run now (.popDueRetries clock limit)).value.count other =
        (r.retry.map (·.1)).count other := by
  simp only [run]
  conv => rhs; rw [← List.take_append_drop (r.due clock limit).length r.retry]
  rw [List.map_append, List.count_append, ← due_eq_take, Nat.add_comm]

theorem redisAfter_retry {w : World} {o : Op} {choice : Choice} (quiet : o.reschedules = false) :
    (o.redisAfter w choice).retry = w.redis.retry := by
  cases o with
  | redis o =>
    simp only [Op.redisAfter]
    split
    · cases o <;> first | rfl | cases quiet
    · rfl
  | _ => rfl

end Redis

theorem decodeRetries_count (raw : List Payload) (event : DocumentProcessingEvent) :
    (decodeRetries raw).count event = raw.count (.event event) := by
  induction raw with
  | nil => rfl
  | cons payload rest ih =>
    cases payload with
    | junk text =>
      rw [List.count_cons_of_ne (by simp), ← ih]
      rfl
    | event other =>
      simp only [decodeRetries, List.filterMap_cons, List.count_cons] at ih ⊢
      rw [ih]
      congr 1
      simp only [beq_iff_eq, Payload.event.injEq]

section Calls
variable {env : Env} {x : Staged} {t : Nat} {choice : Choice} (call : Call env x t choice)
  (event : DocumentProcessingEvent)

theorem announce_published (t : Nat) (reached : Control) :
    (reached.announce t).filterMap (·.published?) = [] := by
  cases reached with
  | fetching loop p => cases p <;> simp [Control.announce, Observation.published?]
  | serving request p => cases p <;> rfl
  | _ => rfl

theorem observes_published (ctx : Context) (w : World) (loc : Local) (o : Op) :
    (o.observes ctx w loc choice).filterMap (·.published?) = o.publishes choice := by
  have faults : (choice.faults ctx).filterMap (·.published?) = [] := by cases choice <;> rfl
  cases o with
  | runtime o => cases o <;> first | rfl | (simp only [Op.observes]; cases ctx.item <;> rfl)
  | db o =>
    simp only [Op.observes, List.filterMap_append, faults]
    cases loc.commits (.db o) choice with
    | none => rfl
    | some write => cases write <;> rfl
  | redis o =>
    simp only [Op.observes, List.filterMap_append, faults, List.nil_append]
    cases o with
    | xadd fields =>
      simp only [RedisOp.observes, List.filterMap_append, Op.publishes]
      cases choice <;> simp [Choice.applied, Observation.published?, List.filterMap_map]
    | _ =>
      cases choice <;>
        simp [RedisOp.observes, Choice.applied, Op.publishes, Observation.published?,
          List.filterMap_flatMap]

theorem published_call :
    call.world'.published = call.o.publishes choice ++ x.1.world.published := by
  simp only [World.published, call.history, List.filterMap_append, announce_published,
    observes_published, List.nil_append]

theorem AttemptCall.held {call : Call env x t choice} {item : DeliveredEvent}
    {stage : AttemptStage} (is : AttemptCall call item stage) :
    call.thread.control.held = [] ∧ call.thread'.control.held = [] := by
  obtain ⟨loop, rest, p, p', control, reached⟩ := is.control
  refine ⟨by rw [control]; rfl, ?_⟩
  simp only [reached]
  cases p' with
  | call o next => rfl
  | ret outcome => cases rest <;> rfl
  | raise error => rfl

theorem RequestCall.held {call : Call env x t choice} {request : Request}
    {stage : RequestStage} (is : RequestCall call request stage) :
    call.thread.control.held = [] ∧ call.thread'.control.held = [] := by
  obtain ⟨p, p', control, reached⟩ := is.control
  refine ⟨by rw [control]; rfl, ?_⟩
  simp only [reached]
  cases p' <;> rfl

theorem held_publishNext (events : List DocumentProcessingEvent) :
    (Control.publishNext events).held = events := by
  cases events <;> rfl

theorem held_takeNext (name : String) (loop : Loop) (items : List DeliveredEvent) :
    (Control.takeNext env name loop items).held = [] := by
  cases items <;> rfl

theorem LoopCall.held_after {call : Call env x t choice} {task : Task} {stage : LoopStage}
    (is : LoopCall call task stage) :
    call.thread'.control.held = [] ∨
    (call.thread'.control.held = call.thread.control.held ∧
      ∃ o, (stage.next call.o call.reply.answer).permits env call.thread.name task o) ∨
    (∃ raw, stage.next call.o call.reply.answer = .popped raw ∧
      call.thread'.control.held = decodeRetries raw) ∨
    ∃ event, task = .publish event ∧ stage.next call.o call.reply.answer = .published ∧
      call.thread.control.held = event :: call.thread'.control.held := by
  obtain ⟨running, held, -, more⟩ | ⟨loop, items, -, outcome, -⟩ | ⟨raw, -, outcome, staged⟩ |
    ⟨event, rest, id, is, held, outcome, staged⟩ | ⟨loop, idle, -, -⟩ := is.ends
  · rw [show call.thread'.control = call.reached from Control.settle_running running]
    exact .inr (.inl ⟨held, more⟩)
  · exact .inl (by simp only [outcome, Control.settle, held_takeNext])
  · simp only [outcome, Control.settle, held_publishNext]
    exact .inr (.inr (.inl ⟨raw, staged, rfl⟩))
  · simp only [outcome, Control.settle, held_publishNext, held]
    exact .inr (.inr (.inr ⟨event, is, staged, rfl⟩))
  · exact .inl (by simp only [idle]; rfl)

theorem publish_held {c : Control} (runs : c.task? = some (.publish event)) :
    ∃ rest, c.held = event :: rest := by
  cases c <;> cases runs
  exact ⟨_, rfl⟩

theorem LoopCall.held_le {call : Call env x t choice} {task : Task} {stage : LoopStage}
    (is : LoopCall call task stage) : call.thread'.control.held.count event +
      (call.world'.redis.retry.map (·.1)).count (.event event) + (call.o.publishes choice).count event
      ≤ call.thread.control.held.count event +
        (x.1.world.redis.retry.map (·.1)).count (.event event) := by
  have permitted := is.permitted
  have after := is.held_after
  have head := is.control.1
  obtain ⟨thread, o, next, reply, found, waits, ran⟩ := call
  have redis := execute_redisAfter ran
  simp only [Call.world', World.note_redis] at *
  rw [redis]
  -- a call that neither pops nor publishes leaves what the loop holds
  have quiet : (∀ raw, stage.next o reply.answer ≠ .popped raw) →
      stage.next o reply.answer ≠ .published →
      (Control.settle env thread.name (next reply.answer)).held.count event ≤
        thread.control.held.count event := by
    intro noPop noPublish
    obtain none_ | ⟨same, -⟩ | ⟨raw, popped, -⟩ | ⟨_, -, published, -⟩ := after
    · rw [none_]
      exact Nat.zero_le _
    · rw [same]
    · exact absurd popped (noPop raw)
    · exact absurd published noPublish
  cases o with
  | db o => exact (LoopStage.permits_db permitted).elim
  | runtime o =>
    obtain ⟨-, rfl, rfl⟩ := LoopStage.permits_runtime permitted
    have less := quiet (fun _ same => by rcases reply with ⟨_, _, _ | _⟩ <;> cases same)
      (fun same => by rcases reply with ⟨_, _, _ | _⟩ <;> cases same)
    exact Nat.add_le_add_right less _
  | redis o =>
    obtain ⟨-, rfl, rfl⟩ | ⟨-, rfl, _, rfl⟩ | ⟨_, -, rfl, rfl⟩ |
      ⟨_, _, _, _, _, -, rfl, rfl, -⟩ | ⟨now, limit, rfl, rfl, rfl⟩ | ⟨other, rfl, rfl, rfl⟩ :=
      LoopStage.permits_redis permitted
    case inr.inr.inr.inr.inl =>
      have balance := Redis.pop_retry x.1.world.now x.1.world.redis now.timestamp limit (.event event)
      simp only [Op.redisAfter, Op.publishes, List.count_nil, Nat.add_zero]
      obtain ⟨rfl, rfl⟩ | ⟨error, rfl, -, rfl⟩ | ⟨error, rfl, -, rfl⟩ := execute_redis ran
      · obtain none_ | ⟨-, _, none_⟩ | ⟨raw, popped, gets⟩ | ⟨_, -, published, -⟩ := after
        · simp only [none_, List.count_nil, Choice.applied, if_true]
          omega
        · exact none_.elim
        · cases popped
          simp only [gets, decodeRetries_count, Choice.applied, if_true]
          omega
        · cases published
      · have less := quiet (fun _ same => by cases same) (fun same => by cases same)
        exact Nat.add_le_add_right less _
      · have less := quiet (fun _ same => by cases same) (fun same => by cases same)
        have drops : ((x.1.world.redis.run x.1.world.now
            (.popDueRetries now.timestamp limit)).redis.retry.map (·.1)).count (.event event) ≤
              (x.1.world.redis.retry.map (·.1)).count (.event event) := by omega
        exact Nat.add_le_add less drops
    case inr.inr.inr.inr.inr =>
      obtain ⟨rest, held⟩ := publish_held _ head
      rw [Redis.redisAfter_retry rfl, held]
      -- however XADD ends, the head of the batch is given up
      have less : (Control.settle env thread.name (next reply.answer)).held.count event ≤
          rest.count event := by
        obtain none_ | ⟨-, _, more⟩ | ⟨raw, popped, -⟩ | ⟨_, same, published, gets⟩ := after
        · rw [none_]
          exact Nat.zero_le _
        · rcases reply with ⟨_, _, _ | _⟩ <;> exact more.elim
        · rcases reply with ⟨_, _, _ | _⟩ <;> cases popped
        · cases held.symm.trans gets
          exact le_rfl
      have once : (Op.publishes (.redis (.xadd (toStreamFields other))) choice).count event ≤
          [other].count event := by
        simp only [Op.publishes]
        split
        · exact le_rfl
        · exact Nat.zero_le _
      rw [← List.singleton_append, List.count_append]
      refine (Nat.add_le_add (Nat.add_le_add_right less _) once).trans ?_
      omega
    all_goals
      have less := quiet (fun _ same => by rcases reply with ⟨_, _, _ | _⟩ <;> cases same)
        (fun same => by rcases reply with ⟨_, _, _ | _⟩ <;> cases same)
      rw [Redis.redisAfter_retry rfl]
      exact Nat.add_le_add_right less _

end Calls

/-- The event is in the retry set or held by a scheduler. -/
def Waiting (s : System) (event : DocumentProcessingEvent) : Prop :=
  (∃ score, (.event event, score) ∈ s.world.redis.retry) ∨
    ∃ (t : Nat) (th : Thread), s.threads[t]? = some th ∧ event ∈ th.control.held

namespace Redis

theorem zadd_mem (now : Time) (r : Redis) (member : Payload) (score : ℚ) :
    (member, score) ∈ (r.run now (.zadd member score)).redis.retry :=
  (insertDue_perm member score _).mem_iff.mpr List.mem_cons_self

theorem redisAfter_members {w : World} {o : Op} {choice : Choice} {member : Payload}
    (mem : ∃ score, (member, score) ∈ w.redis.retry) :
    (∃ score, (member, score) ∈ (o.redisAfter w choice).retry) ∨
      ∃ clock limit, o = .redis (.popDueRetries clock limit) ∧ choice.applied = true ∧
        member ∈ (w.redis.run w.now (.popDueRetries clock limit)).value := by
  obtain ⟨score, mem⟩ := mem
  cases quiet : o.reschedules with
  | false => exact .inl ⟨score, by rwa [redisAfter_retry quiet]⟩
  | true =>
    cases o with
    | redis o =>
      cases applied : choice.applied with
      | false => exact .inl ⟨score, by simp only [Op.redisAfter, applied]; exact mem⟩
      | true =>
        simp only [Op.redisAfter, applied, if_true]
        cases o <;> try cases quiet
        · rename_i other due
          by_cases same : member = other
          · subst same
            exact .inl ⟨due, zadd_mem ..⟩
          · refine .inl ⟨score, (insertDue_perm other due _).mem_iff.mpr (List.mem_cons_of_mem _ ?_)⟩
            exact List.mem_filter.mpr ⟨mem, by simpa using same⟩
        · rename_i clock limit
          have split := List.take_append_drop (w.redis.due clock limit).length w.redis.retry
          rw [← split, List.mem_append, ← due_eq_take] at mem
          obtain due | later := mem
          · exact .inr ⟨clock, limit, rfl, trivial, List.mem_map.mpr ⟨_, due, rfl⟩⟩
          · exact .inl ⟨score, later⟩
    | _ => cases quiet

end Redis

theorem mem_decodeRetries {raw : List Payload} {event : DocumentProcessingEvent}
    (mem : .event event ∈ raw) : event ∈ decodeRetries raw :=
  List.mem_filterMap.mpr ⟨_, mem, rfl⟩

section Popping
variable {env : Env} {x : Staged} {t : Nat} {choice : Choice} {event : DocumentProcessingEvent}

theorem Consistent.popping (consistent : Consistent env x) (call : Call env x t choice) {clock : ℚ}
    {limit : Nat} (pops : call.o = .redis (.popDueRetries clock limit)) :
    ∃ now : Time, LoopCall call .pop (.clocked now) ∧ clock = now.timestamp := by
  obtain ⟨item, stage, is⟩ | ⟨request, stage, is⟩ | ⟨task, stage, is⟩ := consistent.kind call
  · have permitted := is.permitted
    rw [pops] at permitted
    obtain ⟨_, _, _, -, absurd⟩ | ⟨_, -, absurd⟩ := AttemptStage.permits_redis permitted <;>
      cases absurd
  · have permitted := is.permitted
    rw [pops] at permitted
    obtain ⟨_, _, _, -, absurd, -⟩ := RequestStage.permits_redis permitted
    cases absurd
  · have permitted := is.permitted
    rw [pops] at permitted
    obtain ⟨-, -, absurd⟩ | ⟨-, -, _, absurd⟩ | ⟨_, -, -, absurd⟩ |
      ⟨_, _, _, _, _, -, -, absurd, -⟩ | ⟨now, _, rfl, rfl, same⟩ | ⟨_, -, -, absurd⟩ :=
      LoopStage.permits_redis permitted
    case inr.inr.inr.inr.inl =>
      cases same
      exact ⟨now, is, rfl⟩
    all_goals cases absurd

theorem Call.pops (call : Call env x t choice) (consistent : Consistent env x) {clock : ℚ}
    {limit : Nat} (pops : call.o = .redis (.popDueRetries clock limit)) (ok : choice = .ok)
    (due : .event event ∈ (x.1.world.redis.run x.1.world.now (.popDueRetries clock limit)).value) :
    event ∈ call.thread'.control.held := by
  obtain ⟨now, is, -⟩ := consistent.popping call pops
  have ends := is.ends
  obtain ⟨thread, o, next, reply, found, waits, ran⟩ := call
  cases pops
  obtain ⟨-, rfl⟩ | ⟨_, failed, -⟩ | ⟨_, lost, -⟩ := execute_redis ran
  · obtain ⟨-, -, -, _, more⟩ | ⟨_, _, absurd, -⟩ | ⟨raw, -, outcome, staged⟩ |
      ⟨_, _, _, absurd, -⟩ | ⟨_, -, -, refused⟩ := ends
    · exact more.elim
    · cases absurd
    · cases staged
      dsimp only [Call.reached] at outcome
      simp only [Call.reached, outcome, Control.settle, held_publishNext]
      exact mem_decodeRetries due
    · cases absurd
    · cases refused (fun _ absurd => by cases absurd)
  · cases ok.symm.trans failed
  · cases ok.symm.trans lost

theorem LoopCall.keeps {call : Call env x t choice} {task : Task} {stage : LoopStage}
    (is : LoopCall call task stage) (held : event ∈ call.thread.control.held) :
    event ∈ call.thread'.control.held ∨
      ∃ other rest p, call.thread.control = .publishing other rest p ∧
        call.o = .redis (.xadd (toStreamFields other)) ∧
          (event = other ∨ event ∈ rest ∧ choice ≠ .ok) := by
  have permitted := is.permitted
  have ends := is.ends
  have runs := is.control.1
  obtain ⟨⟨proc, name, control, loc⟩, o, next, reply, found, waits, ran⟩ := call
  dsimp only at *
  cases control with
  | publishing other rest p =>
    cases runs
    cases o with
    | db o => exact (LoopStage.permits_db permitted).elim
    | runtime o =>
      obtain ⟨absurd, -⟩ := LoopStage.permits_runtime permitted
      cases absurd
    | redis o =>
      obtain ⟨absurd, -⟩ | ⟨absurd, -⟩ | ⟨_, absurd, -⟩ | ⟨_, _, _, _, _, absurd, -⟩ |
        ⟨_, _, absurd, -⟩ | ⟨_, same, rfl, rfl⟩ := LoopStage.permits_redis permitted
      all_goals first | cases absurd | cases same
      obtain rfl | later := List.mem_cons.mp held
      · exact .inr ⟨event, rest, p, rfl, rfl, .inl rfl⟩
      · by_cases ok : choice = .ok
        · left
          obtain ⟨-, rfl⟩ | ⟨_, failed, -⟩ | ⟨_, lost, -⟩ := execute_redis ran
          · obtain ⟨-, -, -, _, more⟩ | ⟨_, _, absurd, -⟩ | ⟨_, absurd, -⟩ |
              ⟨_, after, id, -, batch, outcome, -⟩ | ⟨_, -, -, refused⟩ := ends
            · exact more.elim
            · cases absurd
            · cases absurd
            · cases batch
              dsimp only [Call.reached] at outcome
              simp only [Call.reached, outcome, Control.settle, held_publishNext]
              exact later
            · cases refused (fun _ absurd => by cases absurd)
          · cases ok.symm.trans failed
          · cases ok.symm.trans lost
        · exact .inr ⟨other, rest, p, rfl, rfl, .inr ⟨later, ok⟩⟩
  | _ => cases held

end Popping

/-- An event stops waiting by being published, by the failure of the publish
before it in its batch, or by a pop whose reply is lost. -/
theorem Waiting.call {env : Env} {x : Staged} {t : Nat} {choice : Choice}
    {event : DocumentProcessingEvent} (waiting : Waiting x.1 event) (consistent : Consistent env x)
    (call : Call env x t choice) : Waiting call.result.1 event ∨
      (∃ other rest p, call.thread.control = .publishing other rest p ∧
        call.o = .redis (.xadd (toStreamFields other)) ∧
          (event = other ∨ event ∈ rest ∧ choice ≠ .ok)) ∨
      ∃ clock limit, call.o = .redis (.popDueRetries clock limit) ∧ choice.applied = true ∧
        choice ≠ .ok := by
  obtain scheduled | ⟨t', th, found, held⟩ := waiting
  · have redis : call.world'.redis = call.o.redisAfter x.1.world choice :=
      execute_redisAfter call.ran
    obtain kept | ⟨clock, limit, pops, applied, due⟩ :=
      @Redis.redisAfter_members x.1.world call.o choice _ scheduled
    · exact .inl (.inl (by rwa [redis]))
    · by_cases ok : choice = .ok
      · exact .inl (.inr ⟨t, _, call.own_result, call.pops consistent pops ok due⟩)
      · exact .inr (.inr ⟨clock, limit, pops, applied, ok⟩)
  · by_cases own : t' = t
    · subst own
      cases call.found.symm.trans found
      obtain ⟨item, stage, is⟩ | ⟨request, stage, is⟩ | ⟨task, stage, is⟩ := consistent.kind call
      · rw [is.held.1] at held
        cases held
      · rw [is.held.1] at held
        cases held
      · obtain kept | ⟨other, rest, p, control, publishes, gone⟩ := is.keeps held
        · exact .inl (.inr ⟨t', _, call.own_result, kept⟩)
        · exact .inr (.inl ⟨other, rest, p, control, publishes, gone⟩)
    · exact .inl (.inr ⟨t', th, (call.other_result own).trans found, held⟩)

theorem Waiting.undisturbed {env : Env} {x x' : Staged} {label : Label}
    {event : DocumentProcessingEvent} (waiting : Waiting x.1 event) (move : Move env x label x')
    (noCall : ∀ t choice, label ≠ .act t choice) (alive : ∀ proc, label ≠ .crash proc) :
    Waiting x'.1 event := by
  obtain scheduled | ⟨t, th, found, held⟩ := waiting
  · exact .inl (by rwa [(move.rests noCall).redis])
  · refine .inr ⟨t, th, ?_, held⟩
    have inside := (List.getElem?_eq_some_iff.mp found).1
    cases move with
    | tick duration => exact found
    | startWorker proc name => exact (List.getElem?_append_left inside).trans found
    | receive proc request => exact (List.getElem?_append_left inside).trans found
    | @iterate t' th' loop isFound idle =>
      have other : t' ≠ t := by
        rintro rfl
        cases isFound.symm.trans found
        rw [idle] at held
        cases held
      exact (List.getElem?_set_ne other).trans found
    | act call => exact absurd rfl (noCall _ _)
    | crash proc => exact absurd rfl (alive proc)

def Stage.drawn? : Stage → Option Nat
  | .attempt (.drawn _ eventId) | .request (.announcing _ eventId) => some eventId
  | _ => none

theorem first_drawn (c : Control) : c.first.drawn? = none := by
  cases c <;> rfl

section Drawing
variable {env : Env} {x : Staged} {t : Nat} {choice : Choice} (call : Call env x t choice)

theorem execute_uuids {ctx : Context} {w : World} {loc : Local} {o : Op} {reply : Reply o}
    (h : o.execute env ctx w loc choice = some reply) : w.uuids ≤ reply.world.uuids := by
  cases o with
  | redis o =>
    obtain ⟨-, rfl⟩ | ⟨error, -, -, rfl⟩ | ⟨error, -, -, rfl⟩ := execute_redis h
    all_goals exact (noteRedis_stores w.redis o _).2.2.2.1.ge
  | db o =>
    by_cases commit : o = .commit
    · subst commit
      obtain ⟨rfl, rfl⟩ | ⟨error, rfl, -, rfl⟩ | ⟨error, rfl, -, rfl⟩ := execute_commit h
      · exact (noteDb_stores .commit .ok).2.2.ge
      · exact le_rfl
      · exact (noteDb_stores .commit (.lost error)).2.2.ge
    · obtain ⟨rfl, done, did, rfl⟩ | ⟨error, -, -, -, rfl⟩ := execute_db h commit
      · exact (noteDb_stores o .ok).2.2.ge
      · exact le_rfl
  | runtime o =>
    obtain ⟨done, did, rfl⟩ := execute_runtime h
    cases o <;> cases choice <;> simp only [World.runRuntime, reduceCtorEq, Option.some.injEq] at did
    all_goals first
      | (subst did; first | exact le_rfl | exact Nat.le_succ _)
      | skip
    · subst did
      cases ctx.item <;> exact le_rfl
    · split at did <;> cases did
      exact le_rfl
    · split at did <;> cases did <;> exact le_rfl

/-- An answer of `uuid4` is the next identifier. -/
theorem uuid4_answer {ctx : Context} {w : World} {loc : Local} {reply : Reply (.runtime .uuid4)}
    (h : Op.execute env ctx w loc (.runtime .uuid4) choice = some reply) :
    reply.answer = .ok w.uuids ∧ reply.world.uuids = w.uuids + 1 := by
  obtain ⟨done, did, rfl⟩ := execute_runtime h
  cases choice <;> cases did
  exact ⟨rfl, rfl⟩

theorem AttemptStage.next_drawn {stage : AttemptStage} {item : DeliveredEvent} {name : String}
    {o : Op} {answer : Except Exn o.Val} {row : ProcessingJob} {eventId : Nat}
    (permitted : stage.permits env name item o)
    (drawn : stage.next item o answer = .drawn row eventId) :
    stage = .drawn row eventId ∨ o = .runtime .uuid4 ∧ HEq answer (Except.ok (ε := Exn) eventId) := by
  cases o with
  | runtime o =>
    obtain ⟨rfl, rfl⟩ | ⟨held, rfl, rfl, -⟩ | ⟨held, rfl, rfl, -⟩ | ⟨-, same, -⟩ :=
      AttemptStage.permits_runtime permitted
    · cases answer <;> cases drawn
    · cases drawn
    · cases answer <;> cases drawn
      exact .inr ⟨rfl, .rfl⟩
    · exact .inl ((same answer).symm.trans drawn)
  | redis o =>
    obtain ⟨held, other, score, rfl, rfl⟩ | ⟨how, rfl, rfl⟩ := AttemptStage.permits_redis permitted
    · cases answer <;> cases drawn
    · cases drawn
  | db o =>
    cases o <;> cases stage <;> first | exact permitted.elim | skip
    all_goals rcases answer with _ | _ | _ <;> cases drawn

theorem RequestStage.next_announcing {stage : RequestStage} {request : Request} {o : Op}
    {answer : Except Exn o.Val} {row : ProcessingJob} {eventId : Nat}
    (permitted : stage.permits env request o)
    (drawn : stage.next o answer = .announcing row eventId) :
    o = .runtime .uuid4 ∧ HEq answer (Except.ok (ε := Exn) eventId) := by
  cases o with
  | runtime o =>
    cases stage <;> cases o <;> first | exact permitted.elim | skip
    all_goals cases answer <;> cases drawn
    exact ⟨rfl, .rfl⟩
  | redis o =>
    obtain ⟨held, other, event, rfl, rfl, -⟩ := RequestStage.permits_redis permitted
    cases answer <;> cases drawn
  | db o =>
    cases o <;> cases stage <;> first | exact permitted.elim | skip
    all_goals rcases answer with _ | _ | _ <;> cases drawn

/-- What `uuid4` answers a call with has just been drawn. -/
theorem Call.drew {id : Nat} (asked : call.o = .runtime .uuid4)
    (answered : HEq call.reply.answer (Except.ok (ε := Exn) id)) :
    id = x.1.world.uuids ∧ call.world'.uuids = x.1.world.uuids + 1 := by
  obtain ⟨thread, o, next, reply, found, waits, ran⟩ := call
  cases asked
  obtain ⟨answer, uuids⟩ := uuid4_answer ran
  cases answer.symm.trans (eq_of_heq answered)
  exact ⟨rfl, uuids⟩

theorem drawn_call (consistent : Consistent env x) {eventId : Nat}
    (drawn : call.stage'.drawn? = some eventId) : (x.2 t).drawn? = some eventId ∨
      eventId = x.1.world.uuids ∧ call.world'.uuids = x.1.world.uuids + 1 := by
  obtain ⟨item, stage, is⟩ | ⟨request, stage, is⟩ | ⟨task, stage, is⟩ := consistent.kind call
  · obtain ⟨goes, -⟩ | ⟨-, goes⟩ := is.goes <;> rw [goes] at drawn
    · rw [is.staged]
      cases after : stage.next item call.o call.reply.answer <;> rw [after] at drawn <;> cases drawn
      obtain rfl | ⟨asked, answered⟩ := AttemptStage.next_drawn is.permitted after
      · exact .inl rfl
      · exact .inr (call.drew asked answered)
    · rw [first_drawn] at drawn
      cases drawn
  · obtain ⟨goes, -⟩ | ⟨-, goes, -⟩ := is.goes <;> rw [goes] at drawn
    · cases after : stage.next call.o call.reply.answer <;> rw [after] at drawn <;> cases drawn
      obtain ⟨asked, answered⟩ := RequestStage.next_announcing is.permitted after
      exact .inr (call.drew asked answered)
    · cases drawn
  · obtain ⟨goes, -⟩ | goes := is.goes <;> rw [goes] at drawn
    · cases drawn
    · rw [first_drawn] at drawn
      cases drawn

theorem AttemptCall.schedules {call : Call env x t choice} {item : DeliveredEvent}
    {stage : AttemptStage} (is : AttemptCall call item stage) : call.o.publishes choice = [] ∧
      (call.world'.redis.retry = x.1.world.redis.retry ∨ ∃ row eventId, stage = .drawn row eventId ∧
        call.stage'.drawn? = none ∧ ∀ event,
          (call.world'.redis.retry.map (·.1)).count (.event event) ≤
            (x.1.world.redis.retry.map (·.1)).count (.event event) +
              if event = item.event.nextAttempt eventId then 1 else 0) := by
  have permitted := is.permitted
  have goes := is.goes
  obtain ⟨thread, o, next, reply, found, waits, ran⟩ := call
  have redis := execute_redisAfter ran
  simp only [World.note_redis, redis]
  cases o with
  | db o => exact ⟨rfl, .inl rfl⟩
  | runtime o => exact ⟨rfl, .inl rfl⟩
  | redis o =>
    obtain ⟨row, eventId, score, rfl, rfl⟩ | ⟨how, rfl, rfl⟩ := AttemptStage.permits_redis permitted
    · refine ⟨rfl, .inr ⟨row, eventId, rfl, ?_, fun event => ?_⟩⟩
      · obtain ⟨goes, -⟩ | ⟨-, goes⟩ := goes
        · rw [goes]
          cases reply.answer <;> rfl
        · rw [goes, first_drawn]
      · simp only [Op.redisAfter]
        split
        · simpa only [Payload.event.injEq] using Redis.zadd_retry x.1.world.now x.1.world.redis
            (.event (item.event.nextAttempt eventId)) (.event event) score
        · exact Nat.le_add_right _ _
    · exact ⟨rfl, .inl (Redis.redisAfter_retry rfl)⟩

theorem RequestCall.publishes {call : Call env x t choice} {request : Request}
    {stage : RequestStage} (is : RequestCall call request stage) :
    call.world'.redis.retry = x.1.world.redis.retry ∧ (call.o.publishes choice = [] ∨
      ∃ row eventId event, stage = .announcing row eventId ∧ call.stage'.drawn? = none ∧
        FreshEvent row eventId event ∧ call.o.publishes choice = [event]) := by
  have permitted := is.permitted
  have goes := is.goes
  obtain ⟨thread, o, next, reply, found, waits, ran⟩ := call
  have redis := execute_redisAfter ran
  simp only [World.note_redis, redis]
  cases o with
  | db o => exact ⟨rfl, .inl rfl⟩
  | runtime o => exact ⟨rfl, .inl rfl⟩
  | redis o =>
    obtain ⟨row, eventId, event, rfl, rfl, fresh⟩ := RequestStage.permits_redis permitted
    refine ⟨Redis.redisAfter_retry rfl, ?_⟩
    simp only [Op.publishes]
    split
    · refine .inr ⟨row, eventId, event, rfl, ?_, fresh, rfl⟩
      obtain ⟨goes, -⟩ | ⟨-, goes, -⟩ := goes
      · rw [goes]
        cases reply.answer <;> rfl
      · rw [goes]
        rfl
    · exact .inl rfl

theorem entries_call {fields : StreamFields} (mem : fields ∈ call.world'.redis.entries) :
    fields ∈ x.1.world.redis.entries ∨ call.o.publishes choice = World.eventsOf fields.data := by
  have redis : call.world'.redis = call.o.redisAfter x.1.world choice := execute_redisAfter call.ran
  rw [redis] at mem
  cases isOp : call.o with
  | redis o =>
    rw [isOp] at mem
    simp only [Op.redisAfter] at mem
    split at mem
    · rename_i applied
      cases o with
      | xadd added =>
        obtain old | new := List.mem_append.mp mem
        · exact .inl old
        · cases List.mem_singleton.mp new
          exact .inr (if_pos applied)
      | _ => exact .inl mem
    · exact .inl mem
  | _ =>
    rw [isOp] at mem
    exact .inl mem

/-- A call adds a copy of an event only by issuing it: an attempt the next
attempt of its own event, a request the event it has built. -/
theorem copies_source (consistent : Consistent env x) (event : DocumentProcessingEvent) :
    copies call.result event ≤ copies x event ∨
      copies call.result event ≤ copies x event + 1 ∧ call.stage'.drawn? = none ∧
        ((∃ item row eventId, AttemptCall call item (.drawn row eventId) ∧
            event = item.event.nextAttempt eventId) ∨
          ∃ request row eventId, RequestCall call request (.announcing row eventId) ∧
            FreshEvent row eventId event ∧ call.o.publishes choice = [event]) := by
  have totals := total_call (f := fun th _ => th.control.held.count event) call
  have published := congrArg (·.count event) (published_call call)
  beta_reduce at totals published
  rw [List.count_append] at published
  simp only [copies, published]
  obtain ⟨item, stage, is⟩ | ⟨request, stage, is⟩ | ⟨task, stage, is⟩ := consistent.kind call
  · obtain ⟨held, held'⟩ := is.held
    rw [held, held'] at totals
    obtain ⟨none_, same | ⟨row, eventId, rfl, spent, adds⟩⟩ := is.schedules
    · left
      rw [same, none_, List.count_nil]
      omega
    · have more := adds event
      rw [none_, List.count_nil]
      split at more
      · rename_i isEvent
        right
        refine ⟨by omega, spent, .inl ⟨item, row, eventId, is, isEvent⟩⟩
      · left
        omega
  · obtain ⟨held, held'⟩ := is.held
    rw [held, held'] at totals
    obtain ⟨same, none_ | ⟨row, eventId, issued, rfl, spent, fresh, one⟩⟩ := is.publishes
    · left
      rw [same, none_, List.count_nil]
      omega
    · rw [same, one]
      by_cases isEvent : issued = event
      · subst isEvent
        right
        rw [List.count_singleton_self]
        exact ⟨by omega, spent, .inr ⟨request, row, eventId, is, fresh, rfl⟩⟩
      · left
        have none_ : [issued].count event = 0 :=
          List.count_eq_zero_of_not_mem (by simpa using Ne.symm isEvent)
        omega
  · left
    have le := is.held_le event
    omega

theorem copies_call (consistent : Consistent env x) (event : DocumentProcessingEvent) :
    copies call.result event ≤ copies x event ∨
      (x.2 t).drawn? = some event.eventId ∧ call.stage'.drawn? = none ∧
        copies call.result event ≤ copies x event + 1 := by
  obtain fewer | ⟨one, spent, ⟨item, row, eventId, is, rfl⟩ | ⟨request, row, eventId, is, fresh, -⟩⟩ :=
    copies_source call consistent event
  · exact .inl fewer
  · exact .inr ⟨by rw [is.staged]; rfl, spent, one⟩
  · exact .inr ⟨by rw [is.staged, fresh.eventId]; rfl, spent, one⟩

/-- Events are never duplicated: an event has at most one copy, its identifier
was drawn, and an identifier about to be issued has none. -/
structure Unique (x : Staged) : Prop where
  single : ∀ event, copies x event ≤ 1
  known : ∀ event, 0 < copies x event → event.eventId < x.1.world.uuids
  fresh : ∀ t eventId, (x.2 t).drawn? = some eventId →
    eventId < x.1.world.uuids ∧ ∀ event, event.eventId = eventId → copies x event = 0
  apart : ∀ t t' eventId, (x.2 t).drawn? = some eventId → (x.2 t').drawn? = some eventId → t = t'
  entries : ∀ fields ∈ x.1.world.redis.entries, ∀ event, fields.data = some (.event event) →
    event ∈ x.1.world.published

namespace Unique

theorem act (unique : Unique x) (consistent : Consistent env x) : Unique call.result := by
  have more : x.1.world.uuids ≤ call.world'.uuids := execute_uuids call.ran
  have drawnBelow : ∀ t' eventId, (x.2 t').drawn? = some eventId → eventId < x.1.world.uuids :=
    fun t' eventId drawn => (unique.fresh t' eventId drawn).1
  -- where an identifier drawn after the call comes from
  have earlier : ∀ t' eventId, (call.result.2 t').drawn? = some eventId →
      (x.2 t').drawn? = some eventId ∨
        t' = t ∧ eventId = x.1.world.uuids ∧ call.world'.uuids = x.1.world.uuids + 1 := by
    intro t' eventId drawn
    by_cases own : t' = t
    · subst own
      rw [call.own_stage] at drawn
      obtain before | ⟨new, next⟩ := drawn_call call consistent drawn
      · exact .inl before
      · exact .inr ⟨rfl, new, next⟩
    · rw [call.other_stage own] at drawn
      exact .inl drawn
  refine ⟨fun event => ?_, fun event copy => ?_, fun t' eventId drawn => ?_,
    fun t₁ t₂ eventId drawn₁ drawn₂ => ?_, fun fields mem event isEvent => ?_⟩
  · obtain fewer | ⟨drawn, -, one⟩ := copies_call call consistent event
    · exact fewer.trans (unique.single event)
    · rwa [(unique.fresh t _ drawn).2 event rfl] at one
  · obtain fewer | ⟨drawn, -, -⟩ := copies_call call consistent event
    · exact (unique.known event (copy.trans_le fewer)).trans_le more
    · exact (drawnBelow t _ drawn).trans_le more
  · obtain before | ⟨-, rfl, next⟩ := earlier t' eventId drawn
    · refine ⟨(drawnBelow t' _ before).trans_le more, fun event is => ?_⟩
      obtain fewer | ⟨own, spent, -⟩ := copies_call call consistent event
      · exact Nat.le_zero.mp (((unique.fresh t' _ before).2 event is) ▸ fewer)
      · rw [is] at own
        cases unique.apart t' t eventId before own
        rw [call.own_stage, spent] at drawn
        cases drawn
    · refine ⟨by rw [next]; exact Nat.lt_succ_self _, fun event is => ?_⟩
      obtain fewer | ⟨own, -, -⟩ := copies_call call consistent event
      · by_contra copied
        have known := unique.known event ((Nat.pos_of_ne_zero copied).trans_le fewer)
        omega
      · have below := drawnBelow t _ own
        omega
  · obtain before₁ | ⟨own₁, is₁, -⟩ := earlier t₁ eventId drawn₁
    · obtain before₂ | ⟨-, is₂, -⟩ := earlier t₂ eventId drawn₂
      · exact unique.apart t₁ t₂ eventId before₁ before₂
      · have below := drawnBelow t₁ eventId before₁
        omega
    · obtain before₂ | ⟨own₂, -⟩ := earlier t₂ eventId drawn₂
      · have below := drawnBelow t₂ eventId before₂
        omega
      · rw [own₁, own₂]
  · rw [show call.result.1.world = call.world' from rfl, published_call call]
    obtain old | published := entries_call call mem
    · exact List.mem_append_right _ (unique.entries fields old event isEvent)
    · exact List.mem_append_left _ (published ▸ mem_eventsOf.mpr isEvent)

theorem undisturbed {x' : Staged} {label : Label} (unique : Unique x)
    (consistent : Consistent env x) (move : Move env x label x')
    (noCall : ∀ t choice, label ≠ .act t choice) : Unique x' := by
  have fewer : ∀ event, copies x' event ≤ copies x event := by
    intro event
    have held := total_undisturbed (f := fun th _ => th.control.held.count event) consistent move
      noCall fun th _ none_ => by rw [none_]; rfl
    have published : x'.1.world.published = x.1.world.published :=
      congrArg (List.filterMap _) (move.rests noCall).history
    simp only [copies, published, (move.rests noCall).redis]
    omega
  have drawn : ∀ t eventId, (x'.2 t).drawn? = some eventId → (x.2 t).drawn? = some eventId := by
    intro t eventId drawn
    obtain same | ⟨c, first⟩ := move.stage noCall t
    · rwa [same] at drawn
    · rw [first, first_drawn] at drawn
      cases drawn
  have rests := move.rests noCall
  refine ⟨fun event => (fewer event).trans (unique.single event), fun event copy => ?_,
    fun t eventId is => ?_, fun t t' eventId is is' => unique.apart t t' eventId (drawn t _ is)
      (drawn t' _ is'), ?_⟩
  · rw [(move.rests noCall).uuids]
    exact unique.known event (copy.trans_le (fewer event))
  · obtain ⟨below, none_⟩ := unique.fresh t eventId (drawn t _ is)
    rw [(move.rests noCall).uuids]
    exact ⟨below, fun event same => Nat.le_zero.mp ((none_ event same) ▸ fewer event)⟩
  · rw [World.published, rests.history, rests.redis]
    exact unique.entries

theorem step {x' : Staged} {label : Label} (unique : Unique x) (consistent : Consistent env x)
    (move : Move env x label x') : Unique x' := by
  obtain ⟨t, choice, call, rfl, rfl⟩ | noCall := move.call_or
  · exact unique.act call consistent
  · exact unique.undisturbed consistent move noCall

theorem init : Unique (System.init, fun _ => .resting) where
  single _ := Nat.zero_le _
  known _ copy := by cases copy
  fresh _ _ drawn := by cases drawn
  apart _ _ _ drawn := by cases drawn
  entries _ mem := by cases mem

end Unique

theorem StagedRun.unique {guard : Guard} (h : StagedRun env guard x) : Unique x :=
  h.invariant Unique.init fun _ _ _ reached unique stepped _ =>
    unique.step (StagedRun.consistent reached) (move_of_step stepped)

end Drawing
end DocumentPipeline

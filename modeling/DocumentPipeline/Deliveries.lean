import DocumentPipeline.Locks

/-! What reaches a worker comes from the stream. Entries are never changed, an
entry below the group's position was delivered, and every event a thread
handles or is about to decode is the content of the entry it names. -/

namespace DocumentPipeline
open EffectProgram Queue

/-- The effect of a call on Redis, which a lost reply does not undo. -/
def Op.redisAfter (w : World) : Op → Choice → Redis
  | .redis o, choice => if choice.applied then (w.redis.run w.now o).redis else w.redis
  | _, _ => w.redis

theorem execute_redisAfter {env : Env} {ctx : Context} {w : World} {loc : Local}
    {choice : Choice} {o : Op} {reply : Reply o}
    (h : o.execute env ctx w loc choice = some reply) :
    reply.world.redis = o.redisAfter w choice := by
  cases o with
  | runtime o =>
    obtain ⟨done, did, rfl⟩ := execute_runtime h
    exact (runRuntime_stores did).2.1
  | redis o =>
    obtain ⟨rfl, rfl⟩ | ⟨error, rfl, -, rfl⟩ | ⟨error, rfl, -, rfl⟩ := execute_redis h
    · rfl
    · simp only [World.note_redis, noteRedis_stores]
      rfl
    · rfl
  | db o =>
    by_cases commit : o = .commit
    · subst commit
      obtain ⟨rfl, rfl⟩ | ⟨error, rfl, -, rfl⟩ | ⟨error, rfl, -, rfl⟩ := execute_commit h
      · exact (noteDb_stores .commit .ok).1
      · rfl
      · exact (noteDb_stores .commit (.lost error)).1
    · obtain ⟨rfl, done, did, rfl⟩ | ⟨error, -, -, -, rfl⟩ := execute_db h commit
      · exact (noteDb_stores o .ok).1
      · rfl

namespace Redis

/-- `r'` has all entries of `r` and has delivered at least as many. -/
structure Extends (r r' : Redis) : Prop where
  entries : ∀ (id : Nat) (fields : StreamFields), r.entries[id]? = some fields →
    r'.entries[id]? = some fields
  delivered : r.lastDelivered ≤ r'.lastDelivered

theorem Extends.refl (r : Redis) : r.Extends r := ⟨fun _ _ h => h, le_rfl⟩

theorem run_extends (now : Time) (r : Redis) (o : RedisOp) : r.Extends (r.run now o).redis := by
  cases o with
  | xadd fields =>
    refine ⟨fun id content found => ?_, le_rfl⟩
    obtain ⟨bound, -⟩ := List.getElem?_eq_some_iff.mp found
    exact (List.getElem?_append_left bound).trans found
  | xreadgroup consumer count => exact ⟨fun _ _ h => h, Nat.le_add_right _ _⟩
  | _ => exact ⟨fun _ _ h => h, le_rfl⟩

theorem redisAfter_extends (w : World) (o : Op) (choice : Choice) :
    w.redis.Extends (o.redisAfter w choice) := by
  cases o with
  | redis o =>
    simp only [Op.redisAfter]
    split
    · exact run_extends w.now w.redis o
    · exact .refl _
  | _ => exact .refl _

def Holds (r : Redis) (message : Nat × StreamFields) : Prop :=
  r.entries[message.1]? = some message.2 ∧ message.1 < r.lastDelivered

theorem Holds.extend {r r' : Redis} {message : Nat × StreamFields} (h : r.Holds message)
    (further : r.Extends r') : r'.Holds message :=
  ⟨further.entries _ _ h.1, lt_of_lt_of_le h.2 further.delivered⟩

theorem undelivered_length_le (r : Redis) (count : Int) :
    (r.undelivered count).length ≤ r.entries.length - r.lastDelivered := by
  simp only [undelivered, List.length_take, List.length_drop]
  omega

theorem xreadgroup_holds (now : Time) (r : Redis) (consumer : String) (count : Int)
    {message : Nat × StreamFields} (h : message ∈ (r.run now (.xreadgroup consumer count)).value) :
    (r.run now (.xreadgroup consumer count)).redis.Holds message := by
  obtain ⟨i, bound, rfl⟩ := List.mem_mapIdx.mp h
  refine ⟨?_, Nat.add_lt_add_left bound _⟩
  have inside : i < (r.undelivered count).length := bound
  have found := List.getElem?_eq_getElem inside
  change r.entries[r.lastDelivered + i]? = some (r.undelivered count)[i]
  generalize (r.undelivered count)[i] = fields at found
  rw [undelivered, List.getElem?_take] at found
  split at found
  · rwa [List.getElem?_drop] at found
  · cases found

def PendingDelivered (r : Redis) : Prop := ∀ id, (r.pending id).isSome = true → id < r.lastDelivered

theorem run_pendingDelivered (now : Time) (r : Redis) (o : RedisOp) (h : r.PendingDelivered) :
    (r.run now o).redis.PendingDelivered := by
  intro id pending
  cases o with
  | xreadgroup consumer count =>
    simp only [run] at pending ⊢
    split at pending
    · rename_i fresh
      exact fresh.2
    · exact lt_of_lt_of_le (h id pending) (Nat.le_add_right _ _)
  | xclaim consumer minIdle ids =>
    simp only [run] at pending ⊢
    split at pending
    · exact h id (by simpa using pending)
    · exact h id pending
  | xack messageId =>
    simp only [run, Function.update_apply] at pending ⊢
    split at pending
    · cases pending
    · exact h id pending
  | _ => exact h id pending

theorem run_delivered (now : Time) (r : Redis) (o : RedisOp)
    (h : r.lastDelivered ≤ r.entries.length) :
    (r.run now o).redis.lastDelivered ≤ (r.run now o).redis.entries.length := by
  cases o with
  | xadd fields =>
    simp only [run, List.length_append]
    omega
  | xreadgroup consumer count =>
    have fresh := r.undelivered_length_le count
    simp only [run]
    omega
  | _ => exact h

theorem xclaim_holds (now : Time) (r : Redis) (delivered : r.PendingDelivered) (consumer : String)
    (minIdle : Int) (ids : List Nat) {message : Nat × StreamFields}
    (h : message ∈ (r.run now (.xclaim consumer minIdle ids)).value) :
    (r.run now (.xclaim consumer minIdle ids)).redis.Holds message := by
  obtain ⟨id, claimed, found⟩ := List.mem_filterMap.mp h
  obtain ⟨fields, isFields, rfl⟩ := Option.map_eq_some_iff.mp found
  refine ⟨isFields, delivered id ?_⟩
  have idle := (List.mem_filter.mp claimed).2
  cases pending : r.pending id with
  | none => simp only [idleFor, pending, Bool.false_eq_true] at idle
  | some entry => rfl

end Redis

/-- The item is the decoded content of the entry it names. -/
def Redis.Delivered (r : Redis) (item : DeliveredEvent) : Prop :=
  ∃ fields, r.Holds (item.messageId, fields) ∧ decodeOne fields = .ok item.event

theorem Redis.Delivered.event {r : Redis} {item item' : DeliveredEvent} (h : r.Delivered item)
    (h' : r.Delivered item') (same : item.messageId = item'.messageId) :
    item.event = item'.event := by
  obtain ⟨fields, ⟨found, -⟩, decoded⟩ := h
  obtain ⟨fields', ⟨found', -⟩, decoded'⟩ := h'
  rw [same] at found
  cases found.symm.trans found'
  exact Except.ok.inj (decoded.symm.trans decoded')

structure Deliveries (x : Staged) : Prop where
  delivered : x.1.world.redis.lastDelivered ≤ x.1.world.redis.entries.length
  pending : x.1.world.redis.PendingDelivered
  messages : ∀ t counts messages, x.2 t = .loop (.decoding counts messages) →
    ∀ message ∈ messages, x.1.world.redis.Holds message
  items : ∀ (t : Nat) (th : Thread), x.1.threads[t]? = some th → ∀ item ∈ th.control.items,
    x.1.world.redis.Delivered item

namespace Deliveries
variable {env : Env} {x : Staged} {t : Nat} {choice : Choice}

theorem holds_extend {r r' : Redis} {item : DeliveredEvent} (h : r.Delivered item)
    (further : r.Extends r') : r'.Delivered item := by
  obtain ⟨fields, held, decoded⟩ := h
  exact ⟨fields, held.extend further, decoded⟩

theorem loop_messages (deliveries : Deliveries x) (call : Call env x t choice) {task : Task}
    {stage : LoopStage} (is : LoopCall call task stage) {counts : List (Nat × Nat)}
    {messages : List (Nat × StreamFields)}
    (reached : stage.next call.o call.reply.answer = .decoding counts messages) :
    ∀ message ∈ messages, call.world'.redis.Holds message := by
  obtain ⟨thread, o, next, reply, found, waits, ran⟩ := call
  have permitted := is.permitted
  have redis := execute_redisAfter ran
  simp only [Call.world', World.note_redis] at *
  cases o with
  | db o => exact (LoopStage.permits_db permitted).elim
  | runtime o =>
    obtain ⟨-, rfl, rfl⟩ := LoopStage.permits_runtime permitted
    rcases reply with ⟨world, loc, _ | _⟩ <;> cases reached
  | redis o =>
    obtain ⟨-, rfl, rfl⟩ | ⟨-, rfl, _, rfl⟩ | ⟨_, -, rfl, rfl⟩ |
      ⟨_, _, _, _, _, -, rfl, rfl, -⟩ | ⟨_, _, -, rfl, rfl⟩ | ⟨_, -, rfl, rfl⟩ :=
      LoopStage.permits_redis permitted
    all_goals
      obtain ⟨rfl, rfl⟩ | ⟨error, rfl, -, rfl⟩ | ⟨error, rfl, -, rfl⟩ := execute_redis ran <;>
        cases reached
    · intro message mem
      exact Redis.xreadgroup_holds _ _ _ _ mem
    · intro message mem
      exact Redis.xclaim_holds _ _ deliveries.pending _ _ _ mem
    · intro message mem
      exact deliveries.messages t _ _ is.staged message mem

theorem first_ne_decoding (c : Control) (counts : List (Nat × Nat))
    (messages : List (Nat × StreamFields)) : c.first ≠ .loop (.decoding counts messages) := by
  cases c <;> nofun

theorem items_takeNext {name : String} {loop : Loop} {items : List DeliveredEvent} :
    (Control.takeNext env name loop items).items = items := by
  cases items <;> rfl

theorem items_publishNext {events : List DocumentProcessingEvent} :
    (Control.publishNext events).items = [] := by
  cases events <;> rfl

theorem items_begin {name : String} {loop : Loop} :
    (Control.begin env name loop).items = [] := by
  cases loop <;> rfl

theorem act (deliveries : Deliveries x) (consistent : Consistent env x)
    (call : Call env x t choice) : Deliveries call.result := by
  have redis := execute_redisAfter call.ran
  have further : x.1.world.redis.Extends call.world'.redis := by
    simp only [Call.world', World.note_redis, redis]
    exact Redis.redisAfter_extends _ _ _
  refine ⟨?_, ?_, fun t' counts messages staged => ?_, fun t' th found item mem => ?_⟩
  · simp only [Call.world', World.note_redis, redis]
    cases call.o with
    | redis o =>
      simp only [Op.redisAfter]
      split
      · exact Redis.run_delivered _ _ _ deliveries.delivered
      · exact deliveries.delivered
    | _ => exact deliveries.delivered
  · simp only [Call.world', World.note_redis, redis]
    cases call.o with
    | redis o =>
      simp only [Op.redisAfter]
      split
      · exact Redis.run_pendingDelivered _ _ _ deliveries.pending
      · exact deliveries.pending
    | _ => exact deliveries.pending
  · by_cases own : t' = t
    · subst own
      rw [call.own_stage] at staged
      obtain ⟨item, stage, is⟩ | ⟨request, stage, is⟩ | ⟨task, stage, is⟩ := consistent.kind call
      · obtain ⟨goes, -⟩ | ⟨-, goes⟩ := is.goes <;> rw [goes] at staged
        · cases staged
        · exact absurd staged (first_ne_decoding _ _ _)
      · obtain ⟨goes, -⟩ | ⟨-, goes, -⟩ := is.goes <;> rw [goes] at staged <;> cases staged
      · obtain ⟨goes, -⟩ | goes := is.goes <;> rw [goes] at staged
        · exact deliveries.loop_messages call is (Stage.loop.inj staged)
        · exact absurd staged (first_ne_decoding _ _ _)
    · rw [call.other_stage own] at staged
      exact fun message mem => (deliveries.messages t' counts messages staged message mem).extend
        further
  · obtain ⟨rfl, rfl⟩ | ⟨other, isFound⟩ := call.threads_result found
    · obtain ⟨event, stage, is⟩ | ⟨request, stage, is⟩ | ⟨task, stage, is⟩ := consistent.kind call
      · obtain ⟨loop, rest, p, p', control, reached⟩ := is.control
        have kept : item ∈ call.thread.control.items := by
          rw [control]
          simp only [reached] at mem
          cases p' with
          | call o next => exact mem
          | ret outcome =>
            rw [Control.settle, items_takeNext] at mem
            exact List.mem_cons_of_mem _ mem
          | raise error => cases mem
        exact holds_extend (deliveries.items t' _ call.found item kept) further
      · obtain ⟨p, p', -, reached⟩ := is.control
        simp only [reached] at mem
        cases p' <;> cases mem
      · obtain ⟨running, -, -, -⟩ | ⟨loop, items, -, outcome, decoded⟩ | ⟨raw, -, outcome, -⟩ |
          ⟨event, rest, id, -, -, outcome, -⟩ | ⟨loop, idle, -, -⟩ := is.ends
        · simp only [Control.settle_running running] at mem
          rw [is.onward_items] at mem
          cases mem
        · simp only [outcome, Control.settle, items_takeNext] at mem
          obtain rfl | ⟨counts, messages, staged, rfl⟩ := decoded
          · cases mem
          · obtain ⟨fields, isMessage, valid, -⟩ := mem_decodedMessages mem
            exact ⟨fields, deliveries.loop_messages call is staged _ isMessage, valid⟩
        · simp only [outcome, Control.settle, items_publishNext] at mem
          cases mem
        · simp only [outcome, Control.settle, items_publishNext] at mem
          cases mem
        · simp only [idle] at mem
          cases mem
    · exact holds_extend (deliveries.items t' th isFound item mem) further

theorem undisturbed {x' : Staged} {label : Label} (deliveries : Deliveries x)
    (move : Move env x label x') (noCall : ∀ t choice, label ≠ .act t choice) : Deliveries x' := by
  have same := (move.rests noCall).redis
  refine ⟨by rw [same]; exact deliveries.delivered, by rw [same]; exact deliveries.pending,
    fun t counts messages staged => ?_,
    fun t th found item mem => ?_⟩ <;> rw [same]
  · obtain kept | ⟨c, first⟩ := move.stage noCall t
    · exact deliveries.messages t counts messages (kept.symm.trans staged)
    · exact absurd (first.symm.trans staged) (first_ne_decoding c _ _)
  · obtain ⟨isFound, -⟩ | ⟨-, loop, control, -⟩ | ⟨-, request, control, -⟩ |
      ⟨_, loop, -, -, rfl, -⟩ | ⟨choice, -, labelled, -⟩ | ⟨_, -, -, rfl, -⟩ := move.thread found
    · exact deliveries.items t th isFound item mem
    · rw [control] at mem
      cases mem
    · rw [control] at mem
      cases request <;> cases mem
    · rw [items_begin] at mem
      cases mem
    · exact absurd labelled (noCall t choice)
    · cases mem

theorem step {x' : Staged} {label : Label} (deliveries : Deliveries x)
    (consistent : Consistent env x) (move : Move env x label x') : Deliveries x' := by
  obtain ⟨t, choice, call, rfl, rfl⟩ | noCall := move.call_or
  · exact deliveries.act consistent call
  · exact deliveries.undisturbed move noCall

theorem init : Deliveries (System.init, fun _ => .resting) where
  delivered := le_rfl
  pending _ held := by cases held
  messages _ _ _ staged := by cases staged
  items _ _ found := by cases found

end Deliveries

theorem StagedRun.deliveries {env : Env} {guard : Guard} {x : Staged}
    (h : StagedRun env guard x) : Deliveries x :=
  h.invariant Deliveries.init fun _ _ _ reached deliveries stepped _ =>
    deliveries.step (StagedRun.consistent reached) (move_of_step stepped)

end DocumentPipeline

import DocumentPipeline.Lib.Ledger
import DocumentPipeline.Deliveries
import DocumentPipeline.History

/-! The delivery counts that workers act on. Redis counts the deliveries of an
entry itself, a sweep reads the counter with one command and delivers with
another, and the count it hands on is the one it read, plus one. Where no entry
is delivered between the two commands of a sweep that takes it over, every
delivery carries its own number, and the cap on redeliveries holds. -/

namespace DocumentPipeline
open EffectProgram Transition Queue Tokens

def Observation.deliveredId? : Observation → Option Nat
  | .delivered _ id => some id
  | _ => none

def Observation.handedOut? : Observation → Option DeliveredEvent
  | .handedOut _ item => some item
  | _ => none

def Observation.ran? : Observation → Option DeliveredEvent
  | .ran _ item => some item
  | _ => none

def Observation.deliversTo (t id : Nat) : Observation → Bool
  | .delivered t' id' => t' = t ∧ id' = id
  | _ => false

def deliveredIds (history : List Observation) : List Nat := history.filterMap (·.deliveredId?)

/-- How often Redis had delivered an entry when it last delivered it to `t`. -/
def deliveriesTo (t id : Nat) (history : List Observation) : Nat :=
  (deliveredIds (history.dropWhile (!·.deliversTo t id))).count id

/-- Every event handed out carries the number of the delivery it came with. -/
def Counted : List Observation → Prop
  | [] => True
  | .handedOut t item :: earlier =>
    item.deliveryCount = deliveriesTo t item.messageId earlier ∧ Counted earlier
  | _ :: earlier => Counted earlier

def DeliveredEvent.token (item : DeliveredEvent) : Nat × Nat := (item.messageId, item.deliveryCount)

def World.handedOut (w : World) : List DeliveredEvent := w.history.filterMap (·.handedOut?)

def World.entered (w : World) : List DeliveredEvent := w.history.filterMap (·.ran?)

/-- Deliveries are counted right, no two of one entry carry the same count, and
`_run` is entered for an entry no more often than the cap allows. -/
structure RedeliveryCapped (env : Env) (w : World) : Prop where
  counted : Counted w.history
  distinct : (w.handedOut.map (·.token)).Nodup
  capped : ∀ id, (w.entered.filter (·.messageId = id)).length ≤ env.settings.maxDeliveryCount.toNat

/-- An XCLAIM that answers takes over no well-formed entry whose counter is not
the one that the sweep has read. -/
def claimsAsListed (s : System) : Label → Bool
  | .act t .ok => match s.call? t with
    | some (th, .redis (.xclaim _ minIdle ids)) =>
      (s.world.redis.claimable s.world.now minIdle ids).all fun id =>
        (s.world.redis.entries[id]?).any (fun fields => !(decodeOne fields).isOk) ||
          (s.world.redis.pending id).any
            (·.timesDelivered = deliveryCountOf th.loc.listed id)
    | _ => true
  | _ => true

abbrev claimingAsListed : Guard := fun s label _ => claimsAsListed s label = true

def Redis.delivers (now : Time) (r : Redis) : RedisOp → List Nat
  | .xreadgroup consumer count => (r.run now (.xreadgroup consumer count)).value.map (·.1)
  | .xclaim consumer minIdle ids => (r.run now (.xclaim consumer minIdle ids)).value.map (·.1)
  | _ => []

def Op.delivers (w : World) (choice : Choice) : Op → List Nat
  | .redis o => if choice.applied then w.redis.delivers w.now o else []
  | _ => []

section Observed
variable {ctx : Context} {w : World} {loc : Local} {choice : Choice} {o : Op}

variable (ctx loc) in
theorem observes_deliveredIds : deliveredIds (o.observes ctx w loc choice) = o.delivers w choice := by
  have faults : (choice.faults ctx).filterMap (·.deliveredId?) = [] := by cases choice <;> rfl
  have handed (messages : List (Nat × StreamFields)) :
      (messages.map fun message => Observation.delivered ctx.thread message.1).filterMap
        (·.deliveredId?) = messages.map (·.1) := by
    rw [List.filterMap_map]
    exact congrFun List.filterMap_eq_map messages
  cases o with
  | runtime o =>
    cases o <;> first
      | rfl
      | (simp only [deliveredIds, Op.observes]
         cases ctx.item <;> rfl)
  | db o =>
    simp only [deliveredIds, Op.observes, List.filterMap_append, faults, List.nil_append]
    cases loc.commits (.db o) choice with
    | none => rfl
    | some write => cases write <;> rfl
  | redis o =>
    simp only [deliveredIds, Op.observes, List.filterMap_append, faults, List.nil_append]
    have events (event : DocumentProcessingEvent → Observation)
        (silent : ∀ e, (event e).deliveredId? = none) (payload : Option Payload) :
        ((World.eventsOf payload).map event).filterMap (·.deliveredId?) = [] := by
      refine List.filterMap_eq_nil_iff.mpr fun observation mem => ?_
      obtain ⟨e, -, rfl⟩ := List.mem_map.mp mem
      exact silent e
    cases o with
    | xreadgroup consumer count =>
      simp only [RedisOp.observes, Op.delivers, Redis.delivers]
      split <;> first | rfl | exact handed _
    | xclaim consumer minIdle ids =>
      simp only [RedisOp.observes, Op.delivers, Redis.delivers]
      split <;> first | rfl | exact handed _
    | xadd fields =>
      simp only [RedisOp.observes, List.filterMap_append, Op.delivers, Redis.delivers, ite_self,
        List.append_eq_nil_iff]
      constructor
      · split <;> first | rfl | exact events _ (fun _ => rfl) _
      · split <;> first | rfl | exact events _ (fun _ => rfl) _
    | zadd member score =>
      simp only [RedisOp.observes, Op.delivers, Redis.delivers, ite_self]
      split <;> first | rfl | exact events _ (fun _ => rfl) _
    | popDueRetries clock limit =>
      simp only [RedisOp.observes, Op.delivers, Redis.delivers, ite_self]
      split
      · rw [List.filterMap_flatMap]
        exact List.flatMap_eq_nil_iff.mpr fun entry _ => events _ (fun _ => rfl) _
      · rfl
    | _ => exact (ite_self _).symm

theorem announce_deliveredIds (t : Nat) (reached : Control) :
    deliveredIds (reached.announce t) = [] := by
  refine List.filterMap_eq_nil_iff.mpr fun observation mem => ?_
  obtain ⟨item, rfl⟩ | ⟨answer, rfl⟩ := mem_announce mem <;> rfl

theorem deliveredIds_call {env : Env} {x : Staged} {t : Nat} {choice : Choice}
    (call : Call env x t choice) : deliveredIds call.world'.history =
      call.o.delivers x.1.world choice ++ deliveredIds x.1.world.history := by
  have silent := announce_deliveredIds t call.reached
  simp only [deliveredIds] at silent
  simp only [call.history, deliveredIds, List.filterMap_append, silent, List.nil_append]
  exact congrArg (· ++ _) (observes_deliveredIds _ _)

end Observed

theorem filterMap_keys {α β : Type} (f : α → Option β) (key : β → α)
    (own : ∀ a b, f a = some b → key b = a) (l : List α) :
    ((l.filterMap f).map key).Sublist l := by
  induction l with
  | nil => exact .slnil
  | cons a rest ih =>
    rw [List.filterMap_cons]
    cases kept : f a with
    | none => exact ih.cons a
    | some b =>
      rw [List.map_cons, own a b kept]
      exact ih.cons_cons a

namespace Redis
variable {r : Redis} {now : Time}

theorem xreadgroup_ids (consumer : String) (count : Int) :
    (r.run now (.xreadgroup consumer count)).value.map (·.1) =
      List.range' r.lastDelivered (r.undelivered count).length := by
  refine List.ext_getElem (by simp [run]) fun i _ _ => ?_
  simp [run]

theorem xpendingRange_ids (count idle : Int) :
    ((r.run now (.xpendingRange count idle)).value.map (·.1)).Nodup := by
  have listed := filterMap_keys (fun id => if idleFor now idle (r.pending id)
      then (r.pending id).map fun entry => (id, entry.timesDelivered) else none) (·.1)
    (fun id entry is => by
      split at is
      · obtain ⟨_, -, rfl⟩ := Option.map_eq_some_iff.mp is
        rfl
      · cases is) (List.range r.entries.length)
  refine (List.nodup_range.sublist listed).sublist ?_
  exact (List.take_sublist _ _).map _

theorem xclaim_ids_sublist (consumer : String) (minIdle : Int) (ids : List Nat) :
    ((r.run now (.xclaim consumer minIdle ids)).value.map (·.1)).Sublist
      (r.claimable now minIdle ids) :=
  filterMap_keys _ _ (fun id message is => by
    obtain ⟨_, -, rfl⟩ := Option.map_eq_some_iff.mp is
    rfl) _

structure CountsOn (r : Redis) (ids : List Nat) : Prop where
  counted : ∀ id entry, r.pending id = some entry → entry.timesDelivered = ids.count id
  undelivered : ∀ id, r.lastDelivered ≤ id → id ∉ ids

theorem mem_xclaim_ids (pending : r.PendingDelivered) (bounded : r.lastDelivered ≤ r.entries.length)
    (consumer : String) (minIdle : Int) (ids : List Nat) {id : Nat}
    (claimed : id ∈ r.claimable now minIdle ids) :
    id ∈ (r.run now (.xclaim consumer minIdle ids)).value.map (·.1) := by
  have idle := (List.mem_filter.mp claimed).2
  have isPending : (r.pending id).isSome = true := by
    cases h : r.pending id with
    | none =>
      rw [h] at idle
      cases idle
    | some entry => rfl
  have bound := lt_of_lt_of_le (pending id isPending) bounded
  refine List.mem_map.mpr ⟨(id, r.entries[id]), List.mem_filterMap.mpr ⟨id, claimed, ?_⟩, rfl⟩
  rw [List.getElem?_eq_getElem bound]
  rfl

theorem delivers_nodup (now : Time) {o : RedisOp} (clear : ∀ consumer minIdle ids,
    o = .xclaim consumer minIdle ids → ids.Nodup) : (r.delivers now o).Nodup := by
  cases o with
  | xreadgroup consumer count =>
    rw [delivers, xreadgroup_ids]
    exact List.nodup_range'
  | xclaim consumer minIdle ids =>
    exact ((clear _ _ _ rfl).filter _).sublist (xclaim_ids_sublist consumer minIdle ids)
  | _ => exact .nil

theorem CountsOn.run {delivered : List Nat} (h : r.CountsOn delivered) (pending : r.PendingDelivered)
    (bounded : r.lastDelivered ≤ r.entries.length) {o : RedisOp}
    (clear : ∀ consumer minIdle ids, o = .xclaim consumer minIdle ids → ids.Nodup) :
    (r.run now o).redis.CountsOn (r.delivers now o ++ delivered) := by
  have nodup := delivers_nodup (r := r) now clear
  cases o with
  | xreadgroup consumer count =>
    rw [delivers, xreadgroup_ids] at nodup ⊢
    refine ⟨fun id entry is => ?_, fun id beyond => ?_⟩
    · rw [List.count_append]
      simp only [Redis.run] at is
      split at is
      · rename_i fresh
        cases is
        rw [List.count_eq_one_of_mem nodup (List.mem_range'_1.mpr fresh),
          List.count_eq_zero.mpr (h.undelivered id fresh.1)]
      · rename_i old
        rw [List.count_eq_zero.mpr fun mem => old (List.mem_range'_1.mp mem), Nat.zero_add]
        exact h.counted id entry is
    · simp only [Redis.run] at beyond
      rw [List.mem_append, not_or]
      refine ⟨fun mem => ?_, h.undelivered id (by omega)⟩
      have inside := (List.mem_range'_1.mp mem).2
      omega
  | xclaim consumer minIdle ids =>
    rw [delivers] at nodup ⊢
    refine ⟨fun id entry is => ?_, fun id beyond => ?_⟩
    · rw [List.count_append]
      simp only [Redis.run] at is
      split at is
      · rename_i claimed
        obtain ⟨before, was, rfl⟩ := Option.map_eq_some_iff.mp is
        rw [List.count_eq_one_of_mem nodup
          (mem_xclaim_ids pending bounded consumer minIdle ids claimed), ← h.counted id before was]
        exact Nat.add_comm _ _
      · rename_i other
        rw [List.count_eq_zero.mpr fun mem =>
          other ((xclaim_ids_sublist consumer minIdle ids).subset mem), Nat.zero_add]
        exact h.counted id entry is
    · rw [List.mem_append, not_or]
      refine ⟨fun mem => ?_, h.undelivered id beyond⟩
      obtain ⟨message, handed, rfl⟩ := List.mem_map.mp mem
      exact absurd (xclaim_holds now r pending consumer minIdle ids handed).2 (not_lt.mpr beyond)
  | xack id =>
    refine ⟨fun other entry is => ?_, h.undelivered⟩
    simp only [Redis.run, Function.update_apply] at is
    split at is
    · cases is
    · exact h.counted other entry is
  | _ => exact ⟨h.counted, h.undelivered⟩

end Redis

/-- A sweep claims the entries it has listed, each once, and no batch holds an
entry twice. -/
def LoopStage.Distinct (loc : Local) : LoopStage → Prop
  | .listed counts => counts = loc.listed.map (fun entry => (entry.1, entry.2 + 1)) ∧
    (loc.listed.map (·.1)).Nodup
  | .decoding _ messages => (messages.map (·.1)).Nodup
  | _ => True

structure Listing (x : Staged) : Prop where
  counts : x.1.world.redis.CountsOn (deliveredIds x.1.world.history)
  stages : ∀ (t : Nat) (th : Thread) stage, x.1.threads[t]? = some th → x.2 t = .loop stage →
    stage.Distinct th.loc

namespace Listing
variable {env : Env} {x : Staged} {t : Nat} {choice : Choice}

theorem map_incremented (listed : List (Nat × Nat)) :
    (listed.map fun entry => (entry.1, entry.2 + 1)).map (·.1) = listed.map (·.1) := by
  rw [List.map_map]
  rfl

theorem claim (listing : Listing x) (consistent : Consistent env x) (call : Call env x t choice)
    {consumer : String} {minIdle : Int} {ids : List Nat}
    (claims : call.o = .redis (.xclaim consumer minIdle ids)) :
    (∃ stage, LoopCall call (.fetch .recovery) stage ∧
      stage = .listed (call.thread.loc.listed.map fun entry => (entry.1, entry.2 + 1))) ∧
    ids = call.thread.loc.listed.map (·.1) ∧ ids.Nodup := by
  obtain ⟨item, stage, is⟩ | ⟨request, stage, is⟩ | ⟨task, stage, is⟩ := consistent.kind call
  · have permitted := is.permitted
    rw [claims] at permitted
    obtain ⟨_, _, _, -, absurd⟩ | ⟨_, -, absurd⟩ := AttemptStage.permits_redis permitted <;> cases absurd
  · have permitted := is.permitted
    rw [claims] at permitted
    obtain ⟨_, _, _, -, absurd, -⟩ := RequestStage.permits_redis permitted
    cases absurd
  · have permitted := is.permitted
    rw [claims] at permitted
    obtain ⟨-, -, h⟩ | ⟨-, -, _, h⟩ | ⟨counts, rfl, rfl, h⟩ | ⟨_, _, _, _, _, -, -, h, -⟩ |
      ⟨_, _, -, -, h⟩ | ⟨_, -, -, h⟩ := LoopStage.permits_redis permitted
    all_goals first | cases h; done | skip
    cases h
    obtain ⟨rfl, nodup⟩ := listing.stages t call.thread _ call.found is.staged
    rw [map_incremented]
    exact ⟨⟨_, is, rfl⟩, rfl, nodup⟩

theorem counts_act (listing : Listing x) (consistent : Consistent env x)
    (deliveries : Deliveries x) (call : Call env x t choice) :
    call.world'.redis.CountsOn (deliveredIds call.world'.history) := by
  rw [deliveredIds_call, World.note_redis, execute_redisAfter call.ran]
  cases o : call.o with
  | redis o' =>
    simp only [Op.redisAfter, Op.delivers]
    split
    · refine listing.counts.run deliveries.pending deliveries.delivered fun consumer minIdle ids is => ?_
      subst is
      exact (listing.claim consistent call o).2.2
    · exact listing.counts
  | _ => exact listing.counts

theorem loop_act (listing : Listing x) (consistent : Consistent env x) (call : Call env x t choice)
    {task : Task} {stage : LoopStage} (is : LoopCall call task stage) :
    (stage.next call.o call.reply.answer).Distinct call.reply.loc := by
  have permitted := is.permitted
  have before := listing.stages t call.thread stage call.found is.staged
  have claim : ∀ consumer minIdle ids, call.o = .redis (.xclaim consumer minIdle ids) → ids.Nodup :=
    fun _ _ _ claims => (listing.claim consistent call claims).2.2
  clear is
  obtain ⟨thread, o, next, reply, found, waits, ran⟩ := call
  dsimp only at permitted before claim ⊢
  cases o with
  | db o => exact (LoopStage.permits_db permitted).elim
  | runtime o =>
    obtain ⟨-, rfl, rfl⟩ := LoopStage.permits_runtime permitted
    rcases reply with ⟨world, loc, _ | _⟩ <;> trivial
  | redis o =>
    obtain ⟨-, rfl, rfl⟩ | ⟨-, rfl, _, rfl⟩ | ⟨_, -, rfl, rfl⟩ |
      ⟨_, _, _, _, _, -, rfl, rfl, -⟩ | ⟨_, _, -, rfl, rfl⟩ | ⟨_, -, rfl, rfl⟩ :=
      LoopStage.permits_redis permitted
    all_goals
      obtain ⟨rfl, rfl⟩ | ⟨error, rfl, -, rfl⟩ | ⟨error, rfl, -, rfl⟩ := execute_redis ran <;>
        try trivial
    · exact Redis.delivers_nodup _ (o := .xreadgroup _ _) fun _ _ _ same => (by cases same)
    · exact ⟨rfl, Redis.xpendingRange_ids _ _⟩
    · exact Redis.delivers_nodup _ (o := .xclaim _ _ _) fun _ _ _ same => claim _ _ _ (congrArg _ same)

theorem act (listing : Listing x) (consistent : Consistent env x) (deliveries : Deliveries x)
    (call : Call env x t choice) : Listing call.result := by
  refine ⟨listing.counts_act consistent deliveries call, fun t' th stage found staged => ?_⟩
  obtain ⟨rfl, rfl⟩ | ⟨other, isFound⟩ := call.threads_result found
  · rw [call.own_stage] at staged
    obtain ⟨item, before, is⟩ | ⟨request, before, is⟩ | ⟨task, before, is⟩ := consistent.kind call
    · obtain ⟨goes, -⟩ | ⟨-, goes⟩ := is.goes <;> rw [goes] at staged
      · cases staged
      · rw [Control.first_loop staged]
        trivial
    · obtain ⟨goes, -⟩ | ⟨-, goes, -⟩ := is.goes <;> rw [goes] at staged <;> cases staged
    · obtain ⟨goes, -⟩ | goes := is.goes <;> rw [goes] at staged
      · cases staged
        exact listing.loop_act consistent call is
      · rw [Control.first_loop staged]
        trivial
  · rw [call.other_stage other] at staged
    exact listing.stages t' th stage isFound staged

theorem undisturbed {x' : Staged} {label : Label} (listing : Listing x)
    (consistent : Consistent env x) (move : Move env x label x')
    (noCall : ∀ t choice, label ≠ .act t choice) : Listing x' := by
  have rests := move.rests noCall
  refine ⟨by rw [rests.redis, rests.history]; exact listing.counts, fun t th stage found staged => ?_⟩
  obtain ⟨isFound, same⟩ | ⟨-, first, -⟩ := consistent.threads move noCall found
  · exact listing.stages t th stage isFound (same.symm.trans staged)
  · rw [Control.first_loop (first.symm.trans staged)]
    trivial

theorem init : Listing (System.init, fun _ => .resting) where
  counts := ⟨fun _ _ is => (by cases is), fun _ _ mem => (by cases mem)⟩
  stages _ _ _ found := by cases found

end Listing

theorem StagedRun.listing {env : Env} {guard : Guard} {x : Staged} (h : StagedRun env guard x) :
    Listing x :=
  h.invariant Listing.init fun _ _ _ reached listing stepped _ => by
    have consistent := StagedRun.consistent reached
    obtain ⟨t, choice, call, rfl, rfl⟩ | noCall := (move_of_step stepped).call_or
    · exact listing.act consistent (StagedRun.deliveries reached) call
    · exact listing.undisturbed consistent (move_of_step stepped) noCall

def LoopStage.items : LoopStage → List DeliveredEvent
  | .decoding counts messages => decodedMessages counts messages
  | _ => []

theorem decodedMessages_ids (counts : List (Nat × Nat)) (messages : List (Nat × StreamFields)) :
    ((decodedMessages counts messages).map (·.messageId)).Sublist (messages.map (·.1)) := by
  induction messages with
  | nil => exact .slnil
  | cons message rest ih =>
    simp only [decodedMessages, List.filterMap_cons, List.map_cons]
    cases decodeOne message.2 with
    | error error => exact ih.cons _
    | ok event => exact ih.cons_cons _

theorem LoopStage.Distinct.tokens {loc : Local} {stage : LoopStage} (h : stage.Distinct loc) :
    (stage.items.map (·.token)).Nodup := by
  cases stage with
  | decoding counts messages =>
    have ids : ((decodedMessages counts messages).map (·.messageId)).Nodup :=
      List.Nodup.sublist (decodedMessages_ids counts messages) h
    refine List.Nodup.of_map (·.1) ?_
    rw [List.map_map]
    exact ids
  | _ => exact .nil

theorem deliveryCountOf_incremented {listed : List (Nat × Nat)} {id : Nat}
    (mem : id ∈ listed.map (·.1)) :
    deliveryCountOf (listed.map fun entry => (entry.1, entry.2 + 1)) id =
      deliveryCountOf listed id + 1 := by
  induction listed with
  | nil => cases mem
  | cons entry rest ih =>
    obtain ⟨other, count⟩ := entry
    rw [deliveryCountOf, deliveryCountOf, List.map_cons, List.lookup_cons, List.lookup_cons]
    cases same : id == other with
    | true => rfl
    | false =>
      have apart : id ≠ other := by simpa using same
      exact ih ((List.mem_cons.mp mem).resolve_left apart)

section Fresh
variable {env : Env} {x : Staged} {t : Nat} {choice : Choice}

theorem Listing.fresh_items (listing : Listing x)
    (call : Call env x t choice) (guarded : claimsAsListed x.1 (.act t choice) = true)
    {task : Task} {stage : LoopStage} (is : LoopCall call task stage) {item : DeliveredEvent}
    (mem : item ∈ (stage.next call.o call.reply.answer).items) :
    item ∈ stage.items ∧ call.o.delivers x.1.world choice = [] ∨
      choice = .ok ∧ item.messageId ∈ call.o.delivers x.1.world choice ∧
      item.deliveryCount = (deliveredIds x.1.world.history).count item.messageId + 1 := by
  have permitted := is.permitted
  have before := listing.stages t call.thread stage call.found is.staged
  have isCall := call.call?_eq
  clear is
  obtain ⟨thread, o, next, reply, found, waits, ran⟩ := call
  dsimp only at permitted mem before isCall ⊢
  cases o with
  | db o => exact (LoopStage.permits_db permitted).elim
  | runtime o =>
    obtain ⟨-, rfl, rfl⟩ := LoopStage.permits_runtime permitted
    rcases reply with ⟨world, loc, _ | _⟩ <;> cases mem
  | redis o =>
    obtain ⟨-, rfl, rfl⟩ | ⟨-, rfl, _, rfl⟩ | ⟨counts, -, rfl, rfl⟩ |
      ⟨_, _, _, _, _, -, rfl, rfl, -⟩ | ⟨_, _, -, rfl, rfl⟩ | ⟨_, -, rfl, rfl⟩ :=
      LoopStage.permits_redis permitted
    all_goals
      obtain ⟨rfl, rfl⟩ | ⟨error, rfl, -, rfl⟩ | ⟨error, rfl, -, rfl⟩ := execute_redis ran <;>
        first | cases mem | skip
    · obtain ⟨fields, isMessage, -, counted⟩ := mem_decodedMessages mem
      have handed : item.messageId ∈ (x.1.world.redis.run x.1.world.now (.xreadgroup thread.name
          env.settings.redisReadCount)).value.map (·.1) := List.mem_map.mpr ⟨_, isMessage, rfl⟩
      refine .inr ⟨rfl, handed, ?_⟩
      rw [Redis.xreadgroup_ids] at handed
      rw [counted, List.count_eq_zero.mpr (listing.counts.undelivered _ (List.mem_range'_1.mp handed).1)]
      rfl
    · obtain ⟨fields, isMessage, decoded, counted⟩ := mem_decodedMessages mem
      have handed : item.messageId ∈ (x.1.world.redis.run x.1.world.now (.xclaim thread.name
          env.settings.pendingMinIdleMs (counts.map (·.1)))).value.map (·.1) :=
        List.mem_map.mpr ⟨_, isMessage, rfl⟩
      refine .inr ⟨rfl, handed, ?_⟩
      have claimed := (Redis.xclaim_ids_sublist _ _ _).subset handed
      obtain ⟨rfl, -⟩ := before
      have listed : item.messageId ∈ thread.loc.listed.map (·.1) := by
        rw [← Listing.map_incremented]
        exact (List.mem_filter.mp claimed).1
      have isEntry : x.1.world.redis.entries[item.messageId]? = some fields := by
        obtain ⟨id, -, found⟩ := List.mem_filterMap.mp isMessage
        obtain ⟨content, isContent, same⟩ := Option.map_eq_some_iff.mp found
        cases same
        exact isContent
      simp only [claimsAsListed, isCall, List.all_eq_true] at guarded
      have asListed := guarded item.messageId claimed
      rw [isEntry, Option.any_some, decoded, Bool.or_eq_true] at asListed
      obtain malformed | asListed := asListed
      · cases malformed
      obtain ⟨entry, isPending, same⟩ := (Option.any_eq_true _ _).mp asListed
      have same : entry.timesDelivered = deliveryCountOf thread.loc.listed item.messageId :=
        of_decide_eq_true same
      rw [counted, deliveryCountOf_incremented listed, ← same,
        listing.counts.counted item.messageId entry isPending]
    · exact .inl ⟨mem, rfl⟩

end Fresh

def Stage.items : Stage → List DeliveredEvent
  | .loop stage => stage.items
  | _ => []

/-- `_run` has not been entered yet. -/
def AttemptStage.unentered : AttemptStage → Bool
  | .start | .opened | .clocked _ | .matched _ | .owned | .loaded _ => true
  | _ => false

/-- The deliveries for which a thread may still enter `_run`. -/
def Control.undone : Control → Stage → List DeliveredEvent
  | .handling _ item rest _, .attempt stage => if stage.unentered then item :: rest else rest
  | .fetching _ _, .loop stage => stage.items
  | _, _ => []

def Control.handsOut : Control → List DeliveredEvent
  | .fetching _ (.ret items) => items
  | _ => []

theorem Control.first_items (c : Control) : c.first.items = [] := by
  cases c <;> rfl

theorem Control.undone_takeNext {env : Env} {name : String} {loop : Loop}
    {items : List DeliveredEvent} :
    (takeNext env name loop items).undone (takeNext env name loop items).first = items := by
  cases items <;> rfl

theorem Control.undone_first {c : Control} (unhandled : c.item? = none) : c.undone c.first = [] := by
  cases c with
  | handling loop item rest p => cases unhandled
  | _ => rfl

theorem Control.handsOut_silent {c : Control} (silent : ∀ t, c.announce t = []) : c.handsOut = [] := by
  cases c with
  | fetching loop p =>
    cases p with
    | ret items => exact List.map_eq_nil_iff.mp (silent 0)
    | _ => rfl
  | _ => rfl

section Loops
variable {env : Env} {x : Staged} {t : Nat} {choice : Choice} {call : Call env x t choice}
  {task : Task} {stage : LoopStage}

theorem LoopCall.stage_items (is : LoopCall call task stage) :
    call.stage'.items.Sublist (stage.next call.o call.reply.answer).items := by
  obtain ⟨goes, -⟩ | goes := is.goes
  · rw [goes]
    exact .refl _
  · rw [goes, Control.first_items]
    exact List.nil_sublist _

theorem LoopCall.fetched (is : LoopCall call task stage) {loop : Loop} {items : List DeliveredEvent}
    (outcome : call.reached = .fetching loop (.ret items))
    (decoded : items = [] ∨ ∃ counts messages, stage.next call.o call.reply.answer =
      .decoding counts messages ∧ items = decodedMessages counts messages) :
    items.Sublist (stage.next call.o call.reply.answer).items ∧
      call.thread'.control = .takeNext env call.thread.name loop items ∧
        call.stage' = call.thread'.control.first := by
  have control : call.thread'.control = .takeNext env call.thread.name loop items := by
    simp only [outcome]
    rfl
  refine ⟨?_, control, ?_⟩
  · obtain rfl | ⟨counts, messages, staged, rfl⟩ := decoded
    · exact List.nil_sublist _
    · rw [staged]
      exact .refl _
  · obtain ⟨-, running⟩ | goes := is.goes
    · rw [control, outcome] at running
      cases items <;> cases running
    · exact goes

theorem LoopCall.handsOut (is : LoopCall call task stage) : (call.reached.handsOut ++
    call.stage'.items).Sublist (stage.next call.o call.reply.answer).items := by
  obtain ⟨-, -, silent, -⟩ | ⟨loop, items, -, outcome, decoded⟩ | ⟨raw, -, outcome, -⟩ |
    ⟨event, rest, id, -, -, outcome, -⟩ | ⟨loop, -, silent, -⟩ := is.ends
  · rw [Control.handsOut_silent silent]
    exact is.stage_items
  · obtain ⟨kept, -, first⟩ := is.fetched outcome decoded
    rw [first, Control.first_items, outcome, List.append_nil]
    exact kept
  · rw [outcome]
    exact is.stage_items
  · rw [outcome]
    exact is.stage_items
  · rw [Control.handsOut_silent silent]
    exact is.stage_items

theorem LoopCall.undone_before (is : LoopCall call task stage) :
    call.thread.control.undone (.loop stage) = stage.items := by
  have runs := is.control.1
  have permitted := is.permitted
  cases control : call.thread.control with
  | fetching loop p => rfl
  | handling loop item rest p =>
    rw [control] at runs
    cases runs
  | _ =>
    rw [control] at runs
    cases stage with
    | decoding counts messages =>
      cases runs <;> exact permitted.elim
    | _ => rfl

theorem LoopCall.undone (is : LoopCall call task stage) :
    (call.thread'.control.undone call.stage').Sublist (stage.next call.o call.reply.answer).items := by
  obtain ⟨running, -⟩ | ⟨loop, items, -, outcome, decoded⟩ | ⟨raw, -, outcome, -⟩ |
    ⟨event, rest, id, -, -, outcome, -⟩ | ⟨loop, idle, -⟩ := is.ends
  · have items := is.stage_items
    have runs := is.control.2.1
    have control : call.thread'.control = call.reached := Control.settle_running running
    rw [control]
    generalize call.stage' = stage' at items
    generalize call.reached = reached at runs
    cases reached with
    | fetching loop p =>
      cases stage' with
      | loop stage' => exact items
      | _ => exact List.nil_sublist _
    | handling loop item rest p => cases runs
    | _ => exact List.nil_sublist _
  · obtain ⟨kept, control, first⟩ := is.fetched outcome decoded
    rw [first, control, Control.undone_takeNext]
    exact kept
  · have control : call.thread'.control = .publishNext (decodeRetries raw) := by
      simp only [outcome]
      rfl
    rw [control]
    cases decodeRetries raw <;> exact List.nil_sublist _
  · have control : call.thread'.control = .publishNext rest := by
      simp only [outcome]
      rfl
    rw [control]
    cases rest <;> exact List.nil_sublist _
  · have control : call.thread'.control = .idle loop := idle
    rw [control]
    exact List.nil_sublist _

end Loops

/-- An attempt does not come back to where it could enter `_run`. -/
theorem AttemptStage.next_unentered {stage : AttemptStage} {item : DeliveredEvent} {o : Op}
    {reply : Except Exn o.Val} (h : (stage.next item o reply).unentered = true) :
    stage.unentered = true := by
  cases stage <;> first | rfl | skip
  all_goals
    rcases o with o | o | o <;> cases o <;> rcases reply with error | value <;> first
      | cases h
      | (rcases value with _ | ⟨row, document⟩ <;> cases h)

def Op.enters (ctx : Context) : Op → List DeliveredEvent
  | .runtime .enterRun => ctx.item.toList
  | _ => []

theorem Op.enters_eq_nil {ctx : Context} {o : Op} (other : o ≠ .runtime .enterRun) :
    o.enters ctx = [] := by
  rcases o with o | o | o
  · rfl
  · rfl
  · cases o <;> first | rfl | exact absurd rfl other

/-- Entering `_run` uses up the delivery. -/
theorem AttemptStage.enters_next {env : Env} {name : String} {ctx : Context}
    {item : DeliveredEvent} {stage : AttemptStage} {o : Op} (handled : ctx.item = some item)
    (permitted : stage.permits env name item o) (reply : Except Exn o.Val)
    (rest : List DeliveredEvent) :
    (o.enters ctx ++ if (stage.next item o reply).unentered then item :: rest else rest).Sublist
      (if stage.unentered then item :: rest else rest) := by
  by_cases entering : o = .runtime .enterRun
  · subst entering
    obtain ⟨-, absurd⟩ | ⟨row, rfl, -⟩ | ⟨-, -, absurd, -⟩ | ⟨-, -, other⟩ :=
      AttemptStage.permits_runtime permitted
    · cases absurd
    · rw [Op.enters, handled]
      exact .refl _
    · cases absurd
    · exact absurd rfl other
  · rw [Op.enters_eq_nil entering, List.nil_append]
    split
    · rename_i later
      rw [AttemptStage.next_unentered later]
      exact .refl _
    · split
      · exact List.sublist_cons_self item rest
      · exact .refl _

section Attempts
variable {env : Env} {x : Staged} {t : Nat} {choice : Choice} {call : Call env x t choice}
  {item : DeliveredEvent} {stage : AttemptStage}

theorem AttemptCall.stage_items (is : AttemptCall call item stage) : call.stage'.items = [] := by
  obtain ⟨goes, -⟩ | ⟨-, goes⟩ := is.goes <;> rw [goes]
  · rfl
  · exact Control.first_items _

theorem AttemptCall.undone (is : AttemptCall call item stage) :
    (call.o.enters (System.context t call.thread) ++
      call.thread'.control.undone call.stage').Sublist (call.thread.control.undone (x.2 t)) := by
  obtain ⟨loop, rest, p, p', control, reached⟩ := is.control
  have handled : (System.context t call.thread).item = some item := by
    rw [System.context, control]
    rfl
  have before : call.thread.control.undone (x.2 t) =
      if stage.unentered then item :: rest else rest := by
    rw [control, is.staged]
    rfl
  have after : (call.thread'.control.undone call.stage').Sublist
      (if (stage.next item call.o call.reply.answer).unentered then item :: rest else rest) := by
    have kept : rest.Sublist
        (if (stage.next item call.o call.reply.answer).unentered then item :: rest else rest) := by
      split
      · exact List.sublist_cons_self item rest
      · exact .refl _
    simp only [Call.stage', Control.after, reached, control, is.staged]
    cases p' with
    | call o next => exact .refl _
    | ret outcome =>
      change ((Control.takeNext env call.thread.name loop rest).undone
        (Control.takeNext env call.thread.name loop rest).first).Sublist _
      rw [Control.undone_takeNext]
      exact kept
    | raise error => exact List.nil_sublist _
  rw [before]
  exact (List.Sublist.append_left after _).trans
    (AttemptStage.enters_next handled is.permitted call.reply.answer rest)

end Attempts

section History
variable {env : Env} {x : Staged} {t : Nat} {choice : Choice}

theorem announce_handedOut (t : Nat) (c : Control) :
    (c.announce t).filterMap (·.handedOut?) = c.handsOut := by
  have all (items : List DeliveredEvent) :
      (items.map (Observation.handedOut t)).filterMap (·.handedOut?) = items := by
    rw [List.filterMap_map]
    exact List.filterMap_some
  cases c with
  | fetching loop p => cases p <;> first | rfl | exact all _
  | serving request p => cases p <;> rfl
  | _ => rfl

theorem announce_ran (t : Nat) (c : Control) : (c.announce t).filterMap (·.ran?) = [] := by
  refine List.filterMap_eq_nil_iff.mpr fun observation mem => ?_
  obtain ⟨item, rfl⟩ | ⟨answer, rfl⟩ := mem_announce mem <;> rfl

theorem redis_observes_undone {ctx : Context} {w : World} {o : RedisOp} {observation : Observation}
    (mem : observation ∈ o.observes ctx w choice) :
    observation.handedOut? = none ∧ observation.ran? = none := by
  obtain ⟨_, event, -, -, rfl | ⟨-, rfl⟩⟩ | ⟨event, score, -, -, rfl⟩ |
    ⟨clock, limit, event, due, -, -, rfl⟩ | ⟨id, rfl⟩ := mem_redis_observes mem <;> exact ⟨rfl, rfl⟩

theorem observes_handedOut (ctx : Context) (w : World) (loc : Local) (o : Op) :
    (o.observes ctx w loc choice).filterMap (·.handedOut?) = [] := by
  refine List.filterMap_eq_nil_iff.mpr fun observation mem => ?_
  obtain rfl | ⟨write, -, rfl⟩ | ⟨op, -, mem⟩ | ⟨-, item, -, rfl⟩ := mem_observes mem
  · rfl
  · cases write <;> rfl
  · exact (redis_observes_undone mem).1
  · rfl

theorem observes_ran (ctx : Context) (w : World) (loc : Local) (o : Op) :
    (o.observes ctx w loc choice).filterMap (·.ran?) = o.enters ctx := by
  by_cases entering : o = .runtime .enterRun
  · subst entering
    cases handled : ctx.item <;> simp [Op.observes, Op.enters, handled, Observation.ran?]
  · rw [Op.enters_eq_nil entering]
    refine List.filterMap_eq_nil_iff.mpr fun observation mem => ?_
    obtain rfl | ⟨write, -, rfl⟩ | ⟨op, -, mem⟩ | ⟨same, -⟩ := mem_observes mem
    · rfl
    · cases write <;> rfl
    · exact (redis_observes_undone mem).2
    · exact absurd same entering

theorem handedOut_call (call : Call env x t choice) :
    call.world'.handedOut = call.reached.handsOut ++ x.1.world.handedOut := by
  rw [World.handedOut, call.history, List.filterMap_append, List.filterMap_append,
    announce_handedOut, observes_handedOut]
  rfl

theorem entered_call (call : Call env x t choice) : call.world'.entered =
    call.o.enters (System.context t call.thread) ++ x.1.world.entered := by
  rw [World.entered, call.history, List.filterMap_append, List.filterMap_append, announce_ran,
    observes_ran]
  rfl

end History

def Issued (history : List Observation) (token : Nat × Nat) : Prop :=
  1 ≤ token.2 ∧ token.2 ≤ (deliveredIds history).count token.1

/-- The deliveries a thread holds for which it may still enter `_run`. -/
def undoneBy (x : Staged) (t : Nat) : List DeliveredEvent :=
  match x.1.threads[t]? with
  | none => []
  | some th => th.control.undone (x.2 t)

/-- Every delivery is handed out once at most, and `_run` is entered for it once
at most. -/
structure SpentOnce (env : Env) (x : Staged) : Prop where
  handedOut : Ledger (Issued x.1.world.history) (fun t => (x.2 t).items.map (·.token))
    (x.1.world.handedOut.map (·.token))
  entered : Ledger (Issued x.1.world.history) (fun t => (undoneBy x t).map (·.token))
    (x.1.world.entered.map (·.token))
  capped : ∀ item ∈ x.1.world.entered, (item.deliveryCount : Int) ≤ env.settings.maxDeliveryCount

namespace SpentOnce
variable {env : Env} {x : Staged} {t : Nat} {choice : Choice}

theorem issued_more (call : Call env x t choice) (token : Nat × Nat)
    (issued : Issued x.1.world.history token) : Issued call.world'.history token := by
  refine ⟨issued.1, issued.2.trans ?_⟩
  rw [deliveredIds_call, List.count_append]
  exact Nat.le_add_left _ _

theorem loop_tokens (listing : Listing x) (call : Call env x t choice)
    (guarded : claimsAsListed x.1 (.act t choice) = true) {task : Task} {stage : LoopStage}
    (is : LoopCall call task stage) (token : Nat × Nat)
    (mem : token ∈ (stage.next call.o call.reply.answer).items.map (·.token)) :
    token ∈ stage.items.map (·.token) ∨
      Issued call.world'.history token ∧ ¬Issued x.1.world.history token := by
  obtain ⟨item, isItem, rfl⟩ := List.mem_map.mp mem
  refine (listing.fresh_items call guarded is isItem).imp
    (fun old => List.mem_map_of_mem old.1) fun fresh => ?_
  obtain ⟨-, delivered, number⟩ := fresh
  have once := List.count_pos_iff.mpr delivered
  constructor
  · refine ⟨by simp only [DeliveredEvent.token]; omega, ?_⟩
    rw [deliveredIds_call, List.count_append]
    simp only [DeliveredEvent.token]
    omega
  · rintro ⟨-, bound⟩
    simp only [DeliveredEvent.token] at bound
    omega

theorem request_silent {call : Call env x t choice} {request : Request} {stage : RequestStage}
    (is : RequestCall call request stage) : call.reached.handsOut = [] ∧ call.stage'.items = [] ∧
      call.thread'.control.undone call.stage' = [] := by
  obtain ⟨p, p', control, reached⟩ := is.control
  refine ⟨by rw [reached]; rfl, ?_, ?_⟩
  · obtain ⟨goes, -⟩ | ⟨-, goes, -⟩ := is.goes <;> rw [goes] <;> rfl
  · obtain ⟨goes, onward⟩ | ⟨-, goes, onward⟩ := is.goes <;> rw [goes, onward]
    · rw [reached]
      rfl
    · rfl

theorem handedOut_act (spent : SpentOnce env x) (consistent : Consistent env x)
    (listing : Listing x) (call : Call env x t choice)
    (guarded : claimsAsListed x.1 (.act t choice) = true) :
    Ledger (Issued call.world'.history) (fun t => (call.result.2 t).items.map (·.token))
      (call.world'.handedOut.map (·.token)) := by
  obtain ⟨distinct, known⟩ : ((call.reached.handsOut ++ call.stage'.items).map (·.token)).Nodup ∧
      ∀ token ∈ (call.reached.handsOut ++ call.stage'.items).map (·.token),
        token ∈ (x.2 t).items.map (·.token) ∨
          Issued call.world'.history token ∧ ¬Issued x.1.world.history token := by
    obtain ⟨item, stage, is⟩ | ⟨request, stage, is⟩ | ⟨task, stage, is⟩ := consistent.kind call
    · obtain ⟨loop, rest, p, p', -, reached⟩ := is.control
      rw [is.stage_items, reached]
      exact ⟨.nil, fun token mem => (by cases mem)⟩
    · obtain ⟨handsOut, items, -⟩ := request_silent is
      rw [handsOut, items]
      exact ⟨.nil, fun token mem => (by cases mem)⟩
    · have within := is.handsOut.map (·.token)
      refine ⟨(listing.loop_act consistent call is).tokens.sublist within, fun token mem => ?_⟩
      rw [is.staged]
      exact loop_tokens listing call guarded is token (within.subset mem)
  rw [List.map_append] at distinct known
  rw [handedOut_call, List.map_append]
  refine spent.handedOut.move (issued_more call) t (fun j other => ?_) ?_ ?_
  · rw [call.other_stage other]
  · rw [call.own_stage]
    exact distinct
  · rw [call.own_stage]
    exact known

theorem entered_act (spent : SpentOnce env x) (consistent : Consistent env x)
    (listing : Listing x) (call : Call env x t choice)
    (guarded : claimsAsListed x.1 (.act t choice) = true) :
    Ledger (Issued call.world'.history) (fun t => (undoneBy call.result t).map (·.token))
      (call.world'.entered.map (·.token)) := by
  have before : undoneBy x t = call.thread.control.undone (x.2 t) := by
    simp only [undoneBy, call.found]
  have after : undoneBy call.result t = call.thread'.control.undone call.stage' := by
    simp only [undoneBy, call.own_result, Function.update_self]
  obtain ⟨distinct, known⟩ : ((call.o.enters (System.context t call.thread) ++
      undoneBy call.result t).map (·.token)).Nodup ∧
      ∀ token ∈ (call.o.enters (System.context t call.thread) ++
        undoneBy call.result t).map (·.token), token ∈ (undoneBy x t).map (·.token) ∨
          Issued call.world'.history token ∧ ¬Issued x.1.world.history token := by
    rw [after]
    obtain ⟨item, stage, is⟩ | ⟨request, stage, is⟩ | ⟨task, stage, is⟩ := consistent.kind call
    · have within := is.undone.map (·.token)
      rw [← before] at within
      exact ⟨(spent.entered.distinct t).sublist within, fun token mem => .inl (within.subset mem)⟩
    · have entering : call.o ≠ .runtime .enterRun := fun same => by
        have permitted := is.permitted
        rw [same] at permitted
        cases stage <;> exact permitted.elim
      obtain ⟨-, -, undone⟩ := request_silent is
      rw [Op.enters_eq_nil entering, undone]
      exact ⟨.nil, fun token mem => (by cases mem)⟩
    · have entering : call.o ≠ .runtime .enterRun := fun same => by
        have permitted := is.permitted
        rw [same] at permitted
        obtain ⟨-, -, absurd⟩ := LoopStage.permits_runtime permitted
        cases absurd
      have within := is.undone.map (·.token)
      rw [Op.enters_eq_nil entering, List.nil_append]
      refine ⟨(listing.loop_act consistent call is).tokens.sublist within, fun token mem => ?_⟩
      refine (loop_tokens listing call guarded is token (within.subset mem)).imp_left fun old => ?_
      rw [before, is.staged, is.undone_before]
      exact old
  rw [List.map_append] at distinct known
  rw [entered_call, List.map_append]
  refine spent.entered.move (issued_more call) t (fun j other => ?_) distinct known
  simp only [undoneBy, call.other_result other, Function.update_of_ne other]

theorem capped_act (spent : SpentOnce env x) (consistent : Consistent env x)
    (call : Call env x t choice) {item : DeliveredEvent} (mem : item ∈ call.world'.entered) :
    (item.deliveryCount : Int) ≤ env.settings.maxDeliveryCount := by
  rw [entered_call, List.mem_append] at mem
  obtain enters | earlier := mem
  · have entering : call.o = .runtime .enterRun := by
      by_contra other
      rw [Op.enters_eq_nil other] at enters
      cases enters
    rw [entering] at enters
    obtain ⟨handled, stage, is⟩ | ⟨request, stage, is⟩ | ⟨task, stage, is⟩ := consistent.kind call
    all_goals
      have permitted := is.permitted
      rw [entering] at permitted
    · obtain ⟨loop, rest, p, p', control, -⟩ := is.control
      rw [Op.enters, System.context, control] at enters
      cases List.mem_singleton.mp enters
      obtain ⟨-, absurd⟩ | ⟨row, -, -, bound⟩ | ⟨-, -, absurd, -⟩ | ⟨-, -, other⟩ :=
        AttemptStage.permits_runtime permitted
      · cases absurd
      · exact bound
      · cases absurd
      · exact absurd rfl other
    · cases stage <;> exact permitted.elim
    · obtain ⟨-, -, absurd⟩ := LoopStage.permits_runtime permitted
      cases absurd
  · exact spent.capped item earlier

theorem act (spent : SpentOnce env x) (consistent : Consistent env x) (listing : Listing x)
    (call : Call env x t choice) (guarded : claimsAsListed x.1 (.act t choice) = true) :
    SpentOnce env call.result :=
  ⟨spent.handedOut_act consistent listing call guarded,
    spent.entered_act consistent listing call guarded,
    fun _ mem => spent.capped_act consistent call mem⟩

theorem undisturbed {x' : Staged} {label : Label} (spent : SpentOnce env x)
    (consistent : Consistent env x) (move : Move env x label x')
    (noCall : ∀ t choice, label ≠ .act t choice) : SpentOnce env x' := by
  have history := (move.rests noCall).history
  have handedOut : x'.1.world.handedOut = x.1.world.handedOut := congrArg (List.filterMap _) history
  have entered : x'.1.world.entered = x.1.world.entered := congrArg (List.filterMap _) history
  refine ⟨?_, ?_, ?_⟩
  · rw [handedOut, history]
    refine spent.handedOut.fewer (fun _ issued => issued) fun t => ?_
    obtain kept | ⟨c, first⟩ := move.stage noCall t
    · rw [kept]
    · rw [first, Control.first_items]
      exact List.nil_sublist _
  · rw [entered, history]
    refine spent.entered.fewer (fun _ issued => issued) fun t => List.Sublist.map _ ?_
    simp only [undoneBy]
    cases found : x'.1.threads[t]? with
    | none => exact List.nil_sublist _
    | some th =>
      obtain ⟨isFound, same⟩ | ⟨-, first, unhandled, -⟩ := consistent.threads move noCall found
      · rw [isFound, same]
      · dsimp only
        rw [first, Control.undone_first unhandled]
        exact List.nil_sublist _
  · rw [entered]
    exact spent.capped

theorem init : SpentOnce env (System.init, fun _ => .resting) where
  handedOut := .empty fun _ => rfl
  entered := .empty fun _ => rfl
  capped _ mem := by cases mem

end SpentOnce

theorem StagedRun.spentOnce {env : Env} {x : Staged} (h : StagedRun env claimingAsListed x) :
    SpentOnce env x :=
  h.invariant SpentOnce.init fun _ _ _ reached spent stepped guarded => by
    have consistent := StagedRun.consistent reached
    obtain ⟨t, choice, call, rfl, rfl⟩ | noCall := (move_of_step stepped).call_or
    · exact spent.act consistent (StagedRun.listing reached) call guarded
    · exact spent.undisturbed consistent (move_of_step stepped) noCall

section Numbers
variable {t id : Nat} {new history : List Observation}

theorem deliveriesTo_quiet (quiet : ∀ observation ∈ new, observation.deliversTo t id = false) :
    deliveriesTo t id (new ++ history) = deliveriesTo t id history := by
  rw [deliveriesTo, List.dropWhile_append_of_pos fun observation mem => by rw [quiet observation mem]; rfl]
  rfl

theorem deliveriesTo_fresh {ids : List Nat} (nodup : ids.Nodup) (mem : id ∈ ids) :
    deliveriesTo t id (ids.map (.delivered t) ++ history) = (deliveredIds history).count id + 1 := by
  induction ids with
  | nil => cases mem
  | cons first rest ih =>
    obtain ⟨apart, distinct⟩ := List.nodup_cons.mp nodup
    have delivered : deliveredIds (rest.map (.delivered t) ++ history) =
        rest ++ deliveredIds history := by
      rw [deliveredIds, List.filterMap_append, List.filterMap_map]
      exact congrArg (· ++ _) List.filterMap_some
    by_cases same : first = id
    · subst same
      have own : (Observation.delivered t first).deliversTo t first = true := by
        simp [Observation.deliversTo]
      rw [List.map_cons, List.cons_append, deliveriesTo, List.dropWhile_cons_of_neg (by simp [own])]
      change (first :: deliveredIds (rest.map (.delivered t) ++ history)).count first = _
      rw [delivered, List.count_cons_self, List.count_append, List.count_eq_zero.mpr apart,
        Nat.zero_add]
    · have skipped : (Observation.delivered t first).deliversTo t id = false := by
        simp [Observation.deliversTo, same]
      rw [← ih distinct ((List.mem_cons.mp mem).resolve_left (Ne.symm same))]
      change deliveriesTo t id ([.delivered t first] ++ (rest.map (.delivered t) ++ history)) = _
      refine deliveriesTo_quiet fun observation mem => ?_
      rw [List.mem_singleton.mp mem]
      exact skipped

theorem counted_quiet (quiet : ∀ observation ∈ new, observation.handedOut? = none) :
    Counted (new ++ history) ↔ Counted history := by
  induction new with
  | nil => rfl
  | cons first rest ih =>
    have remaining := ih fun observation mem => quiet observation (List.mem_cons_of_mem _ mem)
    have silent := quiet first List.mem_cons_self
    cases first with
    | handedOut t item => cases silent
    | _ => exact remaining

theorem counted_handsOut {items : List DeliveredEvent} (counted : Counted history)
    (numbered : ∀ item ∈ items, item.deliveryCount = deliveriesTo t item.messageId history) :
    Counted (items.map (.handedOut t) ++ history) := by
  induction items with
  | nil => exact counted
  | cons item rest ih =>
    refine ⟨?_, ih fun item mem => numbered item (List.mem_cons_of_mem _ mem)⟩
    rw [numbered item List.mem_cons_self]
    refine (deliveriesTo_quiet fun observation mem => ?_).symm
    obtain ⟨other, -, rfl⟩ := List.mem_map.mp mem
    rfl

end Numbers

section Observed
variable {ctx : Context} {w : World} {loc : Local} {choice : Choice} {o : Op}

theorem observes_deliversTo {t id : Nat} {observation : Observation}
    (mem : observation ∈ o.observes ctx w loc choice)
    (delivers : observation.deliversTo t id = true) : t = ctx.thread ∧ id ∈ o.delivers w choice := by
  cases observation with
  | delivered t' id' =>
    have isId : id' ∈ o.delivers w choice := by
      rw [← observes_deliveredIds ctx loc]
      exact List.mem_filterMap.mpr ⟨_, mem, rfl⟩
    obtain ⟨rfl, rfl⟩ : t' = t ∧ id' = id := by simpa [Observation.deliversTo] using delivers
    refine ⟨?_, isId⟩
    obtain fault | ⟨write, -, wrote⟩ | ⟨op, -, mem⟩ | ⟨-, item, -, ran⟩ := mem_observes mem
    · cases fault
    · cases write <;> cases wrote
    · obtain ⟨_, event, -, -, absurd | ⟨-, absurd⟩⟩ | ⟨event, score, -, -, absurd⟩ |
        ⟨clock, limit, event, due, -, -, absurd⟩ | ⟨_, same⟩ := mem_redis_observes mem
      · cases absurd
      · cases absurd
      · cases absurd
      · cases absurd
      · cases same
        rfl
    · cases ran
  | _ => cases delivers

theorem announce_deliversTo {t t' id : Nat} {c : Control} {observation : Observation}
    (mem : observation ∈ c.announce t) : observation.deliversTo t' id = false := by
  obtain ⟨item, rfl⟩ | ⟨answer, rfl⟩ := mem_announce mem <;> rfl

theorem observes_delivering {id : Nat} (mem : id ∈ o.delivers w .ok) :
    o.observes ctx w loc .ok = (o.delivers w .ok).map (.delivered ctx.thread) := by
  rcases o with o | o | o
  · cases mem
  · cases o with
    | xreadgroup consumer count => exact (List.map_map ..).symm
    | xclaim consumer minIdle ids => exact (List.map_map ..).symm
    | _ => cases mem
  · cases mem

end Observed

/-- Events handed out, and those about to be, carry the number of the delivery
they came with. -/
structure Numbered (x : Staged) : Prop where
  counted : Counted x.1.world.history
  batch : ∀ t, ∀ item ∈ (x.2 t).items,
    item.deliveryCount = deliveriesTo t item.messageId x.1.world.history

namespace Numbered
variable {env : Env} {x : Staged} {t : Nat} {choice : Choice}

theorem loop_batch (numbered : Numbered x) (consistent : Consistent env x) (listing : Listing x)
    (call : Call env x t choice) (guarded : claimsAsListed x.1 (.act t choice) = true) {task : Task}
    {stage : LoopStage} (is : LoopCall call task stage) {item : DeliveredEvent}
    (mem : item ∈ (stage.next call.o call.reply.answer).items) :
    item.deliveryCount = deliveriesTo t item.messageId
      (call.o.observes (System.context t call.thread) x.1.world call.thread.loc choice ++
        x.1.world.history) := by
  obtain ⟨old, silent⟩ | ⟨rfl, delivered, number⟩ := listing.fresh_items call guarded is mem
  · rw [deliveriesTo_quiet fun observation isNew => ?_]
    · exact numbered.batch t item (by rw [is.staged]; exact old)
    · by_contra delivers
      have delivered := (observes_deliversTo isNew (by simpa using delivers)).2
      rw [silent] at delivered
      cases delivered
  · have nodup : (call.o.delivers x.1.world .ok).Nodup := by
      cases o : call.o with
      | redis o' =>
        exact Redis.delivers_nodup _ fun consumer minIdle ids same =>
          (listing.claim consistent call (o.trans (congrArg Op.redis same))).2.2
      | _ => exact .nil
    rw [observes_delivering delivered, number]
    exact (deliveriesTo_fresh nodup delivered).symm

theorem announce_handsOut {c : Control} {task : Task} (runs : c.task? = some task) (t : Nat) :
    c.announce t = c.handsOut.map (.handedOut t) := by
  cases c with
  | fetching loop p => cases p <;> rfl
  | serving request p => cases runs
  | _ => rfl

theorem act (numbered : Numbered x) (consistent : Consistent env x) (listing : Listing x)
    (call : Call env x t choice) (guarded : claimsAsListed x.1 (.act t choice) = true) :
    Numbered call.result := by
  have observed : Counted (call.o.observes (System.context t call.thread) x.1.world
      call.thread.loc choice ++ x.1.world.history) :=
    (counted_quiet (List.filterMap_eq_nil_iff.mp (observes_handedOut ..))).mpr numbered.counted
  have unannounced (t' id : Nat) (rest : List Observation) :
      deliveriesTo t' id (call.reached.announce t ++ rest) = deliveriesTo t' id rest :=
    deliveriesTo_quiet fun observation mem => announce_deliversTo mem
  have silent (handsOut : call.reached.handsOut = []) : Counted call.world'.history := by
    rw [call.history]
    refine (counted_quiet (List.filterMap_eq_nil_iff.mp ?_)).mpr observed
    rw [announce_handedOut, handsOut]
  refine ⟨?_, fun t' item mem => ?_⟩
  · obtain ⟨item, stage, is⟩ | ⟨request, stage, is⟩ | ⟨task, stage, is⟩ := consistent.kind call
    · obtain ⟨loop, rest, p, p', -, reached⟩ := is.control
      exact silent (by rw [reached]; rfl)
    · exact silent (SpentOnce.request_silent is).1
    · change Counted call.world'.history
      rw [call.history, announce_handsOut is.control.2.1]
      refine counted_handsOut observed fun item mem => ?_
      exact numbered.loop_batch consistent listing call guarded is
        (is.handsOut.subset (List.mem_append_left _ mem))
  · change item.deliveryCount = deliveriesTo t' item.messageId call.world'.history
    rw [call.history, unannounced]
    by_cases own : t' = t
    · subst own
      rw [call.own_stage] at mem
      obtain ⟨item, stage, is⟩ | ⟨request, stage, is⟩ | ⟨task, stage, is⟩ := consistent.kind call
      · rw [is.stage_items] at mem
        cases mem
      · rw [(SpentOnce.request_silent is).2.1] at mem
        cases mem
      · exact numbered.loop_batch consistent listing call guarded is (is.stage_items.subset mem)
    · rw [call.other_stage own] at mem
      rw [deliveriesTo_quiet fun observation isNew => ?_]
      · exact numbered.batch t' item mem
      · by_contra delivers
        exact own (observes_deliversTo isNew (by simpa using delivers)).1

theorem undisturbed {x' : Staged} {label : Label} (numbered : Numbered x)
    (move : Move env x label x') (noCall : ∀ t choice, label ≠ .act t choice) : Numbered x' := by
  have history := (move.rests noCall).history
  refine ⟨by rw [history]; exact numbered.counted, fun t item mem => ?_⟩
  rw [history]
  obtain kept | ⟨c, first⟩ := move.stage noCall t
  · exact numbered.batch t item (by rwa [kept] at mem)
  · rw [first, Control.first_items] at mem
    cases mem

end Numbered

theorem StagedRun.numbered {env : Env} {x : Staged} (h : StagedRun env claimingAsListed x) :
    Numbered x :=
  h.invariant ⟨trivial, fun _ _ mem => (by cases mem)⟩ fun _ _ _ reached numbered stepped guarded => by
    have consistent := StagedRun.consistent reached
    obtain ⟨t, choice, call, rfl, rfl⟩ | noCall := (move_of_step stepped).call_or
    · exact numbered.act consistent (StagedRun.listing reached) call guarded
    · exact numbered.undisturbed (move_of_step stepped) noCall

theorem SpentOnce.entered_le {env : Env} {x : Staged} (spent : SpentOnce env x) (id : Nat) :
    (x.1.world.entered.filter (·.messageId = id)).length ≤ env.settings.maxDeliveryCount.toNat := by
  have counts : ((x.1.world.entered.filter (·.messageId = id)).map (·.deliveryCount)).Nodup := by
    refine List.Nodup.of_map (fun count => (id, count)) ?_
    have tokens : ((x.1.world.entered.filter (·.messageId = id)).map (·.deliveryCount)).map
        (fun count => (id, count)) = (x.1.world.entered.filter (·.messageId = id)).map (·.token) := by
      rw [List.map_map]
      refine List.map_congr_left fun item mem => ?_
      have own : item.messageId = id := of_decide_eq_true (List.mem_filter.mp mem).2
      rw [DeliveredEvent.token, own]
      rfl
    rw [tokens]
    exact spent.entered.once.sublist (List.filter_sublist.map _)
  have within : (x.1.world.entered.filter (·.messageId = id)).map (·.deliveryCount) ⊆
      List.range' 1 env.settings.maxDeliveryCount.toNat := by
    intro count mem
    obtain ⟨item, isItem, rfl⟩ := List.mem_map.mp mem
    have entered := (List.mem_filter.mp isItem).1
    have issued := (spent.entered.issued_spent item.token (List.mem_map_of_mem entered)).1
    have capped := spent.capped item entered
    simp only [DeliveredEvent.token] at issued
    exact List.mem_range'_1.mpr ⟨issued, by omega⟩
  have bound := (List.subperm_of_subset counts within).length_le
  rwa [List.length_map, List.length_range'] at bound

/-- Where no entry is delivered between the two commands of a sweep that takes it
over, every delivery carries its own number and the cap holds. -/
theorem redelivery_capped {env : Env} {s : System} (h : Reached env claimingAsListed s) :
    RedeliveryCapped env s.world := by
  obtain ⟨g, staged⟩ := h.staged
  have spent := StagedRun.spentOnce staged
  exact ⟨(StagedRun.numbered staged).counted, spent.handedOut.once, spent.entered_le⟩

section Sample

/-- A worker dies with the entry it has read; two sweepers list the entry, and one
of them claims it. -/
def overlappingSweeps : List Label :=
  [.receive 0 sampleUpload] ++ Label.oks 0 14 ++ [.startWorker 1 "a", .iterate 1, .act 1 .ok,
    .crash 1, .tick 60000000, .startWorker 2 "b", .startWorker 3 "c", .iterate 5, .iterate 8,
    .act 5 .ok, .act 8 .ok, .act 8 .ok]

theorem redelivery_capped_swept : ∃ s, Reached sampleEnv claimingAsListed s ∧
    s.world.handedOut.map (·.token) = [(0, 2), (0, 1)] ∧ RedeliveryCapped sampleEnv s.world := by
  obtain ⟨s, reached, accepted⟩ := Reached.exists_run sampleEnv claimingAsListed
    (fun s label _ => claimsAsListed s label)
    (fun s => s.world.handedOut.map (·.token) = [(0, 2), (0, 1)]) (fun _ _ _ guarded => guarded)
    overlappingSweeps (by decide +kernel)
  exact ⟨s, reached, of_decide_eq_true accepted, redelivery_capped reached⟩

/-- A minute later the other sweeper claims the entry with the counter it had read. -/
theorem redelivery_not_capped : ¬∀ env s, Reached env anyRun s → RedeliveryCapped env s.world := by
  intro capped
  obtain ⟨s, reached, accepted⟩ := Reached.exists_run sampleEnv anyRun (fun _ _ _ => true)
    (fun s => s.world.handedOut.map (·.token) = [(0, 2), (0, 2), (0, 1)]) (fun _ _ _ _ => trivial)
    (overlappingSweeps ++ [.tick 60000000, .act 5 .ok]) (by decide +kernel)
  have distinct := (capped sampleEnv s reached).distinct
  rw [of_decide_eq_true accepted] at distinct
  exact absurd distinct (by decide)

end Sample

end DocumentPipeline

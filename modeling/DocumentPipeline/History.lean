import DocumentPipeline.Invariants
import Mathlib.Algebra.Order.BigOperators.Group.Finset

/-! What a call adds to the history, and totals over the threads. A total is a
sum of one natural number per thread; a call changes it by the caller's share,
and every other step can only lower it. -/

namespace DocumentPipeline
open Transition

def Write.observes (ctx : Context) : Write → Observation
  | .insert row => .created row.id
  | .claim base row => .claimed ctx.thread row.id base.status
  | .update _ base row => .wrote ctx.thread row.id base.status row.status

def RedisOp.observes (ctx : Context) (w : World) (o : RedisOp) (choice : Choice) :
    List Observation :=
  match o with
  | .xadd fields =>
    (if choice.applied then (World.eventsOf fields.data).map (.published ctx.thread) else []) ++
      if choice matches .ok then []
      else (World.eventsOf fields.data).map (.publishFailed ctx.thread)
  | .zadd member score =>
    if choice.applied then (World.eventsOf (some member)).map (.scheduled · score) else []
  | .popDueRetries clock limit =>
    if choice.applied then (w.redis.due clock limit).flatMap fun entry =>
      (World.eventsOf (some entry.1)).map (.popped ctx.thread · entry.2 clock) else []
  | .xreadgroup consumer count =>
    if choice.applied then
      (w.redis.run w.now (.xreadgroup consumer count)).value.map (.delivered ctx.thread ·.1)
    else []
  | .xclaim consumer minIdle ids =>
    if choice.applied then
      (w.redis.run w.now (.xclaim consumer minIdle ids)).value.map (.delivered ctx.thread ·.1)
    else []
  | _ => []

def Choice.faults (ctx : Context) : Choice → List Observation
  | .fails _ | .lost _ => [.faulted ctx.thread]
  | _ => []

/-- The observations a call adds, newest first. -/
def Op.observes (ctx : Context) (w : World) (loc : Local) (o : Op) (choice : Choice) :
    List Observation :=
  match o with
  | .db o => choice.faults ctx ++ ((loc.commits (.db o) choice).map (·.observes ctx)).toList
  | .redis o => choice.faults ctx ++ o.observes ctx w choice
  | .runtime .enterRun => (ctx.item.map (.ran ctx.thread)).toList
  | .runtime _ => []

section Effects
variable {env : Env} {ctx : Context} {w : World} {loc : Local} {choice : Choice}

theorem noteDb_history (o : DbOp) (choice : Choice) :
    (w.noteDb ctx loc o choice).1.history =
      ((loc.commits (.db o) choice).map (·.observes ctx)).toList ++ w.history := by
  cases o with
  | commit =>
    cases choice with
    | fails error => rfl
    | _ =>
      cases pending : loc.tx.write with
      | none => simp only [World.noteDb, Local.commits, pending, Option.map_none]; rfl
      | some write =>
        simp only [World.noteDb, Local.commits, pending, Option.map_some]
        cases write <;> rfl
  | _ => rfl

theorem noteRedis_history (o : RedisOp) (choice : Choice) :
    (w.noteRedis ctx loc w.redis o choice).1.history = o.observes ctx w choice ++ w.history := by
  cases o <;> cases choice <;> rfl

theorem noteFault_history :
    (w.noteFault ctx choice).history = choice.faults ctx ++ w.history := by
  cases choice <;> rfl

theorem runRuntime_history {o : RuntimeOp} {done : World × Except Exn o.Val}
    (h : w.runRuntime env ctx o choice = some done) :
    done.1.history = Op.observes ctx w loc (.runtime o) choice ++ w.history := by
  cases o <;> cases choice <;> simp only [World.runRuntime, reduceCtorEq, Option.some.injEq] at h
  all_goals first
    | (subst h; rfl)
    | skip
  · subst h
    simp only [Op.observes]
    cases ctx.item <;> rfl
  · split at h <;> cases h
    rfl
  · split at h <;> cases h <;> rfl

theorem execute_history {o : Op} {reply : Reply o}
    (h : o.execute env ctx w loc choice = some reply) :
    reply.world.history = o.observes ctx w loc choice ++ w.history := by
  cases o with
  | runtime o =>
    obtain ⟨done, did, rfl⟩ := execute_runtime h
    exact runRuntime_history did
  | redis o =>
    simp only [Op.execute, Option.map_eq_some_iff] at h
    obtain ⟨done, ran, rfl⟩ := h
    simp only [noteFault_history, noteRedis_history, Op.observes, List.append_assoc]
  | db o =>
    simp only [Op.execute, Option.map_eq_some_iff] at h
    obtain ⟨done, ran, rfl⟩ := h
    simp only [noteFault_history, noteDb_history, Op.observes, List.append_assoc]

end Effects

theorem Call.history {env : Env} {x : Staged} {t : Nat} {choice : Choice}
    (call : Call env x t choice) : call.world'.history = call.reached.announce t ++
      (call.o.observes (System.context t call.thread) x.1.world call.thread.loc choice ++
        x.1.world.history) := by
  rw [World.note_history, execute_history call.ran]

theorem mem_faults {ctx : Context} {choice : Choice} {observation : Observation}
    (mem : observation ∈ choice.faults ctx) : observation = .faulted ctx.thread := by
  cases choice <;> simp only [Choice.faults, List.mem_singleton, List.not_mem_nil] at mem <;>
    exact mem

theorem mem_announce {t : Nat} {reached : Control} {observation : Observation}
    (mem : observation ∈ reached.announce t) :
    (∃ item, observation = .handedOut t item) ∨ ∃ answer, observation = .answered t answer := by
  cases reached with
  | fetching loop p =>
    cases p with
    | ret items =>
      obtain ⟨item, -, rfl⟩ := List.mem_map.mp mem
      exact .inl ⟨item, rfl⟩
    | _ => cases mem
  | serving request p =>
    cases p with
    | call o next => cases mem
    | _ => exact .inr ⟨_, List.mem_singleton.mp mem⟩
  | _ => cases mem

theorem mem_observes {ctx : Context} {w : World} {loc : Local} {o : Op} {choice : Choice}
    {observation : Observation} (mem : observation ∈ o.observes ctx w loc choice) :
    observation = .faulted ctx.thread ∨
    (∃ write, loc.commits o choice = some write ∧ observation = write.observes ctx) ∨
    (∃ op, o = .redis op ∧ observation ∈ op.observes ctx w choice) ∨
    (o = .runtime .enterRun ∧ ∃ item, ctx.item = some item ∧ observation = .ran ctx.thread item) := by
  cases o with
  | db o =>
    obtain fault | committed := List.mem_append.mp mem
    · exact .inl (mem_faults fault)
    · obtain ⟨write, commits, rfl⟩ := Option.map_eq_some_iff.mp (Option.mem_toList.mp committed)
      exact .inr (.inl ⟨write, commits, rfl⟩)
  | redis o =>
    obtain fault | observed := List.mem_append.mp mem
    · exact .inl (mem_faults fault)
    · exact .inr (.inr (.inl ⟨o, rfl, observed⟩))
  | runtime o =>
    cases o <;> try cases mem
    obtain ⟨item, handles, rfl⟩ := Option.map_eq_some_iff.mp (Option.mem_toList.mp mem)
    exact .inr (.inr (.inr ⟨rfl, item, handles, rfl⟩))

theorem mem_eventsOf {payload : Option Payload} {event : DocumentProcessingEvent} :
    event ∈ World.eventsOf payload ↔ payload = some (.event event) := by
  rcases payload with _ | other | text <;> simp [World.eventsOf, eq_comm]

theorem mem_redis_observes {ctx : Context} {w : World} {o : RedisOp} {choice : Choice}
    {observation : Observation} (mem : observation ∈ o.observes ctx w choice) :
    (∃ fields event, o = .xadd fields ∧ fields.data = some (.event event) ∧
      (observation = .published ctx.thread event ∨
        choice ≠ .ok ∧ observation = .publishFailed ctx.thread event)) ∨
    (∃ event score, o = .zadd (.event event) score ∧ choice.applied = true ∧
      observation = .scheduled event score) ∨
    (∃ clock limit event due, o = .popDueRetries clock limit ∧
      (.event event, due) ∈ w.redis.due clock limit ∧
        observation = .popped ctx.thread event due clock) ∨
    ∃ id, observation = .delivered ctx.thread id := by
  cases o with
  | xadd fields =>
    left
    simp only [RedisOp.observes, List.mem_append] at mem
    obtain mem | mem := mem
    · split at mem
      · obtain ⟨event, isEvent, rfl⟩ := List.mem_map.mp mem
        exact ⟨fields, event, rfl, mem_eventsOf.mp isEvent, .inl rfl⟩
      · cases mem
    · split at mem
      · cases mem
      · rename_i failed
        obtain ⟨event, isEvent, rfl⟩ := List.mem_map.mp mem
        exact ⟨fields, event, rfl, mem_eventsOf.mp isEvent, .inr ⟨by rintro rfl; exact failed rfl, rfl⟩⟩
  | zadd member score =>
    right; left
    simp only [RedisOp.observes] at mem
    split at mem
    · rename_i applied
      obtain ⟨event, isEvent, rfl⟩ := List.mem_map.mp mem
      cases mem_eventsOf.mp isEvent
      exact ⟨event, score, rfl, applied, rfl⟩
    · cases mem
  | popDueRetries clock limit =>
    right; right; left
    simp only [RedisOp.observes] at mem
    split at mem
    · obtain ⟨⟨payload, due⟩, isDue, mem⟩ := List.mem_flatMap.mp mem
      obtain ⟨event, isEvent, rfl⟩ := List.mem_map.mp mem
      cases mem_eventsOf.mp isEvent
      exact ⟨clock, limit, event, due, rfl, isDue, rfl⟩
    · cases mem
  | xreadgroup consumer count =>
    right; right; right
    simp only [RedisOp.observes] at mem
    split at mem
    · obtain ⟨message, -, rfl⟩ := List.mem_map.mp mem
      exact ⟨message.1, rfl⟩
    · cases mem
  | xclaim consumer minIdle ids =>
    right; right; right
    simp only [RedisOp.observes] at mem
    split at mem
    · obtain ⟨message, -, rfl⟩ := List.mem_map.mp mem
      exact ⟨message.1, rfl⟩
    · cases mem
  | _ => cases mem

theorem Call.redis_choice {env : Env} {x : Staged} {t : Nat} {choice : Choice}
    (call : Call env x t choice) {o : RedisOp} (isRedis : call.o = .redis o) :
    choice = .ok ∨ (∃ error, choice = .fails error) ∨ ∃ error, choice = .lost error := by
  obtain ⟨thread, o, next, reply, found, waits, ran⟩ := call
  cases isRedis
  obtain ⟨ok, -⟩ | ⟨error, failed, -⟩ | ⟨error, lost, -⟩ := execute_redis ran
  · exact .inl ok
  · exact .inr (.inl ⟨error, failed⟩)
  · exact .inr (.inr ⟨error, lost⟩)

theorem Call.mem_history {env : Env} {x : Staged} {t : Nat} {choice : Choice}
    (call : Call env x t choice) {observation : Observation} :
    observation ∈ call.world'.history ↔ observation ∈ call.reached.announce t ∨
      observation ∈ call.o.observes (System.context t call.thread) x.1.world call.thread.loc choice ∨
        observation ∈ x.1.world.history := by
  rw [call.history, List.mem_append, List.mem_append]

def total (x : Staged) (f : Thread → Stage → Nat) : Nat :=
  ∑ t ∈ Finset.range x.1.threads.length, x.1.threads[t]?.elim 0 fun th => f th (x.2 t)

section Totals
variable {env : Env} {x : Staged} {f : Thread → Stage → Nat}

theorem total_call {t : Nat} {choice : Choice} (call : Call env x t choice) :
    total call.result f + f call.thread (x.2 t) = total x f + f call.thread' call.stage' := by
  have inside : t ∈ Finset.range x.1.threads.length :=
    Finset.mem_range.mpr (List.getElem?_eq_some_iff.mp call.found).1
  simp only [total, List.length_set]
  rw [← Finset.add_sum_erase _ _ inside, ← Finset.add_sum_erase _ _ inside]
  have others : ∀ i ∈ (Finset.range x.1.threads.length).erase t,
      (call.result.1.threads[i]?.elim 0 fun th => f th (call.result.2 i)) =
        x.1.threads[i]?.elim 0 fun th => f th (x.2 i) := by
    intro i mem
    have other := (Finset.mem_erase.mp mem).1
    rw [call.other_result other, call.other_stage other]
  rw [Finset.sum_congr rfl others, call.own_result, Function.update_self, call.found]
  simp only [Option.elim_some]
  omega

/-- Where a new or crashed thread has no share, a step that is no call adds
nothing to the total. -/
theorem total_undisturbed (consistent : Consistent env x) {x' : Staged} {label : Label}
    (move : Move env x label x') (noCall : ∀ t choice, label ≠ .act t choice)
    (quiet : ∀ th : Thread, th.control.item? = none → th.control.held = [] →
      f th th.control.first = 0) : total x' f ≤ total x f := by
  have share : ∀ t, (x'.1.threads[t]?.elim 0 fun th => f th (x'.2 t)) ≤
      x.1.threads[t]?.elim 0 fun th => f th (x.2 t) := by
    intro t
    cases found : x'.1.threads[t]? with
    | none => exact Nat.zero_le _
    | some th =>
      obtain ⟨isFound, same⟩ | ⟨-, first, item, held⟩ := consistent.threads move noCall found
      · rw [isFound, same]
      · rw [Option.elim_some, first, quiet th item held]
        exact Nat.zero_le _
  have more : x.1.threads.length ≤ x'.1.threads.length := by
    by_contra fewer
    have absent := List.getElem?_eq_none (l := x'.1.threads) le_rfl
    have gone := List.getElem?_eq_none_iff.mp (move.remains absent).1
    omega
  have beyond : ∀ t ∈ Finset.range x'.1.threads.length, t ∉ Finset.range x.1.threads.length →
      (x.1.threads[t]?.elim 0 fun th => f th (x.2 t)) = 0 := by
    intro t _ outside
    rw [List.getElem?_eq_none (not_lt.mp fun h => outside (Finset.mem_range.mpr h))]
    rfl
  simp only [total]
  rw [Finset.sum_subset (Finset.range_mono more) beyond]
  exact Finset.sum_le_sum fun t _ => share t

end Totals
end DocumentPipeline

import DocumentPipeline.RequestProtocol

/-! The calls of the worker's own loops: reading a batch, the two commands of a
recovery sweep, the scheduler's pop and its publishes. -/

namespace DocumentPipeline
open EffectProgram Queue

inductive Task
  | fetch (loop : Loop)
  | pop
  | publish (event : DocumentProcessingEvent)

inductive LoopStage
  | start
  | listed (counts : List (Nat × Nat))
  | decoding (counts : List (Nat × Nat)) (messages : List (Nat × StreamFields))
  | clocked (now : Time)
  | popped (raw : List Payload)
  | published
  | failed

/-- What `_decode_messages` makes of the entries that validate. -/
def decodedMessages (counts : List (Nat × Nat)) (messages : List (Nat × StreamFields)) :
    List DeliveredEvent :=
  messages.filterMap fun message => match decodeOne message.2 with
    | .error _ => none
    | .ok event => some { messageId := message.1, event
                          deliveryCount := deliveryCountOf counts message.1 }

theorem mem_decodedMessages {counts : List (Nat × Nat)} {messages : List (Nat × StreamFields)}
    {item : DeliveredEvent} (h : item ∈ decodedMessages counts messages) :
    ∃ fields, (item.messageId, fields) ∈ messages ∧ decodeOne fields = .ok item.event ∧
      item.deliveryCount = deliveryCountOf counts item.messageId := by
  obtain ⟨⟨id, fields⟩, mem, decoded⟩ := List.mem_filterMap.mp h
  dsimp only at decoded
  split at decoded
  · cases decoded
  · rename_i event valid
    cases decoded
    exact ⟨fields, mem, valid, rfl⟩

namespace LoopStage

def permits (env : Env) (name : String) : Task → LoopStage → Op → Prop
  | .fetch .consumer, .start, .redis (.xreadgroup consumer count) =>
    consumer = name ∧ count = env.settings.redisReadCount
  | .fetch .recovery, .start, .redis (.xpendingRange _ idle) =>
    idle = env.settings.pendingMinIdleMs
  | .fetch .recovery, .listed counts, .redis (.xclaim consumer idle ids) =>
    consumer = name ∧ idle = env.settings.pendingMinIdleMs ∧ ids = counts.map (·.1)
  | .fetch _, .decoding _ messages, .redis (.xack messageId) =>
    ∃ fields, (messageId, fields) ∈ messages ∧ ∀ event, decodeOne fields ≠ .ok event
  | .pop, .start, .runtime .utcnow => True
  | .pop, .clocked now, .redis (.popDueRetries clock _) => clock = now.timestamp
  | .publish event, .start, .redis (.xadd fields) => fields = toStreamFields event
  | _, _, _ => False

def next : LoopStage → (o : Op) → Except Exn o.Val → LoopStage
  | .start, .redis (.xreadgroup _ _), .ok messages => .decoding [] messages
  | .start, .redis (.xpendingRange _ _), .ok pending =>
    .listed (pending.map fun entry => (entry.1, entry.2 + 1))
  | .listed counts, .redis (.xclaim _ _ _), .ok messages => .decoding counts messages
  | .decoding counts messages, .redis (.xack _), .ok _ => .decoding counts messages
  | .start, .runtime .utcnow, .ok now => .clocked now
  | .clocked _, .redis (.popDueRetries _ _), .ok raw => .popped raw
  | .start, .redis (.xadd _), .ok _ => .published
  | _, _, _ => .failed

section Inversion
variable {env : Env} {name : String} {task : Task} {stage : LoopStage}

theorem permits_db {o : DbOp} (h : stage.permits env name task (.db o)) : False := by
  rcases task with (_ | _ | _) | _ | _ <;> cases stage <;> exact h

theorem permits_runtime {o : RuntimeOp} (h : stage.permits env name task (.runtime o)) :
    task = .pop ∧ stage = .start ∧ o = .utcnow := by
  rcases task with (_ | _ | _) | _ | _ <;> cases stage <;> cases o <;> first
    | exact h.elim
    | exact ⟨rfl, rfl, rfl⟩

theorem permits_redis {o : RedisOp} (h : stage.permits env name task (.redis o)) :
    (task = .fetch .consumer ∧ stage = .start ∧
      o = .xreadgroup name env.settings.redisReadCount) ∨
    (task = .fetch .recovery ∧ stage = .start ∧
      ∃ count, o = .xpendingRange count env.settings.pendingMinIdleMs) ∨
    (∃ counts, task = .fetch .recovery ∧ stage = .listed counts ∧
      o = .xclaim name env.settings.pendingMinIdleMs (counts.map (·.1))) ∨
    (∃ loop counts messages messageId fields, task = .fetch loop ∧
      stage = .decoding counts messages ∧ o = .xack messageId ∧ (messageId, fields) ∈ messages ∧
      ∀ event, decodeOne fields ≠ .ok event) ∨
    (∃ now limit, task = .pop ∧ stage = .clocked now ∧ o = .popDueRetries now.timestamp limit) ∨
    ∃ event, task = .publish event ∧ stage = .start ∧ o = .xadd (toStreamFields event) := by
  rcases task with (_ | _ | _) | _ | _ <;> cases stage <;> cases o <;> first
    | exact h.elim
    | (obtain ⟨rfl, rfl⟩ := h
       exact .inl ⟨rfl, rfl, rfl⟩)
    | (obtain rfl := h
       exact .inr (.inl ⟨rfl, rfl, _, rfl⟩))
    | (obtain ⟨rfl, rfl, rfl⟩ := h
       exact .inr (.inr (.inl ⟨_, rfl, rfl, rfl⟩)))
    | (obtain ⟨fields, mem, malformed⟩ := h
       exact .inr (.inr (.inr (.inl ⟨_, _, _, _, fields, rfl, rfl, rfl, mem, malformed⟩))))
    | (obtain rfl := h
       exact .inr (.inr (.inr (.inr (.inl ⟨_, _, rfl, rfl, rfl⟩)))))
    | (obtain rfl := h
       exact .inr (.inr (.inr (.inr (.inr ⟨_, rfl, rfl, rfl⟩)))))

end Inversion

end LoopStage

abbrev loops (env : Env) (name : String) (task : Task) {α : Type} (p : Prog α)
    (Q : Except Exn α → LoopStage → Prop) (stage : LoopStage) : Prop :=
  wp (.tracking (LoopStage.permits env name task) credible LoopStage.next) p Q stage

abbrev fetched (r : Except Exn (List DeliveredEvent)) (stage : LoopStage) : Prop :=
  match r with
  | .ok items => items = [] ∨ ∃ counts messages, stage = .decoding counts messages ∧
      items = decodedMessages counts messages
  | .error error => error.isQueueError = true

abbrev popped (r : Except Exn (List DocumentProcessingEvent)) (stage : LoopStage) : Prop :=
  match r with
  | .ok events => ∃ raw, stage = .popped raw ∧ events = decodeRetries raw
  | .error error => stage = .failed ∧ error.isQueueError = true

abbrev announced (r : Except Exn Nat) (stage : LoopStage) : Prop :=
  match r with
  | .ok _ => stage = .published
  | .error error => stage = .failed ∧ error.isQueueError = true

section Loops
variable (env : Env) (name : String) {task : Task}

theorem redisCommand_loops {o : RedisOp} {message : String} {stage : LoopStage}
    {Q : Except Exn o.Val → LoopStage → Prop} (permitted : stage.permits env name task (.redis o))
    (ok : ∀ value, Q (.ok value) (stage.next (.redis o) (.ok value)))
    (failed : ∀ error, Q (.error (Exn.queueError message)) (stage.next (.redis o) (.error error))) :
    loops env name task (redisCommand o message) Q stage := by
  refine (wp_tryCatch _ _ _ _ _).mpr (wp_tracking_perform permitted (fun value _ => ok value) ?_)
  intro error fault
  have known : error.isRedisFault = true := fault
  simp only [known, if_true]
  exact failed error

theorem decodeMessages_loops {loop : Loop} (counts : List (Nat × Nat))
    (all messages : List (Nat × StreamFields)) (within : messages ⊆ all) :
    loops env name (.fetch loop) (decodeMessages messages counts) (fun r stage => match r with
      | .ok items => stage = .decoding counts all ∧ items = decodedMessages counts messages
      | .error error => error.isQueueError = true) (.decoding counts all) := by
  induction messages with
  | nil => exact ⟨rfl, rfl⟩
  | cons message rest ih =>
    have remaining := ih (List.subset_of_cons_subset within)
    obtain ⟨messageId, fields⟩ := message
    simp only [decodeMessages, decodedMessages, List.filterMap_cons]
    cases decoded : decodeOne fields with
    | error error =>
      have malformed : (LoopStage.decoding counts all).permits env name (.fetch loop)
          (.redis (.xack messageId)) := by
        cases loop <;>
          exact ⟨fields, within List.mem_cons_self, fun event h => by cases decoded.symm.trans h⟩
      refine wp_seq (R := fun r stage => (r.isOk = true → stage = .decoding counts all) ∧
          ∀ error, r = .error error → error.isQueueError = true) _
        (redisCommand_loops env name malformed ?_ ?_) ?_ ?_
      · exact fun _ => ⟨fun _ => rfl, fun _ same => by cases same⟩
      · exact fun _ => ⟨fun same => (by cases same), fun _ same => by cases same; rfl⟩
      · intro _ stage post
        rw [post.1 rfl]
        exact remaining
      · exact fun error _ post => post.2 error rfl
    | ok event =>
      refine wp_seq _ remaining ?_ fun _ _ h => h
      rintro others _ ⟨rfl, rfl⟩
      exact ⟨rfl, rfl⟩

theorem read_loops : loops env name (.fetch .consumer) (Queue.read env name) fetched .start := by
  refine wp_seq (R := fun r stage => match r with
    | .ok messages => stage = .decoding [] messages
    | .error error => error.isQueueError = true) _
    (redisCommand_loops env name ⟨rfl, rfl⟩ (fun _ => rfl) fun _ => rfl) ?_ fun _ _ h => h
  rintro messages _ rfl
  refine wp_mono _ ?_ (decodeMessages_loops env name [] messages messages (List.Subset.refl _))
  rintro (error | items) stage h
  · exact h
  · exact .inr ⟨_, _, h⟩

theorem claimStale_loops :
    loops env name (.fetch .recovery) (claimStale env name) fetched .start := by
  refine wp_seq (R := fun r stage => match r with
    | .ok pending => stage = .listed (pending.map fun entry => (entry.1, entry.2 + 1))
    | .error error => error.isQueueError = true) _
    (redisCommand_loops env name rfl (fun _ => rfl) fun _ => rfl) ?_ fun _ _ h => h
  rintro pending _ rfl
  cases pending with
  | nil => exact .inl rfl
  | cons entry rest =>
    refine wp_seq (R := fun r stage => match r with
      | .ok messages => stage = .decoding ((entry :: rest).map fun e => (e.1, e.2 + 1)) messages
      | .error error => error.isQueueError = true) _
      (redisCommand_loops env name ⟨rfl, rfl, rfl⟩ (fun _ => rfl) fun _ => rfl) ?_ fun _ _ h => h
    rintro messages _ rfl
    refine wp_mono _ ?_ (decodeMessages_loops env name _ messages messages (List.Subset.refl _))
    rintro (error | items) stage h
    · exact h
    · exact .inr ⟨_, _, h⟩

theorem popDueRetries_loops (limit : Nat) :
    loops env name .pop (popDueRetries limit) popped .start := by
  refine wp_tracking_then trivial (fun now _ => ?_) fun _ impossible => impossible.elim
  refine wp_seq (R := fun r stage => match r with
    | .ok raw => stage = .popped raw
    | .error error => stage = .failed ∧ error.isQueueError = true) _
    (redisCommand_loops env name rfl (fun _ => rfl) fun _ => ⟨rfl, rfl⟩) ?_ fun _ _ h => h
  rintro raw _ rfl
  exact ⟨raw, rfl, rfl⟩

theorem publish_loops (event : DocumentProcessingEvent) :
    loops env name (.publish event) (publish event) announced .start :=
  redisCommand_loops env name rfl (fun _ => rfl) fun _ => ⟨rfl, rfl⟩

end Loops
end DocumentPipeline

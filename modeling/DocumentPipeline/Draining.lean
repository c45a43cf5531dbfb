import DocumentPipeline.WorkerLoops
import DocumentPipeline.Lib.Logged
import Mathlib.Data.List.Perm.Subperm

/-! What a loop leaves behind when it returns. Whatever the queue has handed to
it has been passed to `process`, once and in order, and acknowledged unless
`process` raised; due retries have been published. The exceptions are a batch
dropped because the XACK of a malformed entry failed, and the events after a
failed publish. -/

namespace DocumentPipeline
open EffectProgram WorkerLoops

abbrev LoopLog := Log LoopOp LoopOp.Val Exn

namespace LoopLog

def collect {β : Type} (f : (o : LoopOp) → Except Exn o.Val → List β) (log : LoopLog) : List β :=
  log.flatMap fun entry => f entry.1 entry.2

@[simp] theorem collect_nil {β : Type} (f : (o : LoopOp) → Except Exn o.Val → List β) :
    collect f [] = [] := rfl

@[simp] theorem collect_cons {β : Type} (f : (o : LoopOp) → Except Exn o.Val → List β) (o : LoopOp)
    (reply : Except Exn o.Val) (log : LoopLog) :
    collect f (⟨o, reply⟩ :: log) = f o reply ++ collect f log := rfl

@[simp] theorem collect_append {β : Type} (f : (o : LoopOp) → Except Exn o.Val → List β)
    (log log' : LoopLog) : collect f (log ++ log') = collect f log ++ collect f log' :=
  List.flatMap_append

abbrev handed : LoopLog → List (Nat × StreamFields) := collect fun o reply => match o, reply with
  | .command (.redis (.xreadgroup _ _)), .ok messages => messages
  | .command (.redis (.xclaim _ _ _)), .ok messages => messages
  | _, _ => []

/-- The events passed to `process`, with the ids of their messages. -/
abbrev processed : LoopLog → List (Nat × DocumentProcessingEvent) :=
  collect fun o _ => match o with
    | .process delivered => [(delivered.messageId, delivered.event)]
    | _ => []

/-- The messages whose processing has returned an outcome. -/
abbrev settled : LoopLog → List Nat := collect fun o reply => match o, reply with
  | .process delivered, .ok _ => [delivered.messageId]
  | _, _ => []

abbrev acked : LoopLog → List Nat := collect fun o reply => match o, reply with
  | .command (.redis (.xack messageId)), .ok _ => [messageId]
  | _, _ => []

abbrev unacked : LoopLog → List Nat := collect fun o reply => match o, reply with
  | .command (.redis (.xack messageId)), .error _ => [messageId]
  | _, _ => []

abbrev popped : LoopLog → List DocumentProcessingEvent := collect fun o reply => match o, reply with
  | .command (.redis (.popDueRetries _ _)), .ok raw => Queue.decodeRetries raw
  | _, _ => []

abbrev published : LoopLog → List DocumentProcessingEvent :=
  collect fun o reply => match o, reply with
    | .command (.redis (.xadd ⟨some (.event event)⟩)), .ok _ => [event]
    | _, _ => []

abbrev unpublished : LoopLog → List StreamFields := collect fun o reply => match o, reply with
  | .command (.redis (.xadd fields)), .error _ => [fields]
  | _, _ => []

end LoopLog

def Queue.decodable (messages : List (Nat × StreamFields)) : List (Nat × DocumentProcessingEvent) :=
  messages.filterMap fun message => match Queue.decodeOne message.2 with
    | .ok event => some (message.1, event)
    | .error _ => none

def Queue.undecodable (messages : List (Nat × StreamFields)) : List Nat :=
  messages.filterMap fun message => match Queue.decodeOne message.2 with
    | .ok _ => none
    | .error _ => some message.1

/-- Nothing that was taken from the queue is still at hand. -/
structure Drained (log : LoopLog) : Prop where
  processed : log.processed.Sublist (Queue.decodable log.handed)
  acked : log.acked.Subperm (Queue.undecodable log.handed ++ log.settled)
  published : log.published.Sublist log.popped
  attended : log.unacked = [] → log.processed = Queue.decodable log.handed ∧
    (log.acked).Perm (Queue.undecodable log.handed ++ log.settled)
  republished : log.unpublished = [] → log.published = log.popped

structure Unhandled (log : LoopLog) : Prop where
  processed : log.processed = []
  settled : log.settled = []
  popped : log.popped = []
  published : log.published = []
  unpublished : log.unpublished = []

structure Fetched (batch : Option (List DeliveredEvent)) (log : LoopLog) : Prop
    extends Unhandled log where
  batch : match batch with
    | some batch => (batch.map fun delivered => (delivered.messageId, delivered.event)) =
        Queue.decodable log.handed ∧ log.acked = Queue.undecodable log.handed ∧ log.unacked = []
    | none => log.acked.Sublist (Queue.undecodable log.handed) ∧ (log.unacked = [] → log.handed = [])

/-- The log of a batch that has been handled. -/
structure Handled (batch : List DeliveredEvent) (log : LoopLog) : Prop where
  handed : log.handed = []
  processed : log.processed = batch.map fun delivered => (delivered.messageId, delivered.event)
  acked : log.acked = log.settled
  unacked : log.unacked = []
  popped : log.popped = []
  published : log.published = []
  unpublished : log.unpublished = []

section Logs
variable {a b log : LoopLog} {batch : List DeliveredEvent}

theorem Drained.nil : Drained [] :=
  ⟨List.Sublist.refl _, List.Subperm.refl _, List.Sublist.refl _, fun _ => ⟨rfl, List.Perm.refl _⟩,
    fun _ => rfl⟩

theorem Queue.decodable_append (messages rest : List (Nat × StreamFields)) :
    Queue.decodable (messages ++ rest) = Queue.decodable messages ++ Queue.decodable rest :=
  List.filterMap_append

theorem Queue.undecodable_append (messages rest : List (Nat × StreamFields)) :
    Queue.undecodable (messages ++ rest) = Queue.undecodable messages ++ Queue.undecodable rest :=
  List.filterMap_append

theorem perm_shuffle {β : Type} (a b c d : List β) : (a ++ b ++ (c ++ d)).Perm (a ++ c ++ (b ++ d)) := by
  rw [List.append_assoc, List.append_assoc]
  refine List.Perm.append_left a ?_
  rw [← List.append_assoc, ← List.append_assoc]
  exact List.Perm.append_right d List.perm_append_comm

theorem Drained.append (first : Drained a) (second : Drained b) : Drained (a ++ b) where
  processed := by
    simp only [LoopLog.collect_append, Queue.decodable_append]
    exact first.processed.append second.processed
  acked := by
    simp only [LoopLog.collect_append, Queue.undecodable_append]
    exact (first.acked.append second.acked).trans (perm_shuffle _ _ _ _).subperm
  published := by
    simp only [LoopLog.collect_append]
    exact first.published.append second.published
  attended unfailed := by
    simp only [LoopLog.collect_append, List.append_eq_nil_iff] at unfailed
    obtain ⟨processed, acked⟩ := first.attended unfailed.1
    obtain ⟨processed', acked'⟩ := second.attended unfailed.2
    simp only [LoopLog.collect_append, Queue.decodable_append, Queue.undecodable_append, processed,
      processed', true_and]
    exact (acked.append acked').trans (perm_shuffle _ _ _ _)
  republished unfailed := by
    simp only [LoopLog.collect_append, List.append_eq_nil_iff] at unfailed
    simp only [LoopLog.collect_append, first.republished unfailed.1, second.republished unfailed.2]

theorem Fetched.drained (fetched : Fetched none log) : Drained log where
  processed := by simp only [fetched.processed, List.nil_sublist]
  acked := by
    rw [fetched.settled, List.append_nil]
    exact fetched.batch.1.subperm
  published := by simp only [fetched.published, List.nil_sublist]
  attended unfailed := by
    have acked := fetched.batch.1
    rw [fetched.batch.2 unfailed] at acked ⊢
    rw [fetched.processed, fetched.settled, List.sublist_nil.mp acked]
    exact ⟨rfl, List.Perm.refl _⟩
  republished _ := by rw [fetched.published, fetched.popped]

theorem Fetched.handled (fetched : Fetched (some batch) a) (handled : Handled batch b) :
    Drained (a ++ b) := by
  obtain ⟨same, acked, unfailed⟩ := fetched.batch
  have processed : (a ++ b).processed = Queue.decodable (a ++ b).handed := by
    simp only [LoopLog.collect_append, fetched.processed, handled.processed, handled.handed,
      List.nil_append, List.append_nil, same]
  have acked : (a ++ b).acked = Queue.undecodable (a ++ b).handed ++ (a ++ b).settled := by
    simp only [LoopLog.collect_append, fetched.settled, handled.handed, handled.acked,
      List.nil_append, List.append_nil, acked]
  have published : (a ++ b).published = (a ++ b).popped := by
    simp only [LoopLog.collect_append, fetched.published, fetched.popped, handled.published,
      handled.popped]
  exact ⟨processed ▸ List.Sublist.refl _, acked ▸ List.Subperm.refl _,
    published ▸ List.Sublist.refl _, fun _ => ⟨processed, acked ▸ List.Perm.refl _⟩,
    fun _ => published⟩

theorem Unhandled.append (first : Unhandled a) (second : Unhandled b) : Unhandled (a ++ b) where
  processed := by simp only [LoopLog.collect_append, first.processed, second.processed, List.append_nil]
  settled := by simp only [LoopLog.collect_append, first.settled, second.settled, List.append_nil]
  popped := by simp only [LoopLog.collect_append, first.popped, second.popped, List.append_nil]
  published := by simp only [LoopLog.collect_append, first.published, second.published, List.append_nil]
  unpublished := by
    simp only [LoopLog.collect_append, first.unpublished, second.unpublished, List.append_nil]

theorem Handled.nil : Handled [] [] := ⟨rfl, rfl, rfl, rfl, rfl, rfl, rfl⟩

theorem Handled.append {delivered : DeliveredEvent} (first : Handled [delivered] a)
    (rest : Handled batch b) : Handled (delivered :: batch) (a ++ b) where
  handed := by simp only [LoopLog.collect_append, first.handed, rest.handed, List.append_nil]
  processed := by
    simp only [LoopLog.collect_append, first.processed, rest.processed, List.map_cons, List.map_nil,
      List.singleton_append]
  acked := by simp only [LoopLog.collect_append, first.acked, rest.acked]
  unacked := by simp only [LoopLog.collect_append, first.unacked, rest.unacked, List.append_nil]
  popped := by simp only [LoopLog.collect_append, first.popped, rest.popped, List.append_nil]
  published := by simp only [LoopLog.collect_append, first.published, rest.published, List.append_nil]
  unpublished := by
    simp only [LoopLog.collect_append, first.unpublished, rest.unpublished, List.append_nil]

end Logs

namespace WorkerLoops

abbrev logged {α : Type} (p : LoopProg α) (Q : Except Exn α → LoopLog → Prop) : Prop :=
  emits (fun o reply => o.credible reply = true) p Q

def commands (log : Log Op Op.Val Exn) : LoopLog := log.map fun entry => ⟨.command entry.1, entry.2⟩

@[simp] theorem commands_nil : commands [] = [] := rfl

@[simp] theorem commands_cons (o : Op) (reply : Except Exn o.Val) (log : Log Op Op.Val Exn) :
    commands (⟨o, reply⟩ :: log) = ⟨.command o, reply⟩ :: commands log := rfl

@[simp] theorem commands_append (log log' : Log Op Op.Val Exn) :
    commands (log ++ log') = commands log ++ commands log' := List.map_append

abbrev loggedQueue {α : Type} (p : Prog α) (Q : Except Exn α → Log Op Op.Val Exn → Prop) : Prop :=
  emits (fun o reply => LoopOp.credible (.command o) reply = true) p Q

theorem logged_queue {α : Type} {p : Prog α} {Q : Except Exn α → LoopLog → Prop}
    (h : loggedQueue p fun r log => Q r (commands log)) : logged (queue p) Q :=
  (emits_embed _ _ _ _).mpr h

/-- A Redis command under `except (RedisError, OSError)`. -/
theorem redisCommand_logs (o : RedisOp) (message : String) :
    loggedQueue (redisCommand o message) fun r log => match r with
      | .ok value => log = [⟨.redis o, .ok value⟩]
      | .error error => error.isQueueError = true ∧ ∃ fault, log = [⟨.redis o, .error fault⟩] := by
  refine (emits_tryCatch _ _ _ _).mpr ((emits_perform _ _ _).mpr fun reply likely => ?_)
  cases reply with
  | ok value => rfl
  | error error =>
    simp only [show error.isRedisFault = true from likely, if_true]
    exact ⟨rfl, error, rfl⟩

def acks (ids : List Nat) : Log Op Op.Val Exn := ids.map fun id => ⟨.redis (.xack id), .ok ()⟩

theorem decodeMessages_logs (messages : List (Nat × StreamFields)) (deliveryCounts : List (Nat × Nat)) :
    loggedQueue (Queue.decodeMessages messages deliveryCounts) fun r log => match r with
      | .ok batch => (batch.map fun delivered => (delivered.messageId, delivered.event)) =
          Queue.decodable messages ∧ log = acks (Queue.undecodable messages)
      | .error error => error.isQueueError = true ∧ ∃ done id rest fault,
          Queue.undecodable messages = done ++ id :: rest ∧
            log = acks done ++ [⟨.redis (.xack id), .error fault⟩] := by
  induction messages with
  | nil => exact ⟨rfl, rfl⟩
  | cons message rest ih =>
    obtain ⟨messageId, fields⟩ := message
    cases decoded : Queue.decodeOne fields with
    | ok event =>
      simp only [Queue.decodeMessages, decoded]
      have head : Queue.undecodable ((messageId, fields) :: rest) = Queue.undecodable rest := by
        simp [Queue.undecodable, decoded]
      refine emits_seq _ ih (fun batch log h => ?_) fun error log h => ?_
      · simp only [emits_pure, List.append_nil, head]
        refine ⟨?_, h.2⟩
        rw [List.map_cons, h.1]
        simp [Queue.decodable, decoded]
      · rw [head]
        exact h
    | error error =>
      simp only [Queue.decodeMessages, decoded]
      have head : Queue.undecodable ((messageId, fields) :: rest) =
          messageId :: Queue.undecodable rest := by
        simp [Queue.undecodable, decoded]
      have same : Queue.decodable ((messageId, fields) :: rest) = Queue.decodable rest := by
        simp [Queue.decodable, decoded]
      refine emits_seq _ (redisCommand_logs _ _) (fun _ log h => ?_) fun error log h => ?_
      · obtain rfl : log = _ := h
        refine emits_mono _ ih fun r log h => ?_
        rw [head, same]
        cases r with
        | ok batch => exact ⟨h.1, by rw [h.2]; rfl⟩
        | error error =>
          obtain ⟨queueError, done, id, later, fault, whole, rfl⟩ := h
          exact ⟨queueError, messageId :: done, id, later, fault, by rw [whole]; rfl, rfl⟩
      · obtain ⟨queueError, fault, rfl⟩ := h
        exact ⟨queueError, [], messageId, _, fault, head, rfl⟩

theorem collect_acks {β : Type} (f : (o : LoopOp) → Except Exn o.Val → List β) (ids : List Nat) :
    LoopLog.collect f (commands (acks ids)) =
      ids.flatMap fun id => f (.command (.redis (.xack id))) (.ok ()) := by
  induction ids with
  | nil => rfl
  | cons id ids ih => exact congrArg (f _ _ ++ ·) ih

@[simp] theorem acks_handed (ids : List Nat) : (commands (acks ids)).handed = [] := by
  simp [collect_acks]

@[simp] theorem acks_acked (ids : List Nat) : (commands (acks ids)).acked = ids := by
  simp [collect_acks]

@[simp] theorem acks_unacked (ids : List Nat) : (commands (acks ids)).unacked = [] := by
  simp [collect_acks]

theorem acks_unhandled (ids : List Nat) : Unhandled (commands (acks ids)) := by
  constructor <;> simp [collect_acks]

theorem fetched_of_handed (first : LoopLog) {messages : List (Nat × StreamFields)}
    (unhandled : Unhandled first) (handed : first.handed = messages) (unacked : first.unacked = [])
    (unasked : first.acked = []) (deliveryCounts : List (Nat × Nat)) :
    loggedQueue (Queue.decodeMessages messages deliveryCounts) fun r log =>
      (∀ error, r = .error error → error.isQueueError = true) ∧
        Fetched r.toOption (first ++ commands log) := by
  refine emits_mono _ (decodeMessages_logs messages deliveryCounts) fun r log h => ?_
  cases r with
  | ok batch =>
    obtain ⟨same, rfl⟩ := h
    refine ⟨fun _ impossible => (by cases impossible), ⟨unhandled.append (acks_unhandled _), ?_⟩⟩
    simp only [Except.toOption, LoopLog.collect_append, acks_handed, acks_acked, acks_unacked, handed,
      unasked, unacked, List.append_nil, List.nil_append, same, and_self]
  | error error =>
    obtain ⟨queueError, done, id, rest, fault, whole, rfl⟩ := h
    have refused : Unhandled [⟨.command (.redis (.xack id)), .error fault⟩] := ⟨rfl, rfl, rfl, rfl, rfl⟩
    rw [commands_append]
    refine ⟨fun _ same => Except.error.inj same ▸ queueError,
      ⟨unhandled.append ((acks_unhandled done).append refused), ?_, ?_⟩⟩
    · simp only [LoopLog.collect_append, acks_handed, acks_acked, handed, unasked, commands_cons,
        LoopLog.collect_cons, commands_nil, LoopLog.collect_nil, List.append_nil, List.nil_append, whole]
      exact List.sublist_append_left done _
    · intro unfailed
      simp at unfailed

/-- A fetch raises `QueueError` only, and leaves its batch at hand. -/
abbrev Fetches (p : Prog (List DeliveredEvent)) : Prop :=
  loggedQueue p fun r log =>
    (∀ error, r = .error error → error.isQueueError = true) ∧ Fetched r.toOption (commands log)

theorem fetched_refused (o : RedisOp) (error : Exn) {fault : Exn} (queueError : error.isQueueError = true)
    (ask : ∀ id, o ≠ .xack id) (add : ∀ fields, o ≠ .xadd fields) :
    (∀ other, (.error error : Except Exn (List DeliveredEvent)) = .error other →
      other.isQueueError = true) ∧
    Fetched none (commands [⟨.redis o, .error fault⟩]) := by
  refine ⟨fun _ same => Except.error.inj same ▸ queueError, ?_⟩
  cases o with
  | xack id => exact absurd rfl (ask id)
  | xadd fields => exact absurd rfl (add fields)
  | _ => exact ⟨⟨rfl, rfl, rfl, rfl, rfl⟩, List.Sublist.refl _, fun _ => rfl⟩

theorem read_fetches (env : Env) (consumerName : String) : Fetches (Queue.read env consumerName) := by
  refine emits_seq _ (redisCommand_logs _ _) (fun messages log h => ?_) fun error log h => ?_
  · obtain rfl : log = _ := h
    exact fetched_of_handed
      (commands [⟨.redis (.xreadgroup consumerName env.settings.redisReadCount), .ok messages⟩])
      ⟨rfl, rfl, rfl, rfl, rfl⟩ (List.append_nil messages) rfl rfl []
  · obtain ⟨queueError, fault, rfl⟩ := h
    exact fetched_refused _ error queueError (fun _ => nofun) fun _ => nofun

theorem claimStale_fetches (env : Env) (consumerName : String) :
    Fetches (Queue.claimStale env consumerName) := by
  refine emits_seq _ (redisCommand_logs _ _) (fun pending log h => ?_) fun error log h => ?_
  · obtain rfl : log = _ := h
    cases pending with
    | nil =>
      exact ⟨fun _ impossible => (by cases impossible), ⟨rfl, rfl, rfl, rfl, rfl⟩, rfl, rfl, rfl⟩
    | cons entry rest =>
      refine emits_seq _ (redisCommand_logs _ _) (fun messages log h => ?_) fun error log h => ?_
      · obtain rfl : log = _ := h
        exact fetched_of_handed
          (commands [⟨.redis (.xpendingRange env.settings.redisReadCount
            env.settings.pendingMinIdleMs), .ok (entry :: rest)⟩,
            ⟨.redis (.xclaim consumerName env.settings.pendingMinIdleMs _), .ok messages⟩])
          ⟨rfl, rfl, rfl, rfl, rfl⟩ (List.append_nil messages) rfl rfl _
      · obtain ⟨queueError, fault, rfl⟩ := h
        refine ⟨fun _ same => Except.error.inj same ▸ queueError, ⟨rfl, rfl, rfl, rfl, rfl⟩, ?_⟩
        exact ⟨List.Sublist.refl _, fun _ => rfl⟩
  · obtain ⟨queueError, fault, rfl⟩ := h
    exact fetched_refused _ error queueError (fun _ => nofun) fun _ => nofun

theorem handle_logs (delivered : DeliveredEvent) :
    logged (handle delivered) fun r log => r.isOk = true → Handled [delivered] log := by
  refine (emits_bind _ _ _ _).mpr ((emits_tryCatch _ _ _ _).mpr ((emits_bind _ _ _ _).mpr
    ((emits_perform _ _ _).mpr fun reply _ => ?_)))
  cases reply with
  | error error => exact fun _ => ⟨rfl, rfl, rfl, rfl, rfl, rfl, rfl⟩
  | ok outcome =>
    refine (emits_bind _ _ _ _).mpr (logged_queue (emits_mono _ (redisCommand_logs _ _) fun r log h => ?_))
    cases r with
    | error error => exact nofun
    | ok _ =>
      obtain rfl : log = _ := h
      exact fun _ => ⟨rfl, rfl, rfl, rfl, rfl, rfl, rfl⟩

theorem handleAll_logs (batch : List DeliveredEvent) :
    logged (handleAll batch) fun r log => r.isOk = true → Handled batch log := by
  induction batch with
  | nil => exact fun _ => .nil
  | cons delivered rest ih =>
    refine emits_seq _ (handle_logs delivered) (fun _ log first => ?_) fun _ _ _ => nofun
    exact emits_mono _ ih fun r log' later ok => (first rfl).append (later ok)

abbrev Drains {α : Type} (p : LoopProg α) : Prop := logged p fun r log => r.isOk = true → Drained log

theorem Drains.bind {α β : Type} {p : LoopProg α} {f : α → LoopProg β} (first : Drains p)
    (then_ : ∀ value, Drains (f value)) : Drains (p >>= f) :=
  emits_seq _ first (fun value _ drained => emits_mono _ (then_ value) fun _ _ later ok =>
    (drained rfl).append (later ok)) fun _ _ _ => nofun

theorem drains_shutdownIsSet : Drains shutdownIsSet :=
  (emits_perform _ _ _).mpr fun _ _ _ => ⟨List.Sublist.refl _, List.Subperm.refl _,
    List.Sublist.refl _, fun _ => ⟨rfl, List.Perm.refl _⟩, fun _ => rfl⟩

theorem drains_sleepOrStop (seconds : ℚ) : Drains (sleepOrStop seconds) :=
  (emits_perform _ _ _).mpr fun _ _ _ => ⟨List.Sublist.refl _, List.Subperm.refl _,
    List.Sublist.refl _, fun _ => ⟨rfl, List.Perm.refl _⟩, fun _ => rfl⟩

/-- `if shutdown.is_set(): return` in front of the rest of a loop. -/
theorem drains_unlessStopped {rest : LoopProg Progress} (onward : Drains rest) :
    Drains (do if ← shutdownIsSet then return .returned else rest) := by
  refine drains_shutdownIsSet.bind fun set => ?_
  cases set with
  | true => exact fun _ => .nil
  | false => exact onward

theorem drains_pass {p : Prog (List DeliveredEvent)} (fetches : Fetches p)
    {failed again : LoopProg Progress} (afterFailure : Drains failed) (onward : Drains again) :
    Drains (do
      match ← unlessQueueError (queue p) with
      | none => failed
      | some delivered => do
        handleAll delivered
        again) := by
  have caught : logged (unlessQueueError (queue p)) fun r log => match r with
      | .ok batch => Fetched batch log
      | .error _ => False := by
    refine (emits_tryCatch _ _ _ _).mpr ((emits_bind _ _ _ _).mpr
      (logged_queue (emits_mono _ fetches fun r log h => ?_)))
    cases r with
    | ok batch => simpa [Except.toOption] using h.2
    | error error => simpa [h.1 error rfl, Except.toOption] using h.2
  refine emits_seq _ caught (fun batch log fetched => ?_) fun _ _ impossible => impossible.elim
  cases batch with
  | none =>
    exact emits_mono _ afterFailure fun _ _ later ok => fetched.drained.append (later ok)
  | some delivered =>
    refine emits_seq _ (handleAll_logs delivered) (fun _ log' handled => ?_) fun _ _ _ => nofun
    refine emits_mono _ onward fun _ _ later ok => ?_
    rw [← List.append_assoc]
    exact (fetched.handled (handled rfl)).append (later ok)

theorem drains_consume (env : Env) (consumerName : String) (passes : Nat) :
    Drains (consume env consumerName passes) := by
  induction passes with
  | zero => exact fun _ => .nil
  | succ passes ih =>
    refine drains_unlessStopped (drains_pass (read_fetches env consumerName) ?_ ih)
    exact (drains_sleepOrStop _).bind fun _ => ih

theorem drains_runPendingRecovery (env : Env) (settings : SweepSettings) (consumerName : String)
    (passes : Nat) : Drains (runPendingRecovery env settings consumerName passes) := by
  induction passes with
  | zero => exact fun _ => .nil
  | succ passes ih =>
    refine drains_unlessStopped ((drains_sleepOrStop _).bind fun _ => ?_)
    exact drains_unlessStopped (drains_pass (claimStale_fetches env consumerName) ih ih)

structure Swept (log : LoopLog) : Prop where
  handed : log.handed = []
  processed : log.processed = []
  settled : log.settled = []
  acked : log.acked = []

theorem Swept.drained {log : LoopLog} (swept : Swept log)
    (published : log.published.Sublist log.popped)
    (republished : log.unpublished = [] → log.published = log.popped) : Drained log where
  processed := by rw [swept.processed, swept.handed]; exact List.Sublist.refl _
  acked := by rw [swept.acked]; exact List.nil_subperm
  published := published
  attended _ := by
    rw [swept.processed, swept.handed, swept.acked, swept.settled]
    exact ⟨rfl, List.Perm.refl _⟩
  republished := republished

theorem publishAll_logs (events : List DocumentProcessingEvent) :
    logged (publishAll events) fun r log => Swept log ∧ log.popped = [] ∧ match r with
      | .ok _ => log.published = events
      | .error error => error.isQueueError = true ∧ log.published.Sublist events ∧
          log.unpublished ≠ [] := by
  induction events with
  | nil => exact ⟨⟨rfl, rfl, rfl, rfl⟩, rfl, rfl⟩
  | cons event rest ih =>
    refine (emits_bind _ _ _ _).mpr (logged_queue (emits_mono _ (redisCommand_logs _ _) fun r log h => ?_))
    cases r with
    | error error =>
      obtain ⟨queueError, fault, rfl⟩ := h
      exact ⟨⟨rfl, rfl, rfl, rfl⟩, rfl, queueError, List.nil_sublist _, nofun⟩
    | ok id =>
      obtain rfl : log = _ := h
      refine emits_mono _ ih fun r log ⟨swept, unpopped, how⟩ => ⟨⟨swept.handed, swept.processed,
        swept.settled, swept.acked⟩, unpopped, ?_⟩
      cases r with
      | ok _ => exact congrArg (event :: ·) how
      | error error => exact ⟨how.1, how.2.1.cons_cons event, how.2.2⟩

theorem popDueRetries_logs (limit : Nat) :
    loggedQueue (Queue.popDueRetries limit) fun r log => ∃ now, match r with
      | .ok due => ∃ raw, due = Queue.decodeRetries raw ∧ log = [⟨.runtime .utcnow, .ok now⟩,
          ⟨.redis (.popDueRetries now.timestamp limit), .ok raw⟩]
      | .error error => error.isQueueError = true ∧ ∃ fault, log = [⟨.runtime .utcnow, .ok now⟩,
          ⟨.redis (.popDueRetries now.timestamp limit), .error fault⟩] := by
  refine (emits_bind _ _ _ _).mpr ((emits_perform _ _ _).mpr fun clock likely => ?_)
  cases clock with
  | error error => cases likely
  | ok now =>
    refine emits_seq _ (redisCommand_logs _ _) (fun raw log h => ?_) fun error log h => ?_
    · obtain rfl : log = _ := h
      exact ⟨now, raw, rfl, rfl⟩
    · obtain ⟨queueError, fault, rfl⟩ := h
      exact ⟨now, queueError, fault, rfl⟩

theorem drains_sweep (limit : Nat) : logged (unlessQueueError do
      let due ← queue (Queue.popDueRetries limit)
      publishAll due) fun _ log => Drained log := by
  have sweep : logged (do
      let due ← queue (Queue.popDueRetries limit)
      publishAll due) fun r log => Drained log ∧ ∀ error, r = .error error → error.isQueueError = true := by
    refine (emits_bind _ _ _ _).mpr (logged_queue (emits_mono _ (popDueRetries_logs limit) ?_))
    rintro (error | due) log ⟨now, how⟩
    · obtain ⟨queueError, fault, rfl⟩ := how
      refine ⟨Swept.drained ⟨rfl, rfl, rfl, rfl⟩ (List.Sublist.refl _) fun _ => rfl, fun _ same => ?_⟩
      exact Except.error.inj same ▸ queueError
    · obtain ⟨raw, rfl, rfl⟩ := how
      refine emits_mono _ (publishAll_logs (Queue.decodeRetries raw)) fun r log h => ?_
      obtain ⟨swept, unpopped, how⟩ := h
      have popped : LoopLog.popped (commands [⟨.runtime .utcnow, .ok now⟩,
          ⟨.redis (.popDueRetries now.timestamp limit), .ok raw⟩] ++ log) = Queue.decodeRetries raw := by
        simp [unpopped]
      have all : Swept (commands [⟨.runtime .utcnow, .ok now⟩,
          ⟨.redis (.popDueRetries now.timestamp limit), .ok raw⟩] ++ log) :=
        ⟨swept.handed, swept.processed, swept.settled, swept.acked⟩
      cases r with
      | ok _ =>
        have same := how.trans popped.symm
        exact ⟨all.drained (same ▸ List.Sublist.refl _) fun _ => same, fun _ => nofun⟩
      | error error =>
        obtain ⟨queueError, some_, missing⟩ := how
        refine ⟨all.drained (popped ▸ some_) fun none_ => absurd none_ missing, fun _ same => ?_⟩
        exact Except.error.inj same ▸ queueError
  refine (emits_tryCatch _ _ _ _).mpr ((emits_bind _ _ _ _).mpr (emits_mono _ sweep fun r log h => ?_))
  cases r with
  | ok _ => simpa using h.1
  | error error => simpa [h.2 error rfl] using h.1

theorem drains_runRetryScheduler (env : Env) (settings : SweepSettings) (passes : Nat) :
    Drains (runRetryScheduler env settings passes) := by
  induction passes with
  | zero => exact fun _ => .nil
  | succ passes ih =>
    refine drains_unlessStopped ((drains_sleepOrStop _).bind fun _ => drains_unlessStopped ?_)
    exact Drains.bind (emits_mono _ (drains_sweep env.retryBatch) fun _ _ drained _ => drained) fun _ => ih

theorem drains_task (env : Env) (settings : SweepSettings) (consumerName : String) (passes : Nat)
    (loop : Loop) : Drains (task env settings consumerName passes loop) := by
  cases loop with
  | consumer => exact drains_consume env consumerName passes
  | recovery => exact drains_runPendingRecovery env settings consumerName passes
  | scheduler => exact drains_runRetryScheduler env settings passes

end WorkerLoops

end DocumentPipeline

import DocumentPipeline.System

/-! The three loops of a worker and the task group that runs them. A loop is a
program over the stop event, its sleeps, `DocumentProcessor.process` and the
queue's commands; its `while` is unrolled to any depth. The group cancels the
remaining tasks as soon as one of them raises. -/

namespace DocumentPipeline
open EffectProgram

inductive LoopOp
  | shutdownIsSet
  | sleepOrStop (seconds : ℚ)
  | process (delivered : DeliveredEvent)
  | command (o : Op)

@[reducible] def LoopOp.Val : LoopOp → Type
  | .shutdownIsSet => Bool
  | .sleepOrStop _ => Unit
  | .process _ => ProcessingOutcome
  | .command o => o.Val

abbrev LoopProg (α : Type) := Program LoopOp LoopOp.Val Exn α

structure SweepSettings where
  pendingSweepIntervalSeconds : ℚ := 30
  retrySweepIntervalSeconds : ℚ := 1

/-- How a loop was left: by its `return`, or where the unrolling ends. -/
inductive Progress
  | returned | unfinished
  deriving DecidableEq

namespace WorkerLoops

abbrev shutdownIsSet : LoopProg Bool := Program.perform LoopOp.shutdownIsSet

abbrev sleepOrStop (seconds : ℚ) : LoopProg Unit := Program.perform (LoopOp.sleepOrStop seconds)

def queue {α : Type} (p : Prog α) : LoopProg α := p.embed LoopOp.command

/-- `except QueueError`: the loop goes on without the value. -/
def unlessQueueError {α : Type} (p : LoopProg α) : LoopProg (Option α) :=
  tryCatch (do
    let value ← p
    return some value) fun error =>
    if error.isQueueError then return none else throw error

/-- `StreamConsumer.handle`. -/
def handle (delivered : DeliveredEvent) : LoopProg (Option ProcessingOutcome) := do
  let outcome ← tryCatch (do
      let outcome ← Program.perform (LoopOp.process delivered)
      return some outcome) fun _ => return none
  match outcome with
  | none => return none
  | some outcome => do
    queue (Queue.ack delivered.messageId)
    return some outcome

/-- The loops' `process` call, carried out by the processor. -/
def carryOut (env : Env) (consumerName : String) : (o : LoopOp) → LoopProg o.Val
  | .process delivered => queue (Processor.process env consumerName delivered)
  | o => Program.perform o

/-- What `handle` does once `process` has returned or raised. -/
def acknowledge (delivered : DeliveredEvent) :
    Option ProcessingOutcome → Prog (Option ProcessingOutcome)
  | none => .ret none
  | some outcome => (Queue.ack delivered.messageId).bind fun _ => .ret (some outcome)

/-- Handling an event here is handling it in the pipeline, with the processor's
own calls in place of the call to `process`. -/
theorem handle_carriedOut (env : Env) (consumerName : String) (delivered : DeliveredEvent) :
    (handle delivered).interpret (carryOut env consumerName) =
      queue (Processor.handle env consumerName delivered) := by
  let finish := acknowledge delivered
  have carried : ∀ p : Prog (Option ProcessingOutcome),
      (queue p).interpret (carryOut env consumerName) = queue p := fun p => by
    rw [queue, Program.interpret_embed]
    exact fun _ => rfl
  have process : queue (Processor.process env consumerName delivered).attempt =
      (queue (Processor.process env consumerName delivered)).attempt := Program.embed_attempt _
  have settled : ∀ (p : Prog (Except Exn ProcessingOutcome)),
      queue (p.bind fun reply => finish reply.toOption) =
        (queue p).bind fun reply => queue (finish reply.toOption) := fun p => by
    rw [queue, Program.embed_bind]
    rfl
  have acked : ∀ outcome, queue (finish (some outcome)) =
      (queue (Queue.ack delivered.messageId)).bind fun _ => .ret (some outcome) := fun outcome =>
    Program.embed_bind _ _
  calc (handle delivered).interpret (carryOut env consumerName)
    _ = (queue (Processor.process env consumerName delivered)).attempt.bind
          fun reply => queue (finish reply.toOption) := by
        refine congrArg (Program.bind _) (funext fun reply => ?_)
        cases reply with
        | error error => rfl
        | ok outcome => exact (congrArg _ (acked outcome).symm).trans (carried _)
    _ = queue ((Processor.process env consumerName delivered).attempt.bind
          fun reply => finish reply.toOption) := by
        rw [settled, process]
    _ = queue (Processor.handle env consumerName delivered) :=
        congrArg queue (Program.tryCatch_bind_eq_attempt _ finish).symm

def handleAll : List DeliveredEvent → LoopProg Unit
  | [] => return ()
  | delivered :: rest => do
    let _ ← handle delivered
    handleAll rest

def errorBackoffSeconds : ℚ := 2

/-- `StreamConsumer.run`. -/
def consume (env : Env) (consumerName : String) : Nat → LoopProg Progress
  | 0 => return .unfinished
  | passes + 1 => do
    if ← shutdownIsSet then return .returned
    match ← unlessQueueError (queue (Queue.read env consumerName)) with
    | none => do
      sleepOrStop errorBackoffSeconds
      consume env consumerName passes
    | some delivered => do
      handleAll delivered
      consume env consumerName passes

def runPendingRecovery (env : Env) (settings : SweepSettings) (consumerName : String) :
    Nat → LoopProg Progress
  | 0 => return .unfinished
  | passes + 1 => do
    if ← shutdownIsSet then return .returned
    sleepOrStop settings.pendingSweepIntervalSeconds
    if ← shutdownIsSet then return .returned
    match ← unlessQueueError (queue (Queue.claimStale env consumerName)) with
    | none => runPendingRecovery env settings consumerName passes
    | some stale => do
      handleAll stale
      runPendingRecovery env settings consumerName passes

def publishAll : List DocumentProcessingEvent → LoopProg Unit
  | [] => return ()
  | event :: rest => do
    let _ ← queue (Queue.publish event)
    publishAll rest

def runRetryScheduler (env : Env) (settings : SweepSettings) : Nat → LoopProg Progress
  | 0 => return .unfinished
  | passes + 1 => do
    if ← shutdownIsSet then return .returned
    sleepOrStop settings.retrySweepIntervalSeconds
    if ← shutdownIsSet then return .returned
    let _ ← unlessQueueError do
      let due ← queue (Queue.popDueRetries env.retryBatch)
      publishAll due
    runRetryScheduler env settings passes

def task (env : Env) (settings : SweepSettings) (consumerName : String) (passes : Nat) :
    Loop → LoopProg Progress
  | .consumer => consume env consumerName passes
  | .recovery => runPendingRecovery env settings consumerName passes
  | .scheduler => runRetryScheduler env settings passes

end WorkerLoops

/-- What a loop's calls have shown so far: the event that `process` has just
returned an outcome for, whether a final XACK has failed, and whether the last
look at the stop event found it set. -/
structure Ledger where
  settled : Option DeliveredEvent := none
  ackFailed : Bool := false
  stopSeen : Bool := false

namespace Ledger

def note (l : Ledger) : (o : LoopOp) → Except Exn o.Val → Ledger
  | .process delivered, .ok _ => { l with settled := some delivered }
  | .shutdownIsSet, .ok set => { l with stopSeen := set }
  | .command (.redis (.xack _)), reply =>
    { l with settled := none
             ackFailed := l.ackFailed || l.settled.isSome && (reply matches .error _) }
  | _, _ => l

end Ledger

/-- The replies a loop can get: Redis commands fail with `RedisError` or
`OSError`, `process` with any exception, and the rest does not fail. -/
def LoopOp.credible : (o : LoopOp) → Except Exn o.Val → Bool
  | .process _, _ => true
  | .command (.redis _), .error error => error.isRedisFault
  | _, .ok _ => true
  | _, .error _ => false

/-- One worker process inside its task group. -/
structure Worker where
  shutdown : Bool := false
  task : Loop → LoopProg Progress
  cancelled : Loop → Bool := fun _ => false
  ledger : Loop → Ledger := fun _ => {}

inductive WorkerLabel
  | signal
  | answer (loop : Loop) (reply : (o : LoopOp) → Except Exn o.Val)

namespace Worker

def running (w : Worker) (loop : Loop) : Bool :=
  w.task loop matches .call _ _

/-- Replies about the stop event are the event's own. -/
def replyTo (w : Worker) (reply : (o : LoopOp) → Except Exn o.Val) : (o : LoopOp) → Except Exn o.Val
  | .shutdownIsSet => .ok w.shutdown
  | o => reply o

/-- A task that raises makes the group cancel those that still run. -/
def settle (w : Worker) (loop : Loop) : Worker :=
  match w.task loop with
  | .raise _ => { w with cancelled := fun other => w.cancelled other || w.running other }
  | _ => w

def step (w : Worker) : WorkerLabel → Option Worker
  | .signal => some { w with shutdown := true }
  | .answer loop reply =>
    match w.task loop with
    | .call o next =>
      let answer := w.replyTo reply o
      if !w.cancelled loop && o.credible answer then
        some (settle { w with
          task := Function.update w.task loop (next answer)
          ledger := Function.update w.ledger loop ((w.ledger loop).note o answer) } loop)
      else none
    | _ => none

def start (env : Env) (settings : SweepSettings) (consumerName : String) (passes : Nat) : Worker where
  task := WorkerLoops.task env settings consumerName passes

end Worker

/-- What the loops may assume and guarantee: no call is issued after a final
XACK has failed. -/
def ledgerProtocol : Protocol LoopOp LoopOp.Val Exn Ledger :=
  .tracking (fun l _ => l.ackFailed = false) (fun o reply => o.credible reply = true) Ledger.note

def Ledger.Calm (l : Ledger) : Prop := l.settled = none ∧ l.ackFailed = false

namespace WorkerLoops

/-- A program that runs between events: it keeps the ledger, and it fails with
`QueueError` only. -/
def Quiet {O : Type} {V : O → Type} {α : Type} (P : Protocol O V Exn Ledger)
    (p : Program O V Exn α) : Prop :=
  ∀ l : Ledger, l.Calm → wp P p (fun r l' => l' = l ∧
    ∀ error, r = .error error → error.isQueueError = true) l

section Quiet
variable {O : Type} {V : O → Type} {α β : Type} {P : Protocol O V Exn Ledger}

theorem Quiet.ret (value : α) : Quiet P (.ret value) := fun _ _ => ⟨rfl, nofun⟩

theorem Quiet.bind {p : Program O V Exn α} {f : α → Program O V Exn β} (first : Quiet P p)
    (then_ : ∀ value, Quiet P (f value)) : Quiet P (p >>= f) := by
  intro l calm
  refine wp_seq _ (first l calm) ?_ ?_
  · rintro value _ ⟨rfl, -⟩
    exact then_ value _ calm
  · rintro error _ ⟨rfl, queueError⟩
    exact ⟨rfl, fun _ same => queueError _ (Except.error.inj same ▸ rfl)⟩

end Quiet

abbrev commandProtocol : Protocol Op Op.Val Exn Ledger := ledgerProtocol.along LoopOp.command

theorem Quiet.queue {α : Type} {p : Prog α} (quiet : Quiet commandProtocol p) :
    Quiet ledgerProtocol (queue p) :=
  fun l calm => (wp_embed _ _ _ _ _).mpr (quiet l calm)

theorem quiet_utcnow : Quiet commandProtocol utcnow := by
  intro l calm
  refine (wp_perform _ _ _ _).mpr ⟨calm.2, ?_⟩
  rintro (error | now) _ ⟨likely, rfl⟩
  · cases likely
  · exact ⟨rfl, nofun⟩

/-- A Redis command under `except (RedisError, OSError)`. -/
theorem redisCommand_wp (o : RedisOp) (message : String) {l : Ledger} (unfailed : l.ackFailed = false) :
    wp commandProtocol (redisCommand o message)
      (fun r l' => ∃ reply, l' = l.note (.command (.redis o)) reply ∧ match r with
        | .ok _ => ∃ value, reply = .ok value
        | .error error => error.isQueueError = true ∧ ∃ error, reply = .error error) l := by
  refine (wp_tryCatch _ _ _ _ _).mpr ((wp_perform _ _ _ _).mpr ⟨unfailed, ?_⟩)
  rintro (error | value) _ ⟨likely, rfl⟩
  · simp only [show error.isRedisFault = true from likely, if_true]
    exact ⟨_, rfl, rfl, error, rfl⟩
  · exact ⟨_, rfl, value, rfl⟩

theorem note_calm {l : Ledger} (calm : l.Calm) (o : RedisOp)
    (reply : Except Exn (LoopOp.Val (.command (.redis o)))) :
    l.note (.command (.redis o)) reply = l := by
  obtain ⟨settled, ackFailed, stopSeen⟩ := l
  obtain ⟨rfl, rfl⟩ := calm
  cases o <;> rfl

theorem quiet_redisCommand (o : RedisOp) (message : String) :
    Quiet commandProtocol (redisCommand o message) := by
  intro l calm
  refine wp_mono _ ?_ (redisCommand_wp o message calm.2)
  rintro (error | value) _ ⟨reply, rfl, outcome⟩
  · refine ⟨note_calm calm o reply, ?_⟩
    rintro _ ⟨⟩
    exact outcome.1
  · exact ⟨note_calm calm o reply, nofun⟩

theorem quiet_decodeMessages (messages : List (Nat × StreamFields))
    (deliveryCounts : List (Nat × Nat)) :
    Quiet commandProtocol (Queue.decodeMessages messages deliveryCounts) := by
  induction messages with
  | nil => exact Quiet.ret _
  | cons message rest ih =>
    simp only [Queue.decodeMessages]
    split
    · exact (quiet_redisCommand _ _).bind fun _ => ih
    · exact ih.bind fun _ => Quiet.ret _

theorem quiet_read (env : Env) (consumerName : String) :
    Quiet commandProtocol (Queue.read env consumerName) :=
  (quiet_redisCommand _ _).bind fun _ => quiet_decodeMessages _ _

theorem quiet_claimStale (env : Env) (consumerName : String) :
    Quiet commandProtocol (Queue.claimStale env consumerName) := by
  refine (quiet_redisCommand _ _).bind fun pending => ?_
  cases pending with
  | nil => exact Quiet.ret _
  | cons entry rest => exact (quiet_redisCommand _ _).bind fun _ => quiet_decodeMessages _ _

theorem quiet_popDueRetries (limit : Nat) :
    Quiet commandProtocol (Queue.popDueRetries limit) :=
  quiet_utcnow.bind fun _ => (quiet_redisCommand _ _).bind fun _ => Quiet.ret _

/-- What a part of a loop leaves behind: it raises exactly after a failed final
XACK. -/
abbrev Survives {α : Type} (p : LoopProg α) (after : α → Ledger → Prop) (l : Ledger) : Prop :=
  wp ledgerProtocol p (fun r l' => match r with
    | .ok value => l'.ackFailed = false ∧ after value l'
    | .error _ => l'.ackFailed = true) l

theorem Survives.bind {α β : Type} {p : LoopProg α} {f : α → LoopProg β}
    {middle : α → Ledger → Prop} {after : β → Ledger → Prop} {l : Ledger}
    (first : Survives p middle l)
    (then_ : ∀ value l', l'.ackFailed = false → middle value l' → Survives (f value) after l') :
    Survives (p >>= f) after l :=
  wp_seq _ first (fun value l' h => then_ value l' h.1 h.2) fun _ _ h => h

theorem survives_unlessQueueError {α : Type} {p : LoopProg α} (quiet : Quiet ledgerProtocol p)
    {l : Ledger} (calm : l.Calm) : Survives (unlessQueueError p) (fun _ l' => l' = l) l := by
  refine (wp_tryCatch _ _ _ _ _).mpr ((wp_bind _ _ _ _ _).mpr ?_)
  refine wp_mono _ ?_ (quiet l calm)
  rintro (error | value) _ ⟨rfl, queueError⟩
  · simp only [queueError error rfl, if_true]
    exact ⟨calm.2, rfl⟩
  · exact ⟨calm.2, rfl⟩

theorem survives_shutdownIsSet {l : Ledger} (unfailed : l.ackFailed = false) :
    Survives shutdownIsSet (fun set l' => l' = { l with stopSeen := set }) l := by
  refine (wp_perform _ _ _ _).mpr ⟨unfailed, ?_⟩
  rintro (error | set) _ ⟨likely, rfl⟩
  · cases likely
  · exact ⟨unfailed, rfl⟩

theorem survives_sleepOrStop (seconds : ℚ) {l : Ledger} (unfailed : l.ackFailed = false) :
    Survives (sleepOrStop seconds) (fun _ l' => l' = l) l := by
  refine (wp_perform _ _ _ _).mpr ⟨unfailed, ?_⟩
  rintro (error | done) _ ⟨likely, rfl⟩
  · cases likely
  · exact ⟨unfailed, rfl⟩

/-- An event's handling raises exactly when its final XACK fails, whatever
`process` did. -/
theorem survives_handle (delivered : DeliveredEvent) {l : Ledger} (calm : l.Calm) :
    Survives (handle delivered) (fun _ l' => l'.Calm) l := by
  refine (wp_bind _ _ _ _ _).mpr ((wp_tryCatch _ _ _ _ _).mpr ((wp_bind _ _ _ _ _).mpr
    ((wp_perform _ _ _ _).mpr ⟨calm.2, ?_⟩)))
  rintro (error | outcome) _ ⟨-, rfl⟩
  · exact ⟨calm.2, calm⟩
  · refine (wp_bind _ _ _ _ _).mpr ((wp_embed _ _ _ _ _).mpr ?_)
    refine wp_mono _ ?_ (redisCommand_wp _ _ calm.2)
    rintro (error | done) _ ⟨reply, rfl, how⟩
    · obtain ⟨-, error, rfl⟩ := how
      simp [Ledger.note]
    · obtain ⟨value, rfl⟩ := how
      simp [Ledger.note, Ledger.Calm, calm.2]

theorem survives_handleAll (batch : List DeliveredEvent) {l : Ledger} (calm : l.Calm) :
    Survives (handleAll batch) (fun _ l' => l'.Calm) l := by
  induction batch generalizing l with
  | nil => exact ⟨calm.2, calm⟩
  | cons delivered rest ih =>
    exact (survives_handle delivered calm).bind fun _ _ _ calm' => ih calm'

theorem quiet_publishAll (events : List DocumentProcessingEvent) :
    Quiet ledgerProtocol (publishAll events) := by
  induction events with
  | nil => exact Quiet.ret _
  | cons event rest ih => exact (quiet_redisCommand _ _).queue.bind fun _ => ih

def StopSeen (progress : Progress) (l : Ledger) : Prop :=
  progress = .returned → l.stopSeen = true

/-- `if shutdown.is_set(): return` in front of the rest of a loop. -/
theorem survives_unlessStopped {rest : LoopProg Progress} {l : Ledger} (calm : l.Calm)
    (onward : ∀ l' : Ledger, l'.Calm → Survives rest StopSeen l') :
    Survives (do if ← shutdownIsSet then return .returned else rest) StopSeen l := by
  refine (survives_shutdownIsSet calm.2).bind ?_
  rintro set _ unfailed rfl
  cases set with
  | true => exact ⟨calm.2, fun _ => rfl⟩
  | false => exact onward _ ⟨calm.1, calm.2⟩

theorem survives_pass {p : Prog (List DeliveredEvent)} (quiet : Quiet commandProtocol p)
    {failed again : LoopProg Progress} {l : Ledger} (calm : l.Calm)
    (afterFailure : ∀ l' : Ledger, l'.Calm → Survives failed StopSeen l')
    (onward : ∀ l' : Ledger, l'.Calm → Survives again StopSeen l') :
    Survives (do
      match ← unlessQueueError (queue p) with
      | none => failed
      | some delivered => do
        handleAll delivered
        again) StopSeen l := by
  refine (survives_unlessQueueError quiet.queue calm).bind ?_
  rintro batch _ - rfl
  cases batch with
  | none => exact afterFailure _ calm
  | some delivered =>
    exact (survives_handleAll delivered calm).bind fun _ l' _ calm' => onward l' calm'

theorem survives_sleeping (seconds : ℚ) {rest : LoopProg Progress} {l : Ledger} (calm : l.Calm)
    (onward : ∀ l' : Ledger, l'.Calm → Survives rest StopSeen l') :
    Survives (do
      sleepOrStop seconds
      rest) StopSeen l := by
  refine (survives_sleepOrStop seconds calm.2).bind ?_
  rintro - _ - rfl
  exact onward _ calm

theorem survives_consume (env : Env) (consumerName : String) (passes : Nat) {l : Ledger}
    (calm : l.Calm) : Survives (consume env consumerName passes) StopSeen l := by
  induction passes generalizing l with
  | zero => exact ⟨calm.2, nofun⟩
  | succ passes ih =>
    refine survives_unlessStopped calm fun _ calm => ?_
    refine survives_pass (quiet_read env consumerName) calm (fun _ calm => ?_) fun _ => ih
    exact survives_sleeping _ calm fun _ => ih

theorem survives_runPendingRecovery (env : Env) (settings : SweepSettings) (consumerName : String)
    (passes : Nat) {l : Ledger} (calm : l.Calm) :
    Survives (runPendingRecovery env settings consumerName passes) StopSeen l := by
  induction passes generalizing l with
  | zero => exact ⟨calm.2, nofun⟩
  | succ passes ih =>
    refine survives_unlessStopped calm fun _ calm => ?_
    refine survives_sleeping _ calm fun _ calm => ?_
    refine survives_unlessStopped calm fun _ calm => ?_
    exact survives_pass (quiet_claimStale env consumerName) calm (fun _ => ih) fun _ => ih

theorem survives_runRetryScheduler (env : Env) (settings : SweepSettings) (passes : Nat)
    {l : Ledger} (calm : l.Calm) :
    Survives (runRetryScheduler env settings passes) StopSeen l := by
  induction passes generalizing l with
  | zero => exact ⟨calm.2, nofun⟩
  | succ passes ih =>
    refine survives_unlessStopped calm fun _ calm => ?_
    refine survives_sleeping _ calm fun _ calm => ?_
    refine survives_unlessStopped calm fun _ calm => ?_
    have sweep := (quiet_popDueRetries env.retryBatch).queue.bind quiet_publishAll
    refine (survives_unlessQueueError sweep calm).bind ?_
    rintro - _ - rfl
    exact ih calm

theorem survives_task (env : Env) (settings : SweepSettings) (consumerName : String)
    (passes : Nat) (loop : Loop) :
    Survives (task env settings consumerName passes loop) StopSeen {} := by
  cases loop with
  | consumer => exact survives_consume env consumerName passes ⟨rfl, rfl⟩
  | recovery => exact survives_runPendingRecovery env settings consumerName passes ⟨rfl, rfl⟩
  | scheduler => exact survives_runRetryScheduler env settings passes ⟨rfl, rfl⟩

end WorkerLoops

/-- The states of a worker reached by any order of its tasks' replies and the
stop signal. -/
abbrev WorkerReached (env : Env) (settings : SweepSettings) (consumerName : String)
    (passes : Nat) : Worker → Prop :=
  Transition.Reach Worker.step (Worker.start env settings consumerName passes) fun _ _ _ => True

/-- No loop has raised or been cancelled, and a loop that has returned did so
after the stop event was set. -/
structure Worker.Survives (w : Worker) : Prop where
  unraised : ∀ loop error, w.task loop ≠ .raise error
  uncancelled : ∀ loop, w.cancelled loop = false
  stopped : ∀ loop, w.task loop = .ret .returned → w.shutdown = true

/-- What holds in every state of a worker, whatever fails. -/
structure Worker.Supervised (w : Worker) : Prop where
  tasks : ∀ loop, WorkerLoops.Survives (w.task loop) WorkerLoops.StopSeen (w.ledger loop)
  stop : ∀ loop, (w.ledger loop).stopSeen = true → w.shutdown = true
  cancels : ∀ loop, w.cancelled loop = true → ∃ other error, w.task other = .raise error

namespace Worker
variable {env : Env} {settings : SweepSettings} {consumerName : String} {passes : Nat}
  {w w' : Worker} {loop : Loop} {reply : (o : LoopOp) → Except Exn o.Val}

theorem step_answer (stepped : w.step (.answer loop reply) = some w') :
    ∃ o next, w.task loop = .call o next ∧ o.credible (w.replyTo reply o) = true ∧
      w'.task = Function.update w.task loop (next (w.replyTo reply o)) ∧
      w'.ledger = Function.update w.ledger loop ((w.ledger loop).note o (w.replyTo reply o)) ∧
      w'.shutdown = w.shutdown ∧ ∀ other, w'.cancelled other = true →
        w.cancelled other = true ∨ ∃ error, next (w.replyTo reply o) = .raise error := by
  simp only [step] at stepped
  split at stepped
  · rename_i o next waits
    split at stepped
    · rename_i fits
      cases stepped
      refine ⟨o, next, waits, (Bool.and_eq_true_iff.mp fits).2, ?_⟩
      simp only [settle, Function.update_self]
      split
      · rename_i error raised
        exact ⟨rfl, rfl, rfl, fun other _ => .inr ⟨error, raised⟩⟩
      · exact ⟨rfl, rfl, rfl, fun other cancelled => .inl cancelled⟩
    · cases stepped
  · cases stepped

theorem note_stopSeen {l : Ledger} {o : LoopOp}
    (seen : (l.note o (w.replyTo reply o)).stopSeen = true) :
    l.stopSeen = true ∨ w.shutdown = true := by
  cases o with
  | shutdownIsSet => exact .inr seen
  | sleepOrStop seconds => exact .inl seen
  | process delivered =>
    simp only [replyTo] at seen
    cases answer : reply (.process delivered) <;> rw [answer] at seen <;> exact .inl seen
  | command o =>
    rcases o with o | o | o
    · exact .inl seen
    · cases o <;> exact .inl seen
    · exact .inl seen

namespace Supervised

theorem step (supervised : w.Supervised) {label : WorkerLabel} (stepped : w.step label = some w') :
    w'.Supervised := by
  cases label with
  | signal =>
    cases stepped
    exact ⟨supervised.tasks, fun _ _ => rfl, supervised.cancels⟩
  | answer loop reply =>
    obtain ⟨o, next, waits, fits, task, ledger, shutdown, cancels⟩ := step_answer stepped
    refine ⟨fun other => ?_, fun other seen => ?_, fun other cancelled => ?_⟩
    · rw [task, ledger]
      by_cases own : other = loop
      · subst own
        rw [Function.update_self, Function.update_self]
        have running := supervised.tasks other
        rw [waits] at running
        exact running.2 _ _ ⟨fits, rfl⟩
      · rw [Function.update_of_ne own, Function.update_of_ne own]
        exact supervised.tasks other
    · rw [ledger] at seen
      rw [shutdown]
      by_cases own : other = loop
      · subst own
        rw [Function.update_self] at seen
        exact (note_stopSeen seen).elim (supervised.stop other) id
      · rw [Function.update_of_ne own] at seen
        exact supervised.stop other seen
    · rw [task]
      obtain before | ⟨error, raised⟩ := cancels other cancelled
      · obtain ⟨culprit, error, raised⟩ := supervised.cancels other before
        have apart : culprit ≠ loop := by
          rintro rfl
          cases waits.symm.trans raised
        exact ⟨culprit, error, by rw [Function.update_of_ne apart, raised]⟩
      · exact ⟨loop, error, by rw [Function.update_self, raised]⟩

theorem start : Supervised (start env settings consumerName passes) where
  tasks loop := WorkerLoops.survives_task env settings consumerName passes loop
  stop _ seen := by cases seen
  cancels _ cancelled := by cases cancelled

/-- A task raises exactly when a final XACK of its own has failed. -/
theorem raised_iff (supervised : w.Supervised) (loop : Loop) :
    (∃ error, w.task loop = .raise error) ↔ (w.ledger loop).ackFailed = true := by
  have survives := supervised.tasks loop
  cases isTask : w.task loop with
  | ret progress =>
    rw [isTask] at survives
    simp [survives.1]
  | raise error =>
    rw [isTask] at survives
    simpa using survives
  | call o next =>
    rw [isTask] at survives
    simp [show (w.ledger loop).ackFailed = false from survives.1]

end Supervised
end Worker

/-- The loops of a worker survive, and none is cancelled, exactly as long as no
XACK fails that `handle` sends after `process` has returned. -/
theorem worker_survives_iff (env : Env) (settings : SweepSettings) (consumerName : String)
    (passes : Nat) {w : Worker} (h : WorkerReached env settings consumerName passes w) :
    w.Survives ↔ ∀ loop, (w.ledger loop).ackFailed = false := by
  have supervised : w.Supervised := h.invariant Worker.Supervised.start
    fun _ _ _ _ supervised stepped _ => supervised.step stepped
  constructor
  · intro survives loop
    by_contra failed
    obtain ⟨error, raised⟩ := (supervised.raised_iff loop).mpr (by simpa using failed)
    exact survives.unraised loop error raised
  · intro unfailed
    have unraised : ∀ loop error, w.task loop ≠ .raise error := fun loop error raised => by
      have failed := (supervised.raised_iff loop).mp ⟨error, raised⟩
      rw [unfailed loop] at failed
      cases failed
    refine ⟨unraised, fun loop => ?_, fun loop returned => ?_⟩
    · by_contra cancelled
      obtain ⟨other, error, raised⟩ := supervised.cancels loop (by simpa using cancelled)
      exact unraised other error raised
    · have survives := supervised.tasks loop
      rw [returned] at survives
      exact supervised.stop loop (survives.2 rfl)

/-- The task is inside `process`. -/
def Worker.midJob (w : Worker) (loop : Loop) : Bool :=
  w.task loop matches .call (.process _) _

def sampleDelivery : StreamFields :=
  Queue.toStreamFields { eventId := 0, jobId := 1, documentId := 2, storagePath := ""
                         requestedDocumentType := none }

def refusedAck : (o : LoopOp) → Except Exn o.Val
  | .shutdownIsSet => .ok false
  | .sleepOrStop _ => .ok ()
  | .process _ => .ok .completed
  | .command (.redis (.xreadgroup _ _)) => .ok [(0, sampleDelivery)]
  | .command (.redis (.xpendingRange _ _)) => .ok [(1, 1)]
  | .command (.redis (.xclaim _ _ _)) => .ok [(1, sampleDelivery)]
  | .command _ => .error (.connection "Connection refused")

def refusedAckRun : List WorkerLabel :=
  List.replicate 5 (.answer .recovery refusedAck) ++ List.replicate 4 (.answer .consumer refusedAck)

theorem WorkerReached.exists_run (env : Env) (settings : SweepSettings) (consumerName : String)
    (passes : Nat) (accept : Worker → Bool) (labels : List WorkerLabel)
    (run : (Transition.runChecked Worker.step (fun _ _ _ => true) labels
      (Worker.start env settings consumerName passes)).any accept = true) :
    ∃ w, WorkerReached env settings consumerName passes w ∧ accept w = true :=
  Transition.Reach.exists_of_runChecked _ accept (fun _ _ _ _ => trivial) labels run

theorem worker_not_survives : ¬∀ env settings consumerName passes w,
    WorkerReached env settings consumerName passes w → w.Survives := by
  intro survives
  obtain ⟨w, reached, cancelled⟩ := WorkerReached.exists_run sampleEnv {} "w" 1
    (fun w => w.cancelled .recovery && w.midJob .recovery) refusedAckRun (by decide +kernel)
  rw [(survives sampleEnv {} "w" 1 w reached).uncancelled .recovery] at cancelled
  cases cancelled

/-- The same run before the refused XACK. -/
theorem worker_survives_iff_claimed :
    ∃ w, WorkerReached sampleEnv {} "w" 1 w ∧ w.midJob .recovery = true ∧ w.Survives := by
  obtain ⟨w, reached, accepted⟩ := WorkerReached.exists_run sampleEnv {} "w" 1
    (fun w => w.midJob .recovery && [Loop.consumer, .recovery, .scheduler].all
      fun loop => !(w.ledger loop).ackFailed) (refusedAckRun.take 8) (by decide +kernel)
  obtain ⟨midJob, unfailed⟩ := Bool.and_eq_true_iff.mp accepted
  simp only [List.all_cons, List.all_nil, Bool.and_true, Bool.and_eq_true, Bool.not_eq_true']
    at unfailed
  refine ⟨w, reached, midJob, (worker_survives_iff sampleEnv {} "w" 1 reached).mpr fun loop => ?_⟩
  cases loop with
  | consumer => exact unfailed.1
  | recovery => exact unfailed.2.1
  | scheduler => exact unfailed.2.2

end DocumentPipeline

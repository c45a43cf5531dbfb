import DocumentPipeline.Lib.Logged
import DocumentPipeline.Core
import Mathlib.Data.List.Infix

/-! A process from its first connection to its exit. Dependencies are waited
for with a budget of attempts; the worker's tasks run between the last of them
and `_shutdown`, which releases everything and never raises. The logs of both
processes are determined by the number of failed attempts. -/

namespace DocumentPipeline
open EffectProgram

/-- The exceptions that the handlers of a starting process tell apart: below
`AppError`, `SQLAlchemyError`, `redis.ConnectionError`, `redis.ResponseError`,
other `RedisError`s and `OSError`; the last is what a task group raises. -/
inductive StartupError
  | app (error : AppError)
  | sqlalchemy (text : String)
  | redisConnection (text : String)
  | response (text : String)
  | redis (text : String)
  | os (text : String)
  | other (typeName text : String)
  | group (errors : List Exn)
  deriving DecidableEq

/-- `except AppError`. -/
def StartupError.isAppError : StartupError → Bool
  | .app _ => true
  | _ => false

def StartupError.isGroup : StartupError → Bool
  | .group _ => true
  | _ => false

/-- `except (SQLAlchemyError, OSError)`. -/
def StartupError.isDatabaseFault : StartupError → Bool
  | .sqlalchemy _ | .os _ => true
  | _ => false

/-- `except (RedisConnectionError, OSError)`. -/
def StartupError.isConnectionFault : StartupError → Bool
  | .redisConnection _ | .os _ => true
  | _ => false

/-- `selectOne` connects and executes `SELECT 1`; `ensureRoot` creates the
storage root; `runTasks` is the worker's task group and `serve` the `yield` of
the API's lifespan; `aclose` closes the Redis client. -/
inductive ProcessOp
  | selectOne
  | ping
  | sleep (seconds : ℚ)
  | xgroupCreate (stream group : String)
  | ensureRoot
  | runTasks
  | serve
  | closeProvider
  | aclose
  | dispose
  deriving DecidableEq

@[reducible] def ProcessOp.Val : ProcessOp → Type := fun _ => Unit

abbrev ProcessProg (α : Type) := Program ProcessOp ProcessOp.Val StartupError α

abbrev ProcessLog := Log ProcessOp ProcessOp.Val StartupError

inductive LlmProviderName
  | openai | fake
  deriving DecidableEq

structure ProcessSettings where
  dbConnectMaxAttempts : Int := 30
  dbConnectRetrySeconds : ℚ := 2
  redisStreamName : String := "document-processing"
  redisConsumerGroup : String := "document-workers"
  redisConnectMaxAttempts : Int := 30
  redisConnectRetrySeconds : ℚ := 2
  llmProvider : LlmProviderName := .openai
  openaiApiKey : Option String := none

/-- `RedisQueue`, as far as it has a lifecycle: whether it has a client. -/
structure RedisQueue where
  connected : Bool := false

namespace Startup

def unreachable (name dependency : String) (maxAttempts : Int) : StartupError :=
  .app { kind := .dependencyUnavailable
         message := s!"{name} unreachable after {maxAttempts} attempts"
         details := [("dependency", dependency)] }

def waitForDatabase (settings : ProcessSettings) : ProcessProg Unit := do
  let reached ← Program.retrying StartupError.isDatabaseFault .selectOne
    (.sleep settings.dbConnectRetrySeconds) settings.dbConnectMaxAttempts.toNat
  if reached then return ()
  throw (unreachable "PostgreSQL" "postgresql" settings.dbConnectMaxAttempts)

def connect (settings : ProcessSettings) : ProcessProg RedisQueue := do
  let reached ← Program.retrying StartupError.isConnectionFault .ping
    (.sleep settings.redisConnectRetrySeconds) settings.redisConnectMaxAttempts.toNat
  if reached then return { connected := true }
  Program.perform .aclose
  throw (unreachable "Redis" "redis" settings.redisConnectMaxAttempts)

def queueError (message : String) : StartupError := .app { kind := .queue, message }

/-- `RedisQueue.client`. -/
def client (queue : RedisQueue) : Except StartupError Unit :=
  if queue.connected then .ok () else .error (queueError "The Redis queue is not connected.")

def groupExists : String := "BUSYGROUP"

def ensureGroup (settings : ProcessSettings) (queue : RedisQueue) : ProcessProg Unit :=
  tryCatch (do
    Program.lift (client queue)
    Program.perform (.xgroupCreate settings.redisStreamName settings.redisConsumerGroup))
  fun error => match error with
    | .response text =>
      if groupExists.toList <:+: text.toList then return ()
      else throw (queueError "Failed to create the consumer group.")
    | error => throw error

def close (queue : RedisQueue) : ProcessProg Unit :=
  if queue.connected then Program.perform .aclose else return ()

def buildProvider (settings : ProcessSettings) : Except StartupError LlmProviderName :=
  match settings.llmProvider with
  | .fake => .ok .fake
  | .openai =>
    if settings.openaiApiKey.getD "" = "" then
      .error (.app { kind := .llmConfiguration
                     message := "LLM_PROVIDER is 'openai' but OPENAI_API_KEY is not set. " ++
                       "Set the key, or set LLM_PROVIDER=fake to run without one."
                     details := [("provider", "openai")] })
    else .ok .openai

/-- `except Exception`, reporting only. -/
def suppress (p : ProcessProg Unit) : ProcessProg Unit := tryCatch p fun _ => return ()

/-- `_shutdown`. -/
def shutdown (queue : RedisQueue) : ProcessProg Unit := do
  suppress (Program.perform .closeProvider)
  suppress (close queue)
  suppress (Program.perform .dispose)

def runWorker (settings : ProcessSettings) : ProcessProg Unit := do
  waitForDatabase settings
  let queue ← connect settings
  ensureGroup settings queue
  let _ ← Program.lift (buildProvider settings)
  Program.perform .ensureRoot
  (Program.perform .runTasks).andFinally (shutdown queue)

def main (settings : ProcessSettings) : ProcessProg Int :=
  tryCatch (do
    runWorker settings
    return 0)
  fun error => match error with
    | .app _ => return 1
    | error => throw error

/-- The API's `lifespan`, which releases without `suppress`. -/
def lifespan (settings : ProcessSettings) : ProcessProg Unit := do
  Program.perform .ensureRoot
  waitForDatabase settings
  let queue ← connect settings
  ensureGroup settings queue
  (Program.perform .serve).andFinally do
    close queue
    Program.perform .dispose

/-- The replies that can occur: the libraries raise no `AppError`, only the task
group raises a group, and a sleep does not fail. -/
def credible : ProcessOp → Except StartupError Unit → Bool
  | _, .ok _ => true
  | .sleep _, .error _ => false
  | .runTasks, .error error => error.isGroup
  | _, .error error => !error.isAppError && !error.isGroup

abbrev logs {α : Type} (p : ProcessProg α) (Q : Except StartupError α → ProcessLog → Prop) : Prop :=
  emits (fun o reply => credible o reply = true) p Q

def Answered (tolerates : StartupError → Bool) (attempt pause : ProcessOp) (maxAttempts : Int)
    (log : ProcessLog) : Prop :=
  ∃ k : Nat, k < maxAttempts ∧ ∃ failed, Retried tolerates attempt pause k failed ∧
    log = failed ++ [⟨attempt, .ok ()⟩]

/-- It failed in a way that is not waited for, within its budget. -/
def Interrupted (tolerates : StartupError → Bool) (attempt pause : ProcessOp) (maxAttempts : Int)
    (error : StartupError) (log : ProcessLog) : Prop :=
  ∃ k : Nat, k < maxAttempts ∧ ∃ failed, Retried tolerates attempt pause k failed ∧
    tolerates error = false ∧ log = failed ++ [⟨attempt, .error error⟩]

abbrev Exhausted (tolerates : StartupError → Bool) (attempt pause : ProcessOp) (maxAttempts : Int)
    (log : ProcessLog) : Prop :=
  Retried tolerates attempt pause maxAttempts.toNat log

def starts : ProcessOp → Bool
  | .runTasks | .serve | .closeProvider | .dispose => false
  | _ => true

def Unexpected (error : StartupError) : Prop :=
  error.isAppError = false ∧ error.isGroup = false

theorem unexpected_of_credible {o : ProcessOp} {error : StartupError} (starting : starts o = true)
    (occurs : credible o (.error error) = true) : Unexpected error := by
  cases o with
  | runTasks | serve | closeProvider | dispose => cases starting
  | sleep => cases occurs
  | _ => simpa [credible, Unexpected] using occurs

theorem starts_concat {log : ProcessLog} {o : ProcessOp} {reply : Except StartupError Unit}
    (earlier : ∀ entry ∈ log, starts entry.1 = true) (starting : starts o = true) :
    ∀ entry ∈ log ++ [⟨o, reply⟩], starts entry.1 = true :=
  List.forall_mem_append.mpr ⟨earlier, List.forall_mem_singleton.mpr starting⟩

section Waiting
variable {tolerates : StartupError → Bool} {attempt : ProcessOp} {pauseSeconds : ℚ} {maxAttempts : Int}

theorem starts_of_retried {n : Nat} {log : ProcessLog}
    (h : Retried tolerates attempt (.sleep pauseSeconds) n log) (starting : starts attempt = true) :
    ∀ entry ∈ log, starts entry.1 = true := by
  induction h with
  | none => exact fun _ absurd => (List.not_mem_nil absurd).elim
  | again _ _ ih =>
    intro entry among
    simp only [List.mem_cons] at among
    obtain rfl | rfl | among := among
    · exact starting
    · rfl
    · exact ih entry among

/-- `for attempt in range(1, max_attempts + 1)`, for a call of the startup. -/
theorem logs_retrying (starting : starts attempt = true) :
    logs (Program.retrying tolerates attempt (.sleep pauseSeconds) maxAttempts.toNat)
      fun r log => match r with
        | .ok true => Answered tolerates attempt (.sleep pauseSeconds) maxAttempts log
        | .ok false => Exhausted tolerates attempt (.sleep pauseSeconds) maxAttempts log
        | .error error => Unexpected error ∧
            Interrupted tolerates attempt (.sleep pauseSeconds) maxAttempts error log := by
  refine emits_mono _ (emits_retrying (fun _ impossible => by cases impossible) _) fun r log h => ?_
  rcases r with error | _ | _
  · obtain ⟨k, less, failed, retried, refused, occurs, rfl⟩ := h
    exact ⟨unexpected_of_credible starting occurs, k, by omega, failed, retried, refused, rfl⟩
  · exact h
  · obtain ⟨k, less, failed, _, retried, rfl⟩ := h
    exact ⟨k, by omega, failed, retried, rfl⟩

end Waiting

section Stages
variable (settings : ProcessSettings)

abbrev DatabaseAnswered : ProcessLog → Prop :=
  Answered StartupError.isDatabaseFault .selectOne (.sleep settings.dbConnectRetrySeconds)
    settings.dbConnectMaxAttempts

abbrev RedisAnswered : ProcessLog → Prop :=
  Answered StartupError.isConnectionFault .ping (.sleep settings.redisConnectRetrySeconds)
    settings.redisConnectMaxAttempts

/-- The group was created, or was there. -/
def Grouped (log : ProcessLog) : Prop :=
  ∃ reply, log = [⟨.xgroupCreate settings.redisStreamName settings.redisConsumerGroup, reply⟩] ∧
    (reply = .ok () ∨ ∃ text, reply = .error (.response text) ∧ groupExists.toList <:+: text.toList)

def Connected (log : ProcessLog) : Prop :=
  ∃ database redis group, DatabaseAnswered settings database ∧ RedisAnswered settings redis ∧
    Grouped settings group ∧ log = database ++ redis ++ group

/-- What keeps a worker from starting, with the log it leaves. -/
inductive Refused : ProcessLog → Prop
  | database {log : ProcessLog} :
    Exhausted StartupError.isDatabaseFault .selectOne (.sleep settings.dbConnectRetrySeconds)
      settings.dbConnectMaxAttempts log → Refused log
  | redis {database log : ProcessLog} : DatabaseAnswered settings database →
    Exhausted StartupError.isConnectionFault .ping (.sleep settings.redisConnectRetrySeconds)
      settings.redisConnectMaxAttempts log → Refused (database ++ (log ++ [⟨.aclose, .ok ()⟩]))
  | group {database redis : ProcessLog} {text : String} : DatabaseAnswered settings database →
    RedisAnswered settings redis → ¬groupExists.toList <:+: text.toList →
      Refused (database ++ (redis ++
        [⟨.xgroupCreate settings.redisStreamName settings.redisConsumerGroup,
          .error (.response text)⟩]))
  | provider {log : ProcessLog} {error : StartupError} : Connected settings log →
    buildProvider settings = .error error → Refused log

/-- What breaks the startup off with an exception that nothing handles, with
the log it leaves: every dependency before it has answered. -/
inductive Halted (error : StartupError) : ProcessLog → Prop
  | database {log : ProcessLog} :
    Interrupted StartupError.isDatabaseFault .selectOne (.sleep settings.dbConnectRetrySeconds)
      settings.dbConnectMaxAttempts error log → Halted error log
  | redis {database log : ProcessLog} : DatabaseAnswered settings database →
    Interrupted StartupError.isConnectionFault .ping (.sleep settings.redisConnectRetrySeconds)
      settings.redisConnectMaxAttempts error log → Halted error (database ++ log)
  | closing {database log : ProcessLog} : DatabaseAnswered settings database →
    Exhausted StartupError.isConnectionFault .ping (.sleep settings.redisConnectRetrySeconds)
      settings.redisConnectMaxAttempts log →
      Halted error (database ++ (log ++ [⟨.aclose, .error error⟩]))
  | group {database redis : ProcessLog} : DatabaseAnswered settings database →
    RedisAnswered settings redis → (∀ text, error ≠ .response text) →
      Halted error (database ++ (redis ++
        [⟨.xgroupCreate settings.redisStreamName settings.redisConsumerGroup, .error error⟩]))
  | root {before : ProcessLog} {provider : LlmProviderName} : Connected settings before →
    buildProvider settings = .ok provider →
      Halted error (before ++ [⟨.ensureRoot, .error error⟩])

abbrev Broken (error : StartupError) (log : ProcessLog) : Prop :=
  Unexpected error ∧ Halted settings error log

def Started (log : ProcessLog) : Prop :=
  ∃ before provider, Connected settings before ∧ buildProvider settings = .ok provider ∧
    log = before ++ [⟨.ensureRoot, .ok ()⟩]

/-- `_shutdown` tries everything, whatever fails. -/
def Released (log : ProcessLog) : Prop := log.map (·.1) = [.closeProvider, .aclose, .dispose]

/-- How the worker exits, by its log. -/
inductive Exited : Except StartupError Int → ProcessLog → Prop
  | finished {before after : ProcessLog} : Started settings before → Released after →
    Exited (.ok 0) (before ++ ⟨.runTasks, .ok ()⟩ :: after)
  | failed {before after : ProcessLog} {errors : List Exn} : Started settings before →
    Released after →
      Exited (.error (.group errors)) (before ++ ⟨.runTasks, .error (.group errors)⟩ :: after)
  | refused {log : ProcessLog} : Refused settings log → Exited (.ok 1) log
  | broken {error : StartupError} {log : ProcessLog} : Broken settings error log →
    Exited (.error error) log

/-- How the API's lifespan ends: before it serves, with everything released, or
with an engine that a failing `queue.close` has left open. -/
inductive Ended : Except StartupError Unit → ProcessLog → Prop
  | unstarted {error : StartupError} {log : ProcessLog} :
    (∀ entry ∈ log, starts entry.1 = true) → Ended (.error error) log
  | released {log : ProcessLog} {outcome disposed : Except StartupError Unit} :
    Connected settings log → Ended (disposed.bind fun _ => outcome)
      (⟨.ensureRoot, .ok ()⟩ :: log ++ [⟨.serve, outcome⟩, ⟨.aclose, .ok ()⟩, ⟨.dispose, disposed⟩])
  | leaked {log : ProcessLog} {outcome : Except StartupError Unit} {error : StartupError} :
    Connected settings log → Ended (.error error)
      (⟨.ensureRoot, .ok ()⟩ :: log ++ [⟨.serve, outcome⟩, ⟨.aclose, .error error⟩])

variable {settings}

theorem starts_of_answered {tolerates : StartupError → Bool} {attempt : ProcessOp} {pause : ℚ}
    {maxAttempts : Int} {log : ProcessLog} (starting : starts attempt = true)
    (h : Answered tolerates attempt (.sleep pause) maxAttempts log) :
    ∀ entry ∈ log, starts entry.1 = true := by
  obtain ⟨k, -, failed, retried, rfl⟩ := h
  exact starts_concat (starts_of_retried retried starting) starting

theorem starts_of_interrupted {tolerates : StartupError → Bool} {attempt : ProcessOp} {pause : ℚ}
    {maxAttempts : Int} {error : StartupError} {log : ProcessLog} (starting : starts attempt = true)
    (h : Interrupted tolerates attempt (.sleep pause) maxAttempts error log) :
    ∀ entry ∈ log, starts entry.1 = true := by
  obtain ⟨k, -, failed, retried, -, rfl⟩ := h
  exact starts_concat (starts_of_retried retried starting) starting

theorem starts_of_connected {log : ProcessLog} (h : Connected settings log) :
    ∀ entry ∈ log, starts entry.1 = true := by
  obtain ⟨database, redis, group, database_, redis_, ⟨reply, rfl, -⟩, rfl⟩ := h
  have reached := List.forall_mem_append.mpr
    ⟨starts_of_answered rfl database_, starts_of_answered rfl redis_⟩
  exact starts_concat reached rfl

variable (settings)

theorem waitForDatabase_logs : logs (waitForDatabase settings) fun r log => match r with
    | .ok _ => DatabaseAnswered settings log
    | .error error => error.isAppError = true ∧ Refused settings log ∨ Broken settings error log := by
  refine emits_seq _ (logs_retrying rfl) (fun reached log h => ?_)
    fun error log h => .inr ⟨h.1, .database h.2⟩
  cases reached with
  | true =>
    simp only [if_true, emits_pure, List.append_nil]
    exact h
  | false =>
    simp only [Bool.false_eq_true, if_false, emits_throw, List.append_nil]
    exact .inl ⟨rfl, .database h⟩

/-- `connect`, after the database has answered. -/
theorem connect_logs {database : ProcessLog} (database_ : DatabaseAnswered settings database) :
    logs (connect settings) fun r log => match r with
      | .ok queue => queue.connected = true ∧ RedisAnswered settings log
      | .error error => error.isAppError = true ∧ Refused settings (database ++ log) ∨
          Broken settings error (database ++ log) := by
  refine emits_seq _ (logs_retrying rfl) (fun reached log h => ?_)
    fun error log h => .inr ⟨h.1, .redis database_ h.2⟩
  cases reached with
  | true =>
    simp only [if_true, emits_pure, List.append_nil]
    exact ⟨trivial, h⟩
  | false =>
    simp only [Bool.false_eq_true, if_false]
    refine emits_seq _ (R := fun r log => log = [⟨.aclose, r⟩] ∧ credible .aclose r = true) ?_ ?_ ?_
    · rw [emits_perform]
      exact fun reply likely => ⟨rfl, likely⟩
    · rintro - _ ⟨rfl, -⟩
      exact .inl ⟨rfl, .redis database_ h⟩
    · rintro error _ ⟨rfl, likely⟩
      exact .inr ⟨unexpected_of_credible rfl likely, .closing database_ h⟩

/-- `ensure_group` on a connected queue. -/
theorem ensureGroup_logs {database redis : ProcessLog} {queue : RedisQueue}
    (connected : queue.connected = true) (database_ : DatabaseAnswered settings database)
    (redis_ : RedisAnswered settings redis) :
    logs (ensureGroup settings queue) fun r log => match r with
      | .ok _ => Grouped settings log
      | .error error => error.isAppError = true ∧ Refused settings (database ++ (redis ++ log)) ∨
          Broken settings error (database ++ (redis ++ log)) := by
  rw [ensureGroup, client, connected, if_pos rfl]
  refine (emits_tryCatch _ _ _ _).mpr ((emits_perform _ _ _).mpr fun reply likely => ?_)
  cases reply with
  | ok _ => exact ⟨.ok (), rfl, .inl rfl⟩
  | error error =>
    cases error with
    | response text =>
      by_cases exists_ : groupExists.toList <:+: text.toList
      · simp only [exists_, if_true, emits_pure]
        exact ⟨_, rfl, .inr ⟨text, rfl, exists_⟩⟩
      · simp only [exists_, if_false, emits_throw]
        exact .inl ⟨rfl, .group database_ redis_ exists_⟩
    | _ =>
      refine .inr ⟨unexpected_of_credible rfl likely, .group database_ redis_ fun _ same => ?_⟩
      cases same

theorem connected_logs {α : Type} {next : RedisQueue → ProcessProg α}
    {Q : Except StartupError α → ProcessLog → Prop}
    (ok : ∀ queue log, queue.connected = true → Connected settings log →
      logs (next queue) fun r log' => Q r (log ++ log'))
    (failed : ∀ error log, error.isAppError = true ∧ Refused settings log ∨
      Broken settings error log → Q (.error error) log) :
    logs (do
      waitForDatabase settings
      let queue ← connect settings
      ensureGroup settings queue
      next queue) Q := by
  refine emits_seq _ (waitForDatabase_logs settings) (fun _ database database_ => ?_) failed
  refine emits_seq _ (connect_logs settings database_) (fun queue redis reached => ?_)
    fun error log => failed error _
  refine emits_seq _ (ensureGroup_logs settings reached.1 database_ reached.2)
    (fun _ group grouped => ?_) fun error log => failed error _
  have connected : Connected settings (database ++ redis ++ group) :=
    ⟨_, _, _, database_, reached.2, grouped, rfl⟩
  refine emits_mono _ (ok queue _ reached.1 connected) fun r log h => ?_
  simpa only [List.append_assoc] using h

theorem suppress_logs (o : ProcessOp) :
    logs (suppress (Program.perform o)) fun r log => r = .ok () ∧ log.map (·.1) = [o] := by
  refine (emits_tryCatch _ _ _ _).mpr ((emits_perform _ _ _).mpr fun reply _ => ?_)
  cases reply <;> exact ⟨rfl, rfl⟩

theorem shutdown_logs {queue : RedisQueue} (connected : queue.connected = true) :
    logs (shutdown queue) fun r log => r = .ok () ∧ Released log := by
  rw [shutdown, close, connected, if_pos rfl]
  refine emits_seq _ (suppress_logs .closeProvider) (fun _ first h => ?_) fun _ _ h => by cases h.1
  refine emits_seq _ (suppress_logs .aclose) (fun _ second h' => ?_) fun _ _ h' => by cases h'.1
  refine emits_mono _ (suppress_logs .dispose) fun r third h'' => ⟨h''.1, ?_⟩
  rw [Released, List.map_append, List.map_append, h.2, h'.2, h''.2]
  rfl

theorem runWorker_logs : logs (runWorker settings) fun r log => match r with
    | .ok _ => Exited settings (.ok 0) log
    | .error error => error.isAppError = true ∧ Refused settings log ∨
        Exited settings (.error error) log := by
  refine connected_logs settings (fun queue before connected connected_ => ?_)
    fun error log h => h.imp id .broken
  refine (emits_bind _ _ _ _).mpr ((emits_lift _ _ _).mpr ?_)
  cases built : buildProvider settings with
  | error error =>
    refine .inl ⟨?_, List.append_nil _ ▸ .provider connected_ built⟩
    cases provider : settings.llmProvider <;> simp only [buildProvider, provider] at built
    · split at built <;> cases built
      rfl
    · cases built
  | ok provider =>
    refine (emits_bind _ _ _ _).mpr ((emits_perform _ _ _).mpr fun reply likely => ?_)
    cases reply with
    | error error =>
      exact .inr (.broken ⟨unexpected_of_credible rfl likely, .root connected_ built⟩)
    | ok _ =>
      have started : Started settings (before ++ [⟨.ensureRoot, .ok ()⟩]) :=
        ⟨before, provider, connected_, built, rfl⟩
      refine (emits_andFinally _ _ _ _).mpr ((emits_perform _ _ _).mpr fun reply likely => ?_)
      refine emits_mono _ (shutdown_logs connected) fun r after released => ?_
      obtain ⟨rfl, released⟩ := released
      simp only [List.nil_append, List.cons_append]
      cases reply with
      | ok _ => simpa using Exited.finished started released
      | error error =>
        cases error with
        | group errors => exact .inr (by simpa using Exited.failed started released)
        | _ => cases likely

/-- Every way out of the worker. -/
theorem main_logs : logs (main settings) (Exited settings) := by
  refine (emits_tryCatch _ _ _ _).mpr ((emits_bind _ _ _ _).mpr
    (emits_mono _ (runWorker_logs settings) fun r log h => ?_))
  cases r with
  | ok _ => simpa using h
  | error error =>
    cases error with
    | app error =>
      obtain ⟨-, refused⟩ | exited := h
      · simpa using Exited.refused refused
      · cases exited with
        | broken broken => cases broken.1.1
    | _ =>
      obtain ⟨absurd, -⟩ | exited := h
      · cases absurd
      · simpa using exited

theorem Refused.starts {settings : ProcessSettings} {log : ProcessLog} (h : Refused settings log) :
    ∀ entry ∈ log, Startup.starts entry.1 = true := by
  cases h with
  | database exhausted => exact starts_of_retried exhausted rfl
  | redis database exhausted =>
    exact List.forall_mem_append.mpr ⟨starts_of_answered rfl database,
      starts_concat (starts_of_retried exhausted rfl) rfl⟩
  | group database redis _ =>
    exact List.forall_mem_append.mpr ⟨starts_of_answered rfl database,
      starts_concat (starts_of_answered rfl redis) rfl⟩
  | provider connected _ => exact starts_of_connected connected

theorem Halted.starts {settings : ProcessSettings} {error : StartupError} {log : ProcessLog}
    (h : Halted settings error log) : ∀ entry ∈ log, Startup.starts entry.1 = true := by
  cases h with
  | database interrupted => exact starts_of_interrupted rfl interrupted
  | redis database interrupted =>
    exact List.forall_mem_append.mpr
      ⟨starts_of_answered rfl database, starts_of_interrupted rfl interrupted⟩
  | closing database exhausted =>
    exact List.forall_mem_append.mpr ⟨starts_of_answered rfl database,
      starts_concat (starts_of_retried exhausted rfl) rfl⟩
  | group database redis _ =>
    exact List.forall_mem_append.mpr ⟨starts_of_answered rfl database,
      starts_concat (starts_of_answered rfl redis) rfl⟩
  | root connected _ => exact starts_concat (starts_of_connected connected) rfl

variable {settings} in
theorem Exited.ran {r : Except StartupError Int} {log : ProcessLog} (h : Exited settings r log) :
    (r = .ok 0 → ⟨.runTasks, .ok ()⟩ ∈ log) ∧
      ∀ errors, r = .error (.group errors) → ⟨.runTasks, .error (.group errors)⟩ ∈ log := by
  cases h with
  | finished _ _ => exact ⟨fun _ => List.mem_append_right _ List.mem_cons_self, fun _ => nofun⟩
  | failed _ _ =>
    refine ⟨nofun, fun _ same => ?_⟩
    cases same
    exact List.mem_append_right _ List.mem_cons_self
  | refused _ => exact ⟨nofun, fun _ => nofun⟩
  | broken broken =>
    refine ⟨nofun, fun _ same => ?_⟩
    cases same
    cases broken.1.2

variable {settings} in
theorem Exited.idle {r : Except StartupError Int} {log : ProcessLog} (h : Exited settings r log)
    (early : r = .ok 1 ∨ ∃ error, r = .error error ∧ error.isGroup = false)
    (outcome : Except StartupError Unit) : ⟨.runTasks, outcome⟩ ∉ log := by
  intro among
  cases h with
  | finished _ _ =>
    obtain same | ⟨_, same, -⟩ := early <;> cases same
  | failed _ _ =>
    obtain same | ⟨_, same, ungrouped⟩ := early <;> cases same
    cases ungrouped
  | refused refused => cases refused.starts _ among
  | broken broken => cases broken.2.starts _ among

/-- Unlike the worker, the API disposes of its engine only after a close that
succeeds. -/
theorem lifespan_logs : logs (lifespan settings) (Ended settings) := by
  refine (emits_bind _ _ _ _).mpr ((emits_perform _ _ _).mpr fun reply _ => ?_)
  cases reply with
  | error error =>
    refine .unstarted fun entry among => ?_
    rw [List.mem_singleton.mp among]
    rfl
  | ok _ =>
    refine connected_logs settings (fun queue before connected connected_ => ?_) fun error log h => ?_
    · rw [close, connected, if_pos rfl]
      refine (emits_andFinally _ _ _ _).mpr ((emits_perform _ _ _).mpr fun outcome _ => ?_)
      refine (emits_bind _ _ _ _).mpr ((emits_perform _ _ _).mpr fun closed _ => ?_)
      cases closed with
      | error error => exact .leaked connected_
      | ok _ =>
        refine (emits_perform _ _ _).mpr fun disposed _ => ?_
        cases disposed with
        | error error => exact @Ended.released settings before outcome (.error error) connected_
        | ok _ => exact @Ended.released settings before outcome (.ok ()) connected_
    · refine .unstarted fun entry among => ?_
      simp only [List.singleton_append, List.mem_cons] at among
      obtain rfl | among := among
      · rfl
      · exact h.elim (fun h => h.2.starts entry among) fun broken => broken.2.starts entry among

end Stages

end Startup
end DocumentPipeline

import DocumentPipeline.Processor

/-! What the processes share, and the effect of one call on it. A call acts on
the store it addresses only. Beside the stores the world carries what the
statements of the properties need and no code reads: the history of committed
and delivered events, newest first, and which attempt claimed a row last. -/

namespace DocumentPipeline

inductive Observation
  | created (jobId : Nat)
  | claimed (thread jobId : Nat) (before : JobStatus)
  | wrote (thread jobId : Nat) (before after : JobStatus)
  | ran (thread : Nat) (item : DeliveredEvent)
  | delivered (thread messageId : Nat)
  | handedOut (thread : Nat) (item : DeliveredEvent)
  | scheduled (event : DocumentProcessingEvent) (due : ℚ)
  | popped (thread : Nat) (event : DocumentProcessingEvent) (due clock : ℚ)
  | published (thread : Nat) (event : DocumentProcessingEvent)
  | publishFailed (thread : Nat) (event : DocumentProcessingEvent)
  | faulted (thread : Nat)
  | answered (thread : Nat) (answer : Except Exn Routes.ApiResponse)

/-- The attempt that claimed a row last, and the stream entry it was handling. -/
structure Claim where
  session : Nat
  entry : Option Nat
  deriving DecidableEq

/-- From a successful `claim_job` to the attempt's own final commit. -/
structure Window where
  jobId : Nat
  startedAt : Time
  consumerName : String
  deriving DecidableEq

structure World where
  now : Time
  db : Database
  redis : Redis
  files : List String → Option Bytes
  uuids : Nat
  sessions : Nat
  claims : Nat → Option Claim
  history : List Observation

/-- The server side of a thread's session, and its part of the bookkeeping:
`scheduled` is the event added to the retry set since the last commit, `listed`
the answer to the last XPENDING. -/
structure Local where
  tx : Transaction := {}
  session : Option Nat := none
  window : Option Window := none
  scheduled : Option DocumentProcessingEvent := none
  listed : List (Nat × Nat) := []

structure Context where
  thread : Nat
  proc : Nat
  item : Option DeliveredEvent

structure Reply (o : Op) where
  world : World
  loc : Local
  answer : Except Exn o.Val

namespace World

def note (w : World) (new : List Observation) : World := { w with history := new ++ w.history }

def clock (env : Env) (w : World) (proc : Nat) : Time := w.now + env.skew proc

def eventsOf (payload : Option Payload) : List DocumentProcessingEvent :=
  match payload with
  | some (.event event) => [event]
  | _ => []

/-- What a successful or lost commit of a job row made true. -/
def noteWrite (ctx : Context) (loc : Local) (seen : Bool) (write : Write) (w : World) :
    World × Local :=
  match write with
  | .insert row => (w.note [.created row.id], loc)
  | .claim base row =>
    ({ w.note [.claimed ctx.thread row.id base.status] with
        claims := Function.update w.claims row.id (loc.session.map fun session =>
          { session, entry := ctx.item.map (·.messageId) }) },
      { loc with window := if seen then
          match row.startedAt, row.consumerName with
          | some startedAt, some consumerName => some ⟨row.id, startedAt, consumerName⟩
          | _, _ => none
        else none })
  | .update _ base row =>
    (w.note [.wrote ctx.thread row.id base.status row.status], { loc with window := none })

def noteDb (ctx : Context) (loc : Local) (w : World) : DbOp → Choice → World × Local
  | .openSession, _ => ({ w with sessions := w.sessions + 1 }, { loc with session := some w.sessions })
  | .closeSession, _ => (w, { loc with session := none, window := none, scheduled := none })
  | .commit, .fails _ => (w, loc)
  | .commit, choice =>
    let committed := match loc.tx.write with
      | none => (w, loc)
      | some write => w.noteWrite ctx loc (choice matches .ok) write
    (committed.1, { committed.2 with scheduled := none })
  | _, _ => (w, loc)

def noteRedis (ctx : Context) (loc : Local) (w : World) (r : Redis) :
    RedisOp → Choice → World × Local
  | .xadd fields, choice =>
    let events := eventsOf fields.data
    (w.note ((if choice.applied then events.map (.published ctx.thread) else []) ++
      (if choice matches .ok then [] else events.map (.publishFailed ctx.thread))), loc)
  | .zadd member score, choice =>
    if choice.applied then
      (w.note ((eventsOf (some member)).map (.scheduled · score)),
        { loc with scheduled := if choice matches .ok then (eventsOf (some member)).head? else none })
    else (w, loc)
  | .popDueRetries clock limit, choice =>
    if choice.applied then
      (w.note ((r.due clock limit).flatMap fun entry =>
        (eventsOf (some entry.1)).map (.popped ctx.thread · entry.2 clock)), loc)
    else (w, loc)
  | .xreadgroup consumer count, choice =>
    if choice.applied then
      (w.note ((r.run w.now (.xreadgroup consumer count)).value.map
        (.delivered ctx.thread ·.1)), loc)
    else (w, loc)
  | .xclaim consumer minIdleTime ids, choice =>
    if choice.applied then
      (w.note ((r.run w.now (.xclaim consumer minIdleTime ids)).value.map
        (.delivered ctx.thread ·.1)), loc)
    else (w, loc)
  | .xpendingRange count idle, .ok =>
    (w, { loc with listed := (r.run w.now (.xpendingRange count idle)).value })
  | _, _ => (w, loc)

def noteFault (ctx : Context) (choice : Choice) (w : World) : World :=
  match choice with
  | .fails _ | .lost _ => w.note [.faulted ctx.thread]
  | _ => w

def runRuntime (env : Env) (ctx : Context) (w : World) : (o : RuntimeOp) → Choice →
    Option (World × Except Exn o.Val)
  | .enterRun, .ok => some (match ctx.item with
      | none => w
      | some item => w.note [.ran ctx.thread item], .ok ())
  | .utcnow, .ok => some (w, .ok (w.clock env ctx.proc))
  | .uuid4, .ok => some ({ w with uuids := w.uuids + 1 }, .ok w.uuids)
  | .uniform low high, .drawn value =>
    if min low high ≤ value ∧ value ≤ max low high then some (w, .ok value) else none
  | .readBytes path, .ok =>
    match w.files path with
    | none => some (w, .error (.fileNotFound "No such file or directory"))
    | some data => some (w, .ok data)
  | .readBytes _, .fails error => some (w, .error error)
  | .writeBytes path data, .ok =>
    some ({ w with files := Function.update w.files path (some data) }, .ok ())
  | .writeBytes _ _, .fails error => some (w, .error error)
  | .writeBytes path data, .lost error =>
    some ({ w with files := Function.update w.files path (some data) }, .error error)
  | .classify _, .classified output => some (w, .ok output)
  | .classify _, .fails error => some (w, .error error)
  | .extract _ _, .extracted output => some (w, .ok output)
  | .extract _ _, .fails error => some (w, .error error)
  | _, _ => none

end World

/-- One call of a thread, or `none` when it has to wait or the environment's
choice does not fit it. -/
def Op.execute (env : Env) (ctx : Context) (w : World) (loc : Local) :
    (o : Op) → Choice → Option (Reply o)
  | .db o, choice =>
    (w.db.execute w.now ctx.thread loc.tx o choice).map fun reply =>
      let noted := w.noteDb ctx loc o choice
      { world := { noted.1.noteFault ctx choice with db := reply.db }
        loc := { noted.2 with tx := reply.tx }
        answer := reply.answer }
  | .redis o, choice =>
    (w.redis.execute w.now o choice).map fun reply =>
      let noted := w.noteRedis ctx loc w.redis o choice
      { world := { noted.1.noteFault ctx choice with redis := reply.1 }
        loc := noted.2
        answer := reply.2 }
  | .runtime o, choice =>
    (w.runRuntime env ctx o choice).map fun reply =>
      { world := reply.1, loc, answer := reply.2 }

/-- The writes of a commit that was applied, whatever the client saw. -/
def Local.commits (loc : Local) : (o : Op) → Choice → Option Write
  | .db .commit, .fails _ => none
  | .db .commit, _ => loc.tx.write
  | _, _ => none

end DocumentPipeline

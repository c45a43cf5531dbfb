import DocumentPipeline.World
import DocumentPipeline.Lib.Reach

/-! The whole pipeline: any number of worker processes, each running the
consume loop, the pending-recovery sweeper and the retry scheduler, and any
number of API requests. A step is one call of one thread, a loop starting its
next iteration, passing time, or the crash of a process between two calls. -/

namespace DocumentPipeline
open EffectProgram Routes

inductive Loop
  | consumer | recovery | scheduler
  deriving DecidableEq

inductive Request
  | upload (file : UploadFile) (documentType : Option DocumentType)
  | retry (jobId : Nat)

/-- Where a thread stands. `handling` is `for item in delivered: await
handle(item)` and `publishing` is `for event in due: await publish(event)`. -/
inductive Control
  | idle (loop : Loop)
  | fetching (loop : Loop) (p : Prog (List DeliveredEvent))
  | handling (loop : Loop) (item : DeliveredEvent) (rest : List DeliveredEvent)
      (p : Prog (Option ProcessingOutcome))
  | popping (p : Prog (List DocumentProcessingEvent))
  | publishing (event : DocumentProcessingEvent) (rest : List DocumentProcessingEvent)
      (p : Prog Nat)
  | serving (request : Request) (p : Prog ApiResponse)
  | stopped

structure Thread where
  proc : Nat
  name : String
  control : Control
  loc : Local := {}

structure System where
  world : World
  threads : List Thread

namespace Control

/-- The delivered event a thread is handling. -/
def item? : Control → Option DeliveredEvent
  | .handling _ item _ _ => some item
  | _ => none

def items : Control → List DeliveredEvent
  | .handling _ item rest _ => item :: rest
  | _ => []

/-- The events a scheduler has popped and not yet published. -/
def held : Control → List DocumentProcessingEvent
  | .publishing event rest _ => event :: rest
  | _ => []

def takeNext (env : Env) (name : String) (loop : Loop) : List DeliveredEvent → Control
  | [] => .idle loop
  | item :: rest => .handling loop item rest (Processor.handle env name item)

def publishNext : List DocumentProcessingEvent → Control
  | [] => .idle .scheduler
  | event :: rest => .publishing event rest (Queue.publish event)

/-- A queue error sends a loop back to its top; any other error ends it. -/
def afterError (loop : Loop) (error : Exn) : Control :=
  if error.isQueueError then .idle loop else .stopped

/-- What a thread does next once the program it waits for has an outcome. A loop
that raises stops alone; that its task group then cancels the other loops of the
process is a `.crash` of the process. -/
def settle (env : Env) (name : String) : Control → Control
  | .fetching loop (.ret items) => takeNext env name loop items
  | .fetching loop (.raise error) => afterError loop error
  | .handling loop _ rest (.ret _) => takeNext env name loop rest
  | .handling _ _ _ (.raise _) => .stopped
  | .popping (.ret events) => publishNext events
  | .popping (.raise error) => afterError .scheduler error
  | .publishing _ rest (.ret _) => publishNext rest
  | .publishing _ _ (.raise error) => afterError .scheduler error
  | .serving _ (.ret _) => .stopped
  | .serving _ (.raise _) => .stopped
  | control => control

def next? : Control → Option ((o : Op) × (Except Exn o.Val → Control))
  | .fetching loop (.call o next) => some ⟨o, fun reply => .fetching loop (next reply)⟩
  | .handling loop item rest (.call o next) =>
    some ⟨o, fun reply => .handling loop item rest (next reply)⟩
  | .popping (.call o next) => some ⟨o, fun reply => .popping (next reply)⟩
  | .publishing event rest (.call o next) =>
    some ⟨o, fun reply => .publishing event rest (next reply)⟩
  | .serving request (.call o next) => some ⟨o, fun reply => .serving request (next reply)⟩
  | _ => none

def begin (env : Env) (name : String) : Loop → Control
  | .consumer => .fetching .consumer (Queue.read env name)
  | .recovery => .fetching .recovery (Queue.claimStale env name)
  | .scheduler => .popping (Queue.popDueRetries env.retryBatch)

def serve (env : Env) : Request → Control
  | .upload file documentType => .serving (.upload file documentType)
      (uploadDocument env file documentType)
  | .retry jobId => .serving (.retry jobId) (retryJob jobId)

def announce (t : Nat) : Control → List Observation
  | .fetching _ (.ret items) => items.map (.handedOut t)
  | .serving _ (.ret response) => [.answered t (.ok response)]
  | .serving _ (.raise error) => [.answered t (.error error)]
  | _ => []

end Control

inductive Label
  | tick (duration : Nat)
  | startWorker (proc : Nat) (name : String)
  | receive (proc : Nat) (request : Request)
  | iterate (t : Nat)
  | act (t : Nat) (choice : Choice)
  | crash (proc : Nat)

namespace System

def init : System where
  world :=
    { now := 0
      db := { documents := fun _ => none, jobs := fun _ => none, results := fun _ => none
              lock := fun _ => none }
      redis := { entries := [], lastDelivered := 0, pending := fun _ => none, retry := [] }
      files := fun _ => none
      uuids := 0
      sessions := 0
      claims := fun _ => none
      history := [] }
  threads := []

def context (t : Nat) (th : Thread) : Context where
  thread := t
  proc := th.proc
  item := th.control.item?

def act (env : Env) (s : System) (t : Nat) (th : Thread) (choice : Choice) : Option System :=
  match th.control.next? with
  | none => none
  | some ⟨o, next⟩ =>
    (o.execute env (context t th) s.world th.loc choice).map fun reply =>
      let reached := next reply.answer
      { world := reply.world.note (reached.announce t)
        threads := s.threads.set t
          { th with control := reached.settle env th.name, loc := reply.loc } }

/-- A crashed process loses its threads; the database ends their sessions. -/
def crash (s : System) (proc : Nat) : System :=
  let lock := fun jobId => (s.world.db.lock jobId).filter fun t =>
    (s.threads[t]?.map (·.proc)) ≠ some proc
  { world := { s.world with db := { s.world.db with lock := lock } }
    threads := s.threads.map fun th =>
      if th.proc = proc then { th with control := .stopped, loc := {} } else th }

def step (env : Env) (s : System) : Label → Option System
  | .tick duration => some { s with world := { s.world with now := s.world.now + duration } }
  | .startWorker proc name => some { s with threads := s.threads ++
      [⟨proc, name, .idle .consumer, {}⟩, ⟨proc, name, .idle .recovery, {}⟩,
        ⟨proc, name, .idle .scheduler, {}⟩] }
  | .receive proc request =>
    some { s with threads := s.threads ++ [⟨proc, "", Control.serve env request, {}⟩] }
  | .iterate t =>
    match s.threads[t]? with
    | none => none
    | some th =>
      match th.control with
      | .idle loop =>
        some { s with threads := s.threads.set t { th with control := .begin env th.name loop } }
      | _ => none
  | .act t choice =>
    match s.threads[t]? with
    | none => none
    | some th => s.act env t th choice
  | .crash proc => some (s.crash proc)

def call? (s : System) (t : Nat) : Option (Thread × Op) :=
  s.threads[t]?.bind fun th => th.control.next?.map fun call => (th, call.1)

def commits (s : System) : Label → Option Write
  | .act t choice => (s.call? t).bind fun call => call.1.loc.commits call.2 choice
  | _ => none

end System

abbrev Guard := System → Label → System → Prop

/-- The states reached by runs whose steps all satisfy the guard. -/
abbrev Reached (env : Env) (guard : Guard) : System → Prop :=
  Transition.Reach (System.step env) System.init guard

def anyRun : Guard := fun _ _ _ => True

theorem Reached.exists_run (env : Env) (guard : Guard) (check : System → Label → System → Bool)
    (accept : System → Bool) (sound : ∀ s label s', check s label s' = true → guard s label s')
    (labels : List Label) (run : (Transition.runChecked (System.step env) check labels
      System.init).any accept = true) : ∃ s, Reached env guard s ∧ accept s = true :=
  Transition.Reach.exists_of_runChecked check accept sound labels run

/-- A deployment in which a run can be evaluated: default settings, one clock,
and a gate that lets one small file through. -/
def sampleEnv : Env where
  settings := {}
  skew _ := 0
  storageRoot := ["data"]
  sha256Hex _ := "sum"
  uploadGate _ := .ok { data := [65], filename := "a.txt", extension := ".txt" }
  extractText _ _ := .ok ['A']

/-- `n` calls of a thread that all succeed. -/
def Label.oks (t n : Nat) : List Label := List.replicate n (.act t .ok)

def sampleUpload : Request := .upload ⟨none, none, []⟩ (some .generic)

def sampleExtraction : Choice := .extracted
  { documentType := .generic, data := .null, modelProvider := "p", modelName := "m"
    promptVersion := "v1" }

def sampleTimeout : Choice := .fails (.app { kind := .llmTimeout, message := "" })

def Label.timedOut (t : Nat) : List Label :=
  [.iterate t] ++ Label.oks t 8 ++ [.act t sampleTimeout] ++ Label.oks t 2 ++
    [.act t (.drawn 0)] ++ Label.oks t 7

end DocumentPipeline

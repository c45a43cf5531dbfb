import DocumentPipeline.Database

/-! The Redis stream with its consumer group and pending entries list, and the
sorted set of delayed retries. The id of a stream entry is its position in the
append-only log. XREADGROUP hands out the entries after the group's
last-delivered position with delivery count one; XCLAIM without JUSTID adds one
to the counter, resets the idle time and skips entries idle for less than
`min_idle_time`; XACK removes an entry whichever consumer holds it. -/

namespace DocumentPipeline

/-- A serialised event, or text that does not validate as one. -/
inductive Payload
  | event (event : DocumentProcessingEvent)
  | junk (text : String)
  deriving DecidableEq

/-- The field mapping of an entry; `data` is the field named by PAYLOAD_FIELD. -/
structure StreamFields where
  data : Option Payload
  deriving DecidableEq

structure PendingEntry where
  consumer : String
  deliveredAt : Time
  timesDelivered : Nat
  deriving DecidableEq

structure Redis where
  entries : List StreamFields
  lastDelivered : Nat
  pending : Nat → Option PendingEntry
  retry : List (Payload × ℚ)

inductive RedisOp
  | xadd (fields : StreamFields)
  | zadd (member : Payload) (score : ℚ)
  | popDueRetries (now : ℚ) (limit : Nat)
  | xreadgroup (consumer : String) (count : Int)
  | xpendingRange (count : Int) (idle : Int)
  | xclaim (consumer : String) (minIdleTime : Int) (messageIds : List Nat)
  | xack (messageId : Nat)

@[reducible] def RedisOp.Val : RedisOp → Type
  | .xadd _ => Nat
  | .popDueRetries .. => List Payload
  | .xreadgroup .. | .xclaim .. => List (Nat × StreamFields)
  | .xpendingRange .. => List (Nat × Nat)
  | .zadd .. | .xack _ => Unit

namespace Redis

/-- Insert by score, after the members of equal score. -/
def insertDue (member : Payload) (score : ℚ) : List (Payload × ℚ) → List (Payload × ℚ)
  | [] => [(member, score)]
  | entry :: rest =>
    if score < entry.2 then (member, score) :: entry :: rest
    else entry :: insertDue member score rest

/-- The entry is pending and has been idle for at least `minIdle` milliseconds. -/
def idleFor (now : Time) (minIdle : Int) (pending : Option PendingEntry) : Bool :=
  match pending with
  | none => false
  | some entry => millis minIdle ≤ now - entry.deliveredAt

def undelivered (r : Redis) (count : Int) : List StreamFields :=
  (r.entries.drop r.lastDelivered).take count.toNat

def claimable (now : Time) (r : Redis) (minIdle : Int) (ids : List Nat) : List Nat :=
  ids.filter fun id => idleFor now minIdle (r.pending id)

def due (r : Redis) (now : ℚ) (limit : Nat) : List (Payload × ℚ) :=
  (r.retry.takeWhile fun entry => entry.2 ≤ now).take limit

structure Reply (o : RedisOp) where
  redis : Redis
  value : o.Val

def run (now : Time) (r : Redis) : (o : RedisOp) → Reply o
  | .xadd fields => ⟨{ r with entries := r.entries ++ [fields] }, r.entries.length⟩
  | .zadd member score =>
    ⟨{ r with retry := insertDue member score (r.retry.filter fun entry => entry.1 ≠ member) }, ()⟩
  | .popDueRetries clock limit =>
    let due := r.due clock limit
    ⟨{ r with retry := r.retry.drop due.length }, due.map (·.1)⟩
  | .xreadgroup consumer count =>
    let fresh := r.undelivered count
    ⟨{ r with
        lastDelivered := r.lastDelivered + fresh.length
        pending := fun id =>
          if r.lastDelivered ≤ id ∧ id < r.lastDelivered + fresh.length
          then some ⟨consumer, now, 1⟩ else r.pending id },
      fresh.mapIdx fun i fields => (r.lastDelivered + i, fields)⟩
  | .xpendingRange count idle =>
    ⟨r, ((List.range r.entries.length).filterMap fun id =>
      if idleFor now idle (r.pending id)
      then (r.pending id).map fun entry => (id, entry.timesDelivered) else none).take count.toNat⟩
  | .xclaim consumer minIdleTime messageIds =>
    let claimed := r.claimable now minIdleTime messageIds
    ⟨{ r with pending := fun id =>
        if id ∈ claimed
        then (r.pending id).map fun entry => ⟨consumer, now, entry.timesDelivered + 1⟩
        else r.pending id },
      claimed.filterMap fun id => r.entries[id]?.map fun fields => (id, fields)⟩
  | .xack messageId => ⟨{ r with pending := Function.update r.pending messageId none }, ()⟩

/-- Like the commands of the client, `none` when the environment's choice does
not fit: only `RedisError` and `OSError` are raised. -/
def execute (now : Time) (r : Redis) (o : RedisOp) : Choice → Option (Redis × Except Exn o.Val)
  | .ok => some ((r.run now o).redis, .ok (r.run now o).value)
  | .fails error => if error.isRedisFault then some (r, .error error) else none
  | .lost error => if error.isRedisFault then some ((r.run now o).redis, .error error) else none
  | _ => none

end Redis
end DocumentPipeline

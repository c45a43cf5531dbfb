import DocumentPipeline.Lib.Refinement
import DocumentPipeline.RowConsistency

/-! What the service is for, as one sequential machine: a board of jobs on which
whole operations act one after another. Each looks at the current row of its
job, checks what it has to check, and replaces the row. The board knows no
sessions, no stale versions and no lost replies. -/

namespace DocumentPipeline
open Transition JobService

def createdRow (jobId documentId : Nat) (maxRetries : Int) (now : Time) : ProcessingJob :=
  { id := jobId, documentId, status := .queued, retryCount := 0, maxRetries
    errorMessage := none, queuedAt := now, startedAt := none, completedAt := none
    processingDurationMs := none, consumerName := none, createdAt := now }

abbrev JobBoard := Nat → Option ProcessingJob

/-- A change of one row, as the history of the service records it. -/
structure Change where
  jobId : Nat
  before : Option JobStatus
  after : JobStatus
  deriving DecidableEq

namespace JobBoard

def empty : JobBoard := fun _ => none

def put (board : JobBoard) (row : ProcessingJob) : JobBoard :=
  Function.update board row.id (some row)

/-- One operation on the board, by the change it makes. -/
inductive Turn (settings : Settings) (board : JobBoard) : Change → JobBoard → Prop
  | created (jobId documentId : Nat) (now : Time) (absent : board jobId = none) :
      Turn settings board ⟨jobId, none, .queued⟩
        (board.put (createdRow jobId documentId settings.maxRetries now))
  | claimed {row : ProcessingJob} (consumerName : String) (now : Time)
      (current : board row.id = some row)
      (claimable : claimMatches row (now - seconds settings.staleProcessingSeconds) = true) :
      Turn settings board ⟨row.id, some row.status, .processing⟩
        (board.put (row.claimed consumerName now))
  | completed {row : ProcessingJob} (now : Time) (current : board row.id = some row)
      (allowed : isTransitionAllowed row.status .completed = true) :
      Turn settings board ⟨row.id, some row.status, .completed⟩ (board.put (completedRow row now))
  | retried {row : ProcessingJob} (errorMessage : String) (current : board row.id = some row)
      (allowed : isTransitionAllowed row.status .retrying = true)
      (left : row.retryCount < row.maxRetries) :
      Turn settings board ⟨row.id, some row.status, .retrying⟩
        (board.put (retryingRow row errorMessage))
  | failed {row : ProcessingJob} (errorMessage : String) (now : Time)
      (current : board row.id = some row)
      (allowed : isTransitionAllowed row.status .failed = true) :
      Turn settings board ⟨row.id, some row.status, .failed⟩
        (board.put (failedRow row errorMessage now))
  | requeued {row : ProcessingJob} (now : Time) (current : board row.id = some row)
      (allowed : isTransitionAllowed row.status .queued = true) :
      Turn settings board ⟨row.id, some row.status, .queued⟩ (board.put (requeuedRow row now))

end JobBoard

def changesOf (jobId : Nat) (changes : List Change) : List Change :=
  changes.filter fun change => change.jobId = jobId

/-- The retries of a job since it was last put into the queue. -/
def retriesSinceQueued (jobId : Nat) (changes : List Change) : Nat :=
  ((changesOf jobId changes).takeWhile fun change => change.after ≠ .queued).countP
    fun change => change.after = .retrying

def Change.counts (change : Change) (retries : Nat) : Nat :=
  match change.after with
  | .queued => 0
  | .retrying => retries + 1
  | _ => retries

theorem changesOf_other {jobId : Nat} {change : Change} (other : change.jobId ≠ jobId)
    (changes : List Change) : changesOf jobId (change :: changes) = changesOf jobId changes := by
  simp only [changesOf, List.filter_cons, other, decide_false, Bool.false_eq_true, if_false]

theorem changesOf_own (change : Change) (changes : List Change) :
    changesOf change.jobId (change :: changes) = change :: changesOf change.jobId changes := by
  simp only [changesOf, List.filter_cons, decide_true, if_true]

theorem retriesSinceQueued_other {jobId : Nat} {change : Change} (other : change.jobId ≠ jobId)
    (changes : List Change) :
    retriesSinceQueued jobId (change :: changes) = retriesSinceQueued jobId changes := by
  simp only [retriesSinceQueued, changesOf_other other]

theorem retriesSinceQueued_own (change : Change) (changes : List Change) :
    retriesSinceQueued change.jobId (change :: changes) =
      change.counts (retriesSinceQueued change.jobId changes) := by
  simp only [retriesSinceQueued, changesOf_own, Change.counts]
  cases after : change.after <;> simp [after]

namespace JobBoard

/-- What a row says about the changes that have led to it. -/
structure Tells (changes : List Change) (row : ProcessingJob) : Prop where
  invariant : row.RowInvariant
  retryCount : row.retryCount = retriesSinceQueued row.id changes
  status : (changesOf row.id changes).head?.map (·.after) = some row.status

def Told (changes : List Change) (board : JobBoard) : Prop :=
  ∀ jobId row, board jobId = some row → row.id = jobId ∧ Tells changes row

theorem Told.put {changes : List Change} {board : JobBoard} (told : Told changes board)
    {change : Change} {row : ProcessingJob} (same : change.jobId = row.id)
    (after : change.after = row.status) (invariant : row.RowInvariant)
    (counted : row.retryCount = change.counts (retriesSinceQueued row.id changes)) :
    Told (change :: changes) (board.put row) := by
  intro jobId other found
  by_cases own : jobId = row.id
  · subst own
    rw [JobBoard.put, Function.update_self] at found
    cases found
    refine ⟨rfl, invariant, ?_, ?_⟩
    · rw [counted, ← same, retriesSinceQueued_own]
    · rw [← same, changesOf_own, List.head?_cons, Option.map_some, after]
  · rw [JobBoard.put, Function.update_of_ne own] at found
    obtain ⟨rfl, tells⟩ := told jobId other found
    have apart : change.jobId ≠ other.id := fun is => own (is.symm.trans same)
    refine ⟨rfl, tells.invariant, ?_, ?_⟩
    · rw [retriesSinceQueued_other apart, tells.retryCount]
    · rw [changesOf_other apart, tells.status]

theorem Turn.told {settings : Settings} {changes : List Change} {board board' : JobBoard}
    {change : Change} (turn : Turn settings board change board') (told : Told changes board) :
    Told (change :: changes) board' := by
  cases turn with
  | created jobId documentId now absent =>
    exact told.put rfl rfl ⟨⟨rfl, rfl, rfl, rfl, rfl, rfl⟩, le_rfl, fun same => by cases same⟩ rfl
  | @claimed row consumerName now current claimable =>
    have tells := (told row.id row current).2
    exact told.put rfl rfl (tells.invariant.claimed now consumerName claimable) tells.retryCount
  | @completed row now current allowed =>
    have tells := (told row.id row current).2
    exact told.put rfl rfl (tells.invariant.completed now allowed) tells.retryCount
  | @retried row errorMessage current allowed left =>
    have tells := (told row.id row current).2
    refine told.put rfl rfl (tells.invariant.retrying errorMessage allowed) ?_
    change row.retryCount + 1 = ((retriesSinceQueued row.id changes + 1 : Nat) : Int)
    rw [tells.retryCount, Nat.cast_succ]
  | @failed row errorMessage now current allowed =>
    have tells := (told row.id row current).2
    exact told.put rfl rfl (tells.invariant.failed now errorMessage allowed) tells.retryCount
  | @requeued row now current allowed => exact told.put rfl rfl (.requeued now) rfl

/-- However operations follow one another, every row tells its past. -/
theorem told_of_trace {settings : Settings} {changes : List Change} {board : JobBoard}
    (trace : Trace (Turn settings) empty changes board) : Told changes board :=
  trace.invariant (I := Told) (fun _ _ found => by cases found) fun _ _ _ _ told turn => turn.told told

end JobBoard
end DocumentPipeline

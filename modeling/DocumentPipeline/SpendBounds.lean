import DocumentPipeline.OrderlyRetries
import DocumentPipeline.DeliveryCounts

/-! How often a job is worked on between two manual resets. A claim of a queued
or retrying row uses up one unit of what the retry count has paid for, a claim
of a stale row counts as a takeover, and every entry into `_run` was paid for by
a claim of either kind. -/

namespace DocumentPipeline
open EffectProgram Transition JobService

/-- What the history tells of one job: where a cycle begins, a claim with the
status it found, an entry into `_run`. -/
inductive Episode
  | begun
  | claimed (before : JobStatus)
  | entered
  deriving DecidableEq

def Observation.episodes (jobId : Nat) : Observation → List Episode
  | .created id => if id = jobId then [.begun] else []
  | .wrote _ id _ after => if id = jobId ∧ after = .queued then [.begun] else []
  | .claimed _ id before => if id = jobId then [.claimed before] else []
  | .ran _ item => if item.event.jobId = jobId then [.entered] else []
  | _ => []

/-- The episodes of a job, newest first. -/
def World.episodes (w : World) (jobId : Nat) : List Episode := w.history.flatMap (·.episodes jobId)

namespace Episode

/-- The episodes since the job was created or reset last. -/
def cycle (episodes : List Episode) : List Episode := episodes.takeWhile (· ≠ .begun)

def takesUp : Episode → Bool
  | .claimed before => before ≠ .processing
  | _ => false

/-- The claims of a queued or retrying row in the current cycle. -/
def takings (episodes : List Episode) : Nat := (cycle episodes).countP takesUp

/-- The claims of a stale row that was processing. -/
def takeovers (episodes : List Episode) : Nat := (cycle episodes).count (.claimed .processing)

def entries (episodes : List Episode) : Nat := (cycle episodes).count .entered

variable {episodes : List Episode}

@[simp] theorem cycle_claimed (before : JobStatus) :
    cycle (.claimed before :: episodes) = .claimed before :: cycle episodes := rfl

@[simp] theorem cycle_entered : cycle (.entered :: episodes) = .entered :: cycle episodes := rfl

theorem takings_claimed {before : JobStatus} (fresh : before ≠ .processing) :
    takings (.claimed before :: episodes) = takings episodes + 1 := by
  have taking : takesUp (.claimed before) = true := decide_eq_true fresh
  rw [takings, cycle_claimed, List.countP_cons_of_pos taking]
  rfl

theorem takings_stale : takings (.claimed .processing :: episodes) = takings episodes := by
  rw [takings, cycle_claimed, List.countP_cons_of_neg (by decide)]
  rfl

theorem takeovers_claimed {before : JobStatus} (fresh : before ≠ .processing) :
    takeovers (.claimed before :: episodes) = takeovers episodes := by
  rw [takeovers, cycle_claimed, List.count_cons_of_ne fun same => fresh (Episode.claimed.inj same)]
  rfl

theorem takeovers_stale : takeovers (.claimed .processing :: episodes) = takeovers episodes + 1 := by
  rw [takeovers, cycle_claimed, List.count_cons_self]
  rfl

theorem entries_claimed (before : JobStatus) :
    entries (.claimed before :: episodes) = entries episodes := by
  rw [entries, cycle_claimed, List.count_cons_of_ne fun same => (by cases same)]
  rfl

theorem entries_entered : entries (.entered :: episodes) = entries episodes + 1 := by
  rw [entries, cycle_entered, List.count_cons_self]
  rfl

end Episode
open Episode

/-- The claims that a row's retry count has paid for. -/
def ProcessingJob.paidFor (row : ProcessingJob) : Int :=
  match row.status with
  | .queued => 0
  | .retrying => row.retryCount
  | _ => row.retryCount + 1

/-- In every cycle, complete or not, `_run` is entered no more often than the
retry limit and the takeovers allow. -/
def SpendCapped (limit : Int) (episodes : List Episode) : Prop :=
  ∀ earlier, earlier <:+ episodes → (entries earlier : Int) ≤ 1 + max 0 limit + takeovers earlier

/-- A claim of the current cycle has not led into `_run` yet. -/
def Prepaid (episodes : List Episode) : Prop :=
  entries episodes + 1 ≤ takings episodes + takeovers episodes

theorem Prepaid.of_claim {episodes : List Episode} {before : JobStatus}
    (h : entries episodes ≤ takings episodes + takeovers episodes) :
    Prepaid (.claimed before :: episodes) := by
  unfold Prepaid
  rw [entries_claimed]
  by_cases stale : before = .processing
  · rw [stale, takings_stale, takeovers_stale]
    omega
  · rw [takings_claimed stale, takeovers_claimed stale]
    omega

structure Budgeted (env : Env) (row : ProcessingJob) (episodes : List Episode) : Prop where
  snapshot : row.maxRetries = env.settings.maxRetries
  nonneg : 0 ≤ row.retryCount
  capped : row.retryCount ≤ max 0 row.maxRetries
  takings : (takings episodes : Int) ≤ row.paidFor
  entries : entries episodes ≤ Episode.takings episodes + takeovers episodes
  spent : SpendCapped row.maxRetries episodes

namespace Budgeted
variable {env : Env} {base row : ProcessingJob} {episodes : List Episode}

theorem paidFor_le (nonneg : 0 ≤ row.retryCount) : row.paidFor ≤ row.retryCount + 1 := by
  unfold ProcessingJob.paidFor
  split <;> omega

theorem spend {episode : Episode} (snapshot : row.maxRetries = env.settings.maxRetries)
    (nonneg : 0 ≤ row.retryCount) (capped : row.retryCount ≤ max 0 row.maxRetries)
    (takings : (Episode.takings (episode :: episodes) : Int) ≤ row.paidFor)
    (entries : Episode.entries (episode :: episodes) ≤
      Episode.takings (episode :: episodes) + takeovers (episode :: episodes))
    (spent : SpendCapped row.maxRetries episodes) : Budgeted env row (episode :: episodes) := by
  refine ⟨snapshot, nonneg, capped, takings, entries, fun earlier within => ?_⟩
  obtain rfl | older := List.suffix_cons_iff.mp within
  · have paid := paidFor_le nonneg
    omega
  · exact spent earlier older

theorem begin (snapshot : row.maxRetries = env.settings.maxRetries) (queued : row.status = .queued)
    (fresh : row.retryCount = 0) (spent : SpendCapped row.maxRetries episodes) :
    Budgeted env row (.begun :: episodes) := by
  refine spend snapshot fresh.ge ?_ ?_ le_rfl spent
  · rw [fresh]
    exact le_max_left ..
  · rw [ProcessingJob.paidFor, queued]
    exact le_rfl

theorem claim (h : Budgeted env base episodes) {name : String} {now : Time}
    (claimable : base.status ∈ claimableStatuses ∨ base.status = .processing) :
    Budgeted env (base.claimed name now) (.claimed base.status :: episodes) := by
  have entries := h.entries
  have takings := h.takings
  obtain fresh | stale := claimable
  · obtain ⟨apart, paid⟩ : base.status ≠ .processing ∧ base.paidFor ≤ base.retryCount := by
      simp only [claimableStatuses, List.mem_cons, List.not_mem_nil, or_false] at fresh
      unfold ProcessingJob.paidFor
      obtain status | status := fresh <;> rw [status]
      · exact ⟨fun same => (by cases same), h.nonneg⟩
      · exact ⟨fun same => (by cases same), le_rfl⟩
    refine spend h.snapshot h.nonneg h.capped ?_ ?_ h.spent
    · rw [takings_claimed apart]
      change ((Episode.takings episodes + 1 : ℕ) : ℤ) ≤ base.retryCount + 1
      omega
    · rw [takings_claimed apart, takeovers_claimed apart, entries_claimed]
      omega
  · have paid : base.paidFor = base.retryCount + 1 := by rw [ProcessingJob.paidFor, stale]
    rw [stale]
    refine spend h.snapshot h.nonneg h.capped ?_ ?_ h.spent
    · rw [takings_stale]
      change (Episode.takings episodes : ℤ) ≤ base.retryCount + 1
      exact paid ▸ takings
    · rw [takings_stale, takeovers_stale, entries_claimed]
      omega

/-- An entry into `_run` needs a claim that is not used up. -/
theorem enter (h : Budgeted env row episodes)
    (prepaid : Prepaid episodes) : Budgeted env row (.entered :: episodes) := by
  refine spend h.snapshot h.nonneg h.capped h.takings ?_ h.spent
  rw [entries_entered]
  exact prepaid

theorem mark (h : Budgeted env base episodes) (snapshot : row.maxRetries = base.maxRetries)
    (nonneg : 0 ≤ row.retryCount) (capped : row.retryCount ≤ max 0 row.maxRetries)
    (paid : base.paidFor ≤ row.paidFor) : Budgeted env row episodes where
  snapshot := snapshot.trans h.snapshot
  nonneg := nonneg
  capped := capped
  takings := h.takings.trans paid
  entries := h.entries
  spent := snapshot ▸ h.spent

end Budgeted

def Write.episodes (jobId : Nat) : Write → List Episode
  | .insert row => if row.id = jobId then [.begun] else []
  | .claim base row => if row.id = jobId then [.claimed base.status] else []
  | .update _ _ row => if row.id = jobId ∧ row.status = .queued then [.begun] else []

def DeliveredEvent.episodes (jobId : Nat) (item : DeliveredEvent) : List Episode :=
  if item.event.jobId = jobId then [.entered] else []

section Episodes
variable {env : Env} {x : Staged} {t : Nat} {choice : Choice}

theorem observes_episodes (ctx : Context) (w : World) (loc : Local) (o : Op) (jobId : Nat) :
    (o.observes ctx w loc choice).flatMap (·.episodes jobId) =
      (loc.commits o choice).elim [] (·.episodes jobId) ++
        (o.enters ctx).flatMap (·.episodes jobId) := by
  have faults : (choice.faults ctx).flatMap (·.episodes jobId) = [] := by cases choice <;> rfl
  cases o with
  | runtime o =>
    cases o <;> first | rfl | skip
    simp only [Op.observes, Op.enters, Local.commits]
    cases ctx.item <;> rfl
  | db o =>
    simp only [Op.observes, List.flatMap_append, faults, List.nil_append, Op.enters,
      List.flatMap_nil, List.append_nil]
    cases loc.commits (.db o) choice with
    | none => rfl
    | some write => cases write <;> exact List.append_nil _
  | redis o =>
    refine List.flatMap_eq_nil_iff.mpr fun observation mem => ?_
    obtain fault | mem := List.mem_append.mp mem
    · rw [mem_faults fault]
      rfl
    · obtain ⟨fields, event, -, -, rfl | ⟨-, rfl⟩⟩ | ⟨event, score, -, -, rfl⟩ |
        ⟨clock, limit, event, due, -, -, rfl⟩ | ⟨id, rfl⟩ := mem_redis_observes mem <;> rfl

theorem episodes_call (call : Call env x t choice) (jobId : Nat) :
    call.world'.episodes jobId = ((call.thread.loc.commits call.o choice).elim [] (·.episodes jobId) ++
      (call.o.enters (System.context t call.thread)).flatMap (·.episodes jobId)) ++
        x.1.world.episodes jobId := by
  have announced : (call.reached.announce t).flatMap (·.episodes jobId) = [] :=
    List.flatMap_eq_nil_iff.mpr fun observation mem => by
      obtain ⟨item, rfl⟩ | ⟨answer, rfl⟩ := mem_announce mem <;> rfl
  simp only [World.episodes, call.history, List.flatMap_append, announced, observes_episodes,
    List.nil_append]

theorem episodes_quiet (call : Call env x t choice)
    (quiet : call.thread.loc.commits call.o choice = none) (other : call.o ≠ .runtime .enterRun)
    (jobId : Nat) : call.world'.episodes jobId = x.1.world.episodes jobId := by
  rw [episodes_call, quiet, Op.enters_eq_nil other]
  rfl

theorem episodes_commit (call : Call env x t choice) {write : Write}
    (committed : call.thread.loc.commits call.o choice = some write) (jobId : Nat) :
    call.world'.episodes jobId = write.episodes jobId ++ x.1.world.episodes jobId := by
  rw [episodes_call, committed, Op.enters_eq_nil (by
    rw [(commits_write committed).1]
    exact fun same => (by cases same))]
  simp only [Option.elim_some, List.flatMap_nil, List.append_nil]

theorem Write.episodes_other {write : Write} {jobId : Nat} (other : jobId ≠ write.row.id) :
    write.episodes jobId = [] := by
  cases write with
  | update loaded base row => exact if_neg fun same => other same.1.symm
  | _ => exact if_neg (Ne.symm other)

end Episodes

theorem ProcessingJob.flushed_retryCount (current stored : ProcessingJob) :
    (stored.flushed current stored).retryCount = current.retryCount := by
  unfold flushed
  dsimp only
  split
  · exact Eq.symm ‹_›
  · rfl

inductive Marks (base : ProcessingJob) : ProcessingJob → Prop
  | ended {current : ProcessingJob} (terminal : current.status = .completed ∨ current.status = .failed)
      (same : current.retryCount = base.retryCount) : Marks base (base.flushed current base)
  | retrying (message : String) (remaining : base.retryCount < base.maxRetries) :
      Marks base (base.flushed (retryingRow base message) base)

theorem Owned.marking {env : Env} {x : Staged} {t : Nat} {choice : Choice} (owned : Owned env x)
    (locked : Locked x) (call : Call env x t choice) {item : DeliveredEvent} {stage : AttemptStage}
    (is : AttemptCall call item stage) {loaded base row : ProcessingJob}
    (pending : call.thread.loc.tx.write = some (.update loaded base row)) :
    base.status = .processing ∧ Marks base row := by
  obtain ⟨win, opened, owner⟩ := owned.own_window call is pending
  obtain ⟨stored, isStored, owns, agrees⟩ := owned.rows t _ win call.found opened
  have based : x.1.world.db.jobs row.id = some base := locked.based t _ _ call.found pending
  rw [owner] at isStored
  cases based.symm.trans isStored
  refine ⟨owns.status, ?_⟩
  have writes := is.facts.write
  have sound := is.facts.sound
  have staged := is.staged
  rw [pending] at writes
  cases stage <;> first | exact writes.elim | skip
  · obtain ⟨rfl, -, rfl⟩ := writes
    obtain ⟨-, -, now, rfl⟩ := sound
    cases agrees _ _ staged rfl
    exact .ended (.inl rfl) rfl
  · obtain ⟨rfl, -, rfl⟩ := writes
    obtain ⟨-, -, now, rfl⟩ := sound
    cases agrees _ _ staged rfl
    exact .ended (.inl rfl) rfl
  · obtain ⟨rfl, -, rfl⟩ := writes
    cases agrees _ _ staged rfl
    rename_i event
    cases event with
    | none =>
      obtain ⟨-, -, message, now, rfl⟩ := sound
      exact .ended (.inr rfl) rfl
    | some event =>
      obtain ⟨-, -, remaining, ⟨message, rfl⟩, -⟩ := sound
      exact .retrying message remaining

theorem Budgeted.marks {env : Env} {base row : ProcessingJob} {episodes : List Episode}
    (h : Budgeted env base episodes) (processing : base.status = .processing)
    (marks : Marks base row) : Budgeted env row episodes := by
  have paid : base.paidFor = base.retryCount + 1 := by rw [ProcessingJob.paidFor, processing]
  cases marks with
  | @ended current terminal same =>
    have moved : current.status ≠ base.status := by
      rw [processing]
      obtain status | status := terminal <;> rw [status] <;> exact fun same => (by cases same)
    have count := (ProcessingJob.flushed_retryCount current base).trans same
    refine h.mark rfl (count ▸ h.nonneg) (count ▸ h.capped) ?_
    rw [paid, ProcessingJob.paidFor, ProcessingJob.flushed_status moved, count]
    obtain status | status := terminal <;> rw [status]
  | retrying message remaining =>
    have moved : (retryingRow base message).status ≠ base.status := by
      rw [processing]
      exact fun same => (by cases same)
    have count := ProcessingJob.flushed_retryCount (retryingRow base message) base
    have nonneg := h.nonneg
    change _ = base.retryCount + 1 at count
    refine h.mark rfl (by omega) ?_ ?_
    · change _ ≤ max 0 base.maxRetries
      omega
    · rw [paid, ProcessingJob.paidFor, ProcessingJob.flushed_status moved, count]
      exact le_rfl

namespace AttemptStage

/-- The job is claimed and `_run` not yet entered. -/
def entering : AttemptStage → Bool
  | .owned | .loaded _ => true
  | _ => false

theorem next_entering {env : Env} {name : String} {item : DeliveredEvent} {stage : AttemptStage}
    {o : Op} {answer : Except Exn o.Val} (permitted : stage.permits env name item o)
    (h : (stage.next item o answer).entering = true) :
    stage.entering = true ∧ o ≠ .db .commit ∧ o ≠ .runtime .enterRun ∨
      (∃ now, stage = .matched now) ∧ o = .db .commit := by
  cases o with
  | runtime o =>
    obtain ⟨rfl, rfl⟩ | ⟨row, rfl, rfl, -⟩ | ⟨row, rfl, rfl, -⟩ | ⟨-, same, other⟩ :=
      permits_runtime permitted
    · cases answer <;> cases h
    · cases h
    · cases answer <;> cases h
    · rw [same] at h
      exact .inl ⟨h, fun isOp => (by cases isOp), fun isOp => other (Op.runtime.inj isOp)⟩
  | redis o =>
    obtain ⟨row, eventId, score, rfl, rfl⟩ | ⟨how, rfl, rfl⟩ := permits_redis permitted
    · cases answer <;> cases h
    · cases h
  | db o =>
    cases o with
    | commit =>
      obtain ⟨now, rfl⟩ | ⟨row, current, rfl⟩ | ⟨row, current, event, rfl⟩ := permits_commit permitted
      · exact .inr ⟨⟨now, rfl⟩, rfl⟩
      · cases answer <;> cases h
      · cases answer <;> cases h
    | selectJob id =>
      obtain ⟨rfl | rfl, -⟩ := permits_selectJob permitted
      · exact .inl ⟨rfl, fun isOp => (by cases isOp), fun isOp => (by cases isOp)⟩
      · rcases answer with _ | _ | _ <;> cases h
    | updateJob row current =>
      have flush := permits_updateJob permitted
      cases stage <;> first | exact flush.elim | (cases answer <;> cases h)
    | closeSession => cases stage <;> cases h
    | executeClaim _ _ _ _ =>
      obtain ⟨rfl, -⟩ := permits_executeClaim permitted
      rcases answer with _ | _ | _ <;> cases h
    | insertResult _ =>
      obtain ⟨row, current, rfl, -⟩ := permits_insertResult permitted
      cases answer <;> cases h
    | rollback =>
      obtain rfl | ⟨row, rfl⟩ | rfl | rfl := permits_rollback permitted
      all_goals cases answer <;> cases h
    | _ => cases stage <;> first | exact permitted.elim | cases h

end AttemptStage

theorem AttemptLocal.entering {env : Env} {name : String} {item : DeliveredEvent}
    {stage : AttemptStage} {loc : Local} (h : AttemptLocal env name item stage loc)
    (entering : stage.entering = true) :
    ∃ win, loc.window = some win ∧ win.jobId = item.event.jobId := by
  have windows := h.window
  cases stage <;> cases entering
  all_goals
    obtain ⟨startedAt, opened⟩ := windows
    exact ⟨_, opened, rfl⟩

theorem Consistent.handling {env : Env} {x : Staged} (consistent : Consistent env x) {t : Nat}
    {th : Thread} {item : DeliveredEvent} {stage : AttemptStage} (found : x.1.threads[t]? = some th)
    (handles : th.control.item? = some item) (staged : x.2 t = .attempt stage) :
    AttemptLocal env th.name item stage th.loc := by
  have facts := consistent.locals t th found
  cases control : th.control with
  | handling loop item' rest p =>
    rw [control] at handles facts
    cases handles
    rw [staged] at facts
    exact facts
  | _ =>
    rw [control] at handles
    cases handles

/-- Every cycle keeps within its budget, and a claimed attempt that has not
entered `_run` has been paid for. -/
structure Spending (env : Env) (x : Staged) : Prop where
  unborn : ∀ jobId, x.1.world.db.jobs jobId = none → x.1.world.episodes jobId = []
  rows : ∀ jobId row, x.1.world.db.jobs jobId = some row →
    Budgeted env row (x.1.world.episodes jobId)
  entering : ∀ (t : Nat) (th : Thread) (item : DeliveredEvent) (stage : AttemptStage),
    x.1.threads[t]? = some th → th.control.item? = some item → x.2 t = .attempt stage →
      stage.entering = true → Prepaid (x.1.world.episodes item.event.jobId)

namespace Spending
variable {env : Env} {x : Staged} {t : Nat} {choice : Choice}

theorem write_budget (spending : Spending env x) (owned : Owned env x) (undisputed : Undisputed x)
    (consistent : Consistent env x) (locked : Locked x) (call : Call env x t choice) {write : Write}
    (committed : call.thread.loc.commits call.o choice = some write) :
    Budgeted env write.row (call.world'.episodes write.row.id) := by
  have pending := (commits_write committed).2
  have based := locked.based t _ _ call.found pending
  rw [episodes_commit call committed]
  cases write with
  | insert row =>
    have own : Write.episodes row.id (.insert row) = [.begun] := if_pos rfl
    have unborn : x.1.world.episodes row.id = [] := spending.unborn row.id based
    change Budgeted env row (Write.episodes row.id (.insert row) ++ x.1.world.episodes row.id)
    rw [own, unborn]
    obtain ⟨request, held, is, now, rfl⟩ : ∃ request held, RequestCall call request (.inserted held) ∧
        ∃ now, row = { held with queuedAt := now, createdAt := now } := by
      obtain ⟨item, stage, is⟩ | ⟨request, stage, is⟩ | ⟨task, stage, is⟩ := consistent.kind call
      · have writes := is.facts.write
        rw [pending] at writes
        exact writes.elim
      · have writes := is.facts.write
        rw [pending] at writes
        cases stage <;> first | exact writes.elim | exact ⟨request, _, is, writes⟩
      · rw [is.facts.tx] at pending
        cases pending
    obtain ⟨fresh, -⟩ := is.facts.sound
    refine .begin fresh.maxRetries fresh.status fresh.retryCount fun earlier within => ?_
    rw [List.suffix_nil.mp within]
    change (0 : ℤ) ≤ 1 + max 0 _ + 0
    omega
  | claim base row =>
    obtain ⟨item, now, is⟩ := consistent.claiming call pending
    obtain ⟨-, claimable⟩ := consistent.lawful call.found pending
    have writes := is.facts.write
    rw [pending] at writes
    obtain ⟨-, rfl, -⟩ := writes
    have own : Write.episodes base.id (.claim base (base.claimed call.thread.name now)) =
        [.claimed base.status] := if_pos rfl
    change Budgeted env (base.claimed call.thread.name now) (Write.episodes base.id _ ++ _)
    rw [own]
    exact (spending.rows _ base based).claim claimable
  | update loaded base row =>
    have before := spending.rows row.id base based
    obtain ⟨item, stage, is⟩ | ⟨request, stage, is⟩ | ⟨task, stage, is⟩ := consistent.kind call
    · obtain ⟨processing, marks⟩ := owned.marking locked call is pending
      have own : Write.episodes row.id (.update loaded base row) = [] :=
        if_neg fun same => is.marks pending same.2
      change Budgeted env row (Write.episodes row.id (.update loaded base row) ++ _)
      rw [own]
      exact before.marks processing marks
    · obtain ⟨-, rfl, failed, now, rfl⟩ := undisputed.resetting locked is pending
      have moved : (requeuedRow base now).status ≠ base.status := by
        rw [failed]
        exact fun same => (by cases same)
      have queued := ProcessingJob.flushed_status moved base
      have own : Write.episodes base.id (.update base base (base.flushed (requeuedRow base now) base)) =
          [.begun] := if_pos ⟨rfl, queued⟩
      change Budgeted env (base.flushed (requeuedRow base now) base) (Write.episodes base.id _ ++ _)
      rw [own]
      exact .begin before.snapshot queued (ProcessingJob.flushed_retryCount ..) before.spent
    · rw [is.facts.tx] at pending
      cases pending

/-- An attempt that is about to enter `_run` was so before, or commits its claim. -/
theorem entering_from (consistent : Consistent env x) (call : Call env x t choice) {t' : Nat}
    {th' : Thread} {item : DeliveredEvent} {stage : AttemptStage}
    (found : call.result.1.threads[t']? = some th') (handles : th'.control.item? = some item)
    (staged : call.result.2 t' = .attempt stage) (entering : stage.entering = true) :
    (∃ th stage', x.1.threads[t']? = some th ∧ th.control.item? = some item ∧
      x.2 t' = .attempt stage' ∧ stage'.entering = true ∧
        (t' = t → call.o ≠ .db .commit ∧ call.o ≠ .runtime .enterRun)) ∨
      call.o = .db .commit ∧ t' = t ∧ ∃ now, AttemptCall call item (.matched now) := by
  obtain ⟨rfl, rfl⟩ | ⟨other, isFound⟩ := call.threads_result found
  · rw [call.own_stage] at staged
    obtain ⟨event, stage', is⟩ | ⟨request, stage', is⟩ | ⟨task, stage', is⟩ := consistent.kind call
    · obtain ⟨goes, control'⟩ | ⟨idle, goes⟩ := is.goes
      · cases goes.symm.trans staged
        obtain ⟨loop, rest, p, p', control, reached⟩ := is.control
        rw [control', reached] at handles
        cases handles
        obtain ⟨before, apart⟩ | ⟨⟨now, rfl⟩, isCommit⟩ :=
          AttemptStage.next_entering is.permitted entering
        · exact .inl ⟨_, stage', call.found, by rw [control]; rfl, is.staged, before, fun _ => apart⟩
        · exact .inr ⟨isCommit, rfl, now, is⟩
      · cases Control.first_attempt (goes.symm.trans staged)
        cases entering
    · obtain ⟨goes, -⟩ | ⟨-, goes, -⟩ := is.goes <;> cases goes.symm.trans staged
    · obtain ⟨goes, -⟩ | goes := is.goes
      · cases goes.symm.trans staged
      · cases Control.first_attempt (goes.symm.trans staged)
        cases entering
  · rw [call.other_stage other] at staged
    exact .inl ⟨th', stage, isFound, handles, staged, entering, fun same => absurd same other⟩

/-- A commit is made to no job that another attempt has claimed and not left. -/
theorem entering_commit (spending : Spending env x) (owned : Owned env x) (consistent : Consistent env x)
    (locked : Locked x) (call : Call env x t choice)
    (api : apiOffWindow x.1 (.act t choice) = true) {write : Write}
    (committed : call.thread.loc.commits call.o choice = some write) (t' : Nat) (th' : Thread)
    (item : DeliveredEvent) (stage : AttemptStage) (found : call.result.1.threads[t']? = some th')
    (handles : th'.control.item? = some item) (staged : call.result.2 t' = .attempt stage)
    (entering : stage.entering = true) : Prepaid (call.world'.episodes item.event.jobId) := by
  obtain ⟨isCommit, pending⟩ := commits_write committed
  obtain ⟨th, stage', isFound, was, isStaged, before, own⟩ | ⟨-, -, now, is⟩ :=
    entering_from consistent call found handles staged entering
  · obtain ⟨win, opened, owner⟩ := (consistent.handling isFound was isStaged).entering before
    have other : t' ≠ t := fun same => (own same).1 isCommit
    have apart := (owned.commit_free consistent locked call api committed).2 t' th win other isFound opened
    rw [owner] at apart
    rw [episodes_commit call committed, Write.episodes_other apart]
    exact spending.entering t' th item stage' isFound was isStaged before
  · have writes := is.facts.write
    rw [pending] at writes
    cases write with
    | claim base row =>
      obtain ⟨keyed, rfl, -⟩ := writes
      have based : x.1.world.db.jobs base.id = some base := locked.based t _ _ call.found pending
      have claimed : Write.episodes base.id (.claim base (base.claimed call.thread.name now)) =
          [.claimed base.status] := if_pos rfl
      rw [← keyed, episodes_commit call committed, claimed]
      exact .of_claim (spending.rows _ base based).entries
    | _ => exact writes.elim

theorem commit (spending : Spending env x) (owned : Owned env x) (undisputed : Undisputed x)
    (consistent : Consistent env x) (locked : Locked x) (call : Call env x t choice)
    (api : apiOffWindow x.1 (.act t choice) = true) {write : Write}
    (committed : call.thread.loc.commits call.o choice = some write) : Spending env call.result := by
  have jobs : call.world'.db.jobs = _ := execute_jobs call.ran
  rw [committed] at jobs
  have apart : ∀ {jobId}, jobId ≠ write.row.id → call.world'.db.jobs jobId = x.1.world.db.jobs jobId ∧
      call.world'.episodes jobId = x.1.world.episodes jobId := fun other => by
    rw [jobs, episodes_commit call committed, Write.episodes_other other]
    exact ⟨Function.update_of_ne other _ _, rfl⟩
  have written : call.world'.db.jobs write.row.id = some write.row := by
    rw [jobs]
    exact Function.update_self ..
  refine ⟨fun jobId absent => ?_, fun jobId row found => ?_,
    spending.entering_commit owned consistent locked call api committed⟩
  · by_cases own : jobId = write.row.id
    · subst own
      cases written.symm.trans absent
    · exact (apart own).2.trans (spending.unborn jobId ((apart own).1.symm.trans absent))
  · by_cases own : jobId = write.row.id
    · subst own
      cases written.symm.trans found
      exact spending.write_budget owned undisputed consistent locked call committed
    · exact (apart own).2 ▸ spending.rows jobId row ((apart own).1.symm.trans found)

/-- Entering `_run` uses up the claim that the attempt was paid for with. -/
theorem enter (spending : Spending env x) (owned : Owned env x) (consistent : Consistent env x)
    (call : Call env x t choice) (entersRun : call.o = .runtime .enterRun) :
    Spending env call.result := by
  have quiet : call.thread.loc.commits call.o choice = none := by
    rw [entersRun]
    rfl
  have jobs : call.world'.db.jobs = _ := execute_jobs call.ran
  rw [quiet] at jobs
  obtain ⟨item, stage, is⟩ | ⟨request, stage, is⟩ | ⟨task, stage, is⟩ := consistent.kind call
  · obtain ⟨loop, rest, p, p', control, -⟩ := is.control
    have permitted := is.permitted
    rw [entersRun] at permitted
    obtain ⟨-, absurd⟩ | ⟨row, rfl, -, -⟩ | ⟨-, -, absurd, -⟩ | ⟨-, -, other⟩ :=
      AttemptStage.permits_runtime permitted
    · cases absurd
    · have handles : call.thread.control.item? = some item := by rw [control]; rfl
      obtain ⟨win, opened, owner⟩ := is.facts.entering (show (AttemptStage.loaded row).entering = true from rfl)
      obtain ⟨stored, isStored, -⟩ := owned.rows t _ win call.found opened
      rw [owner] at isStored
      have prepaid := spending.entering t _ item _ call.found handles is.staged rfl
      have episodes : ∀ jobId, call.world'.episodes jobId =
          item.episodes jobId ++ x.1.world.episodes jobId := fun jobId => by
        rw [episodes_call, quiet, entersRun, Op.enters, System.context, handles]
        simp only [Option.elim_none, List.nil_append, Option.toList_some, List.flatMap_cons,
          List.flatMap_nil, List.append_nil]
      have other : ∀ {jobId}, jobId ≠ item.event.jobId →
          call.world'.episodes jobId = x.1.world.episodes jobId := fun apart => by
        rw [episodes, DeliveredEvent.episodes, if_neg (Ne.symm apart)]
        rfl
      refine ⟨fun jobId absent => ?_, fun jobId row' found => ?_, ?_⟩
      · rw [jobs] at absent
        rw [other fun same => ?_]
        · exact spending.unborn jobId absent
        · cases (same ▸ isStored).symm.trans absent
      · rw [jobs] at found
        by_cases own : jobId = item.event.jobId
        · subst own
          rw [episodes, DeliveredEvent.episodes, if_pos rfl]
          exact (spending.rows _ row' found).enter prepaid
        · rw [other own]
          exact spending.rows jobId row' found
      · intro t' th' item' stage' found handles' staged entering
        obtain ⟨th, stage, isFound, was, isStaged, before, apart⟩ | ⟨isCommit, -⟩ :=
          entering_from consistent call found handles' staged entering
        · obtain ⟨win', opened', owner'⟩ :=
            (consistent.handling isFound was isStaged).entering before
          rw [other fun same => (apart ?_).2 entersRun]
          · exact spending.entering t' th item' stage isFound was isStaged before
          · exact owned.unique t' t th _ win' win isFound call.found opened' opened
              (owner'.trans (same.trans owner.symm))
        · cases entersRun.symm.trans isCommit
    · cases absurd
    · exact absurd rfl other
  · have permitted := is.permitted
    rw [entersRun] at permitted
    cases stage <;> exact permitted.elim
  · have permitted := is.permitted
    rw [entersRun] at permitted
    obtain ⟨-, -, absurd⟩ := LoopStage.permits_runtime permitted
    cases absurd

theorem quiet (spending : Spending env x) (consistent : Consistent env x) (call : Call env x t choice)
    (quiet : call.thread.loc.commits call.o choice = none) (other : call.o ≠ .runtime .enterRun) :
    Spending env call.result := by
  have jobs : call.world'.db.jobs = _ := execute_jobs call.ran
  rw [quiet] at jobs
  have episodes := episodes_quiet call quiet other
  refine ⟨fun jobId absent => ?_, fun jobId row found => ?_, ?_⟩
  · rw [jobs] at absent
    exact (episodes jobId).trans (spending.unborn jobId absent)
  · rw [jobs] at found
    exact episodes jobId ▸ spending.rows jobId row found
  · intro t' th' item stage found handles staged entering
    rw [episodes]
    obtain ⟨th, stage', isFound, was, isStaged, before, -⟩ | ⟨isCommit, rfl, now, is⟩ :=
      entering_from consistent call found handles staged entering
    · exact spending.entering t' th item stage' isFound was isStaged before
    · -- a commit that is not applied opens no window
      obtain ⟨win, opened, -⟩ :=
        ((consistent.step (.act call)).handling found handles staged).entering entering
      cases call.own_result.symm.trans found
      obtain same | ⟨closes, -⟩ := execute_window call.ran quiet
      · cases (same.trans is.facts.window).symm.trans opened
      · cases isCommit.symm.trans closes

theorem act (spending : Spending env x) (owned : Owned env x) (undisputed : Undisputed x)
    (consistent : Consistent env x) (locked : Locked x) (call : Call env x t choice)
    (api : apiOffWindow x.1 (.act t choice) = true) : Spending env call.result := by
  cases committed : call.thread.loc.commits call.o choice with
  | some write => exact spending.commit owned undisputed consistent locked call api committed
  | none =>
    by_cases entersRun : call.o = .runtime .enterRun
    · exact spending.enter owned consistent call entersRun
    · exact spending.quiet consistent call committed entersRun

theorem undisturbed {x' : Staged} {label : Label} (spending : Spending env x)
    (consistent : Consistent env x) (move : Move env x label x')
    (noCall : ∀ t choice, label ≠ .act t choice) : Spending env x' := by
  have rests := move.rests noCall
  have episodes : ∀ jobId, x'.1.world.episodes jobId = x.1.world.episodes jobId := fun jobId => by
    simp only [World.episodes, rests.history]
  refine ⟨fun jobId absent => ?_, fun jobId row found => ?_, ?_⟩
  · exact (episodes jobId).trans (spending.unborn jobId (rests.jobs ▸ absent))
  · exact episodes jobId ▸ spending.rows jobId row (rests.jobs ▸ found)
  · intro t th item stage found handles staged entering
    rw [episodes]
    obtain ⟨isFound, same⟩ | ⟨-, -, unhandled, -⟩ := consistent.threads move noCall found
    · exact spending.entering t th item stage isFound handles (same.symm.trans staged) entering
    · cases unhandled.symm.trans handles

theorem init : Spending env (System.init, fun _ => .resting) where
  unborn _ _ := rfl
  rows _ _ found := by cases found
  entering _ _ _ _ found := by cases found

end Spending

theorem StagedRun.spending {env : Env} (agree : ClocksAgree env) {x : Staged}
    (h : StagedRun env (orderly env) x) : Spending env x :=
  h.invariant .init fun x label x' (reached : StagedRun env (orderly env) x) spending stepped _ => by
    have consistent := StagedRun.consistent reached
    obtain ⟨landed, undisputed⟩ := reached.undisputed agree
    have move := move_of_step stepped
    obtain ⟨t, choice, call, rfl, rfl⟩ | noCall := move.call_or
    · have locked := StagedRun.locked reached
      exact spending.act (landed.owned_landing agree) undisputed consistent locked call
        (apiOffWindow_of_lands (undisputed.lands consistent locked move))
    · exact spending.undisturbed consistent move noCall

/-- What a job has cost, by its row: the retry limit is the one of its creation,
the retry count stays within it, and between two resets `_run` is entered once,
once per retry, and once per takeover of a stale row. -/
structure SpendBounded (env : Env) (w : World) (jobId : Nat) (row : ProcessingJob) : Prop where
  snapshot : row.maxRetries = env.settings.maxRetries
  retryCount : 0 ≤ row.retryCount ∧ row.retryCount ≤ max 0 row.maxRetries
  spent : SpendCapped row.maxRetries (w.episodes jobId)

/-- In orderly runs among agreeing clocks, however events are delivered, the work
on a job is bounded by its retry limit and the takeovers of its claims. -/
theorem spend_bounded {env : Env} (agree : ClocksAgree env) {s : System}
    (h : Reached env (orderly env) s) (jobId : Nat) (row : ProcessingJob)
    (found : s.world.db.jobs jobId = some row) : SpendBounded env s.world jobId row := by
  obtain ⟨g, staged⟩ := h.staged
  have budget := (StagedRun.spending agree staged).rows jobId row found
  exact ⟨budget.snapshot, ⟨budget.nonneg, budget.capped⟩, budget.spent⟩

section Sample

/-- A worker dies in `_run`, another takes its row over and fails the job, and a
request resets it. -/
def takenOverRun : List Label :=
  [.receive 0 sampleUpload] ++ Label.oks 0 14 ++ [.startWorker 1 "a", .iterate 1] ++
    Label.oks 1 8 ++ [.crash 1, .tick 700000000, .startWorker 2 "b", .iterate 5] ++
    Label.oks 5 9 ++ [.act 5 sampleRejection] ++ Label.oks 5 7 ++ [.receive 0 (.retry 2)] ++
    Label.oks 7 8

theorem spend_bounded_taken_over : ∃ s row, Reached sampleEnv (orderly sampleEnv) s ∧
    s.world.db.jobs 2 = some row ∧ s.world.episodes 2 =
      [.begun, .entered, .claimed .processing, .entered, .claimed .queued, .begun] ∧
    SpendBounded sampleEnv s.world 2 row := by
  obtain ⟨s, reached, accepted⟩ := Reached.exists_orderly sampleEnv
    (fun s => (s.world.db.jobs 2).isSome && s.world.episodes 2 =
      [.begun, .entered, .claimed .processing, .entered, .claimed .queued, .begun])
    takenOverRun (by decide +kernel)
  obtain ⟨there, episodes⟩ := Bool.and_eq_true_iff.mp accepted
  obtain ⟨row, found⟩ := Option.isSome_iff_exists.mp there
  exact ⟨s, row, reached, found, of_decide_eq_true episodes,
    spend_bounded (fun _ _ => rfl) reached 2 row found⟩

end Sample

end DocumentPipeline

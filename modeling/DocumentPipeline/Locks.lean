import DocumentPipeline.Invariants

/-! Row locks agree with the pending writes: a session holds the lock of a row
exactly while its transaction holds a write to it. So the version a pending
write replaces is still the committed one when the transaction commits, and
`Move.commits` describes every change of a committed row. -/

namespace DocumentPipeline
open EffectProgram JobService

/-- The committed version a write replaces is still in place. -/
def Write.Based (jobs : Nat → Option ProcessingJob) : Write → Prop
  | .insert row => jobs row.id = none
  | .claim base row => jobs row.id = some base
  | .update _ base row => jobs row.id = some base

def Op.opensWrite : Op → Bool
  | .db .openSession | .db (.executeClaim _ _ _ _) | .db (.updateJob _ _) | .db (.insertJob _) =>
    true
  | _ => false

/-- The locks a session holds are those of its pending write. -/
def Local.Locks (loc : Local) (lock : Nat → Option Nat) (t : Nat) : Prop :=
  ∀ jobId, lock jobId = some t ↔ ∃ write, loc.tx.write = some write ∧ write.row.id = jobId

namespace Database
variable {db : Database} {t jobId : Nat}

theorem release_lock (t' : Nat) : (db.release t).lock jobId = some t' ↔
    t' ≠ t ∧ db.lock jobId = some t' := by
  simp only [release]
  split
  · rename_i own
    simp only [own, reduceCtorEq, Option.some.injEq, false_iff]
    rintro ⟨other, rfl⟩
    exact other rfl
  · rename_i other
    refine ⟨fun held => ⟨?_, held⟩, fun held => held.2⟩
    rintro rfl
    exact other held

theorem locks_release : Local.Locks { tx := {} } (db.release t).lock t := by
  intro jobId
  rw [release_lock]
  exact ⟨fun h => absurd rfl h.1, fun ⟨_, h, _⟩ => by cases h⟩

theorem acquire_lock {other : Nat} : (db.acquire t jobId).lock other =
    if other = jobId then some t else db.lock other := by
  simp only [acquire, Function.update_apply]

theorem free_iff : db.free t jobId = true ↔ ∀ t', db.lock jobId = some t' → t' = t := by
  simp only [free]
  split <;> rename_i h <;> simp [h]

end Database

/-- What a call of session `t` keeps: its own locks, and those of the others. -/
def KeepsLocks (t : Nat) (db db' : Database) (loc' : Local) : Prop :=
  loc'.Locks db'.lock t ∧ ∀ t' ≠ t, ∀ jobId, db'.lock jobId = some t' ↔ db.lock jobId = some t'

section Steps
variable {env : Env} {ctx : Context} {w : World} {loc loc' : Local} {choice : Choice}
  {db : Database} {t : Nat}

theorem keepsLocks_release : KeepsLocks t db (db.release t) { loc with tx := {} } := by
  refine ⟨Database.locks_release, fun t other jobId => ?_⟩
  rw [Database.release_lock]
  exact ⟨fun h => h.2, fun h => ⟨other, h⟩⟩

theorem keepsLocks_same (h : loc.Locks db.lock t) (same : loc'.tx.write = loc.tx.write) :
    KeepsLocks t db db loc' :=
  ⟨fun jobId => by rw [same]; exact h jobId, fun _ _ _ => Iff.rfl⟩

theorem keepsLocks_acquire {write : Write} {jobId : Nat} (h : loc.Locks db.lock t)
    (clear : loc.tx.write = none) (free : db.free t jobId = true)
    (pending : loc'.tx.write = some write) (owner : write.row.id = jobId) :
    KeepsLocks t db (db.acquire t jobId) loc' := by
  refine ⟨fun other => ?_, fun t' foreign other => ?_⟩ <;> rw [Database.acquire_lock]
  · rw [pending]
    split
    · rename_i own
      exact ⟨fun _ => ⟨write, rfl, owner.trans own.symm⟩, fun _ => rfl⟩
    · rename_i elsewhere
      rw [h other, clear]
      constructor
      · rintro ⟨_, absurd, -⟩
        cases absurd
      · rintro ⟨_, same, own⟩
        cases same
        exact absurd (own.symm.trans owner) elsewhere
  · split
    · rename_i own
      subst own
      constructor
      · intro same
        cases same
        exact absurd rfl foreign
      · exact fun held => absurd (Database.free_iff.mp free _ held) foreign
    · rfl

theorem run_keepsLocks {o : DbOp} {now : Time} {done : Database.Reply o}
    (did : db.run now t loc.tx o = some done) (keyed : db.Keyed)
    (clear : (Op.db o).opensWrite = true → loc.tx.write = none) (h : loc.Locks db.lock t)
    (same : loc'.tx = done.tx) : KeepsLocks t db done.db loc' := by
  have quiet : loc'.tx = loc.tx → KeepsLocks t db db loc' := fun same =>
    keepsLocks_same h (congrArg Transaction.write same)
  have released : loc'.tx = {} → KeepsLocks t db (db.release t) loc' := fun same => by
    have := @keepsLocks_release loc' db t
    rwa [show { loc' with tx := {} } = loc' from by rw [← same]] at this
  cases o with
  | openSession =>
    cases did
    exact keepsLocks_same h (by rw [same, clear rfl])
  | closeSession =>
    cases did
    exact released same
  | rollback =>
    cases did
    exact released same
  | commit =>
    cases did
    obtain ⟨own, others⟩ := released same
    exact ⟨own, others⟩
  | selectJob jobId =>
    cases did
    exact quiet same
  | selectDocument id =>
    cases did
    exact quiet same
  | insertDocument id document =>
    cases did
    exact keepsLocks_same h (by rw [same])
  | insertResult result =>
    simp only [Database.run] at did
    split at did <;> cases did
    · exact released same
    · exact keepsLocks_same h (by rw [same])
  | executeClaim jobId consumer started cut =>
    simp only [Database.run] at did
    split at did
    · cases did
      exact quiet same
    · rename_i row found
      split at did
      · split at did <;> cases did
        rename_i free
        have owner := keyed _ _ found
        exact keepsLocks_acquire h (clear rfl) free (congrArg Transaction.write same) owner
      · cases did
        exact quiet same
  | updateJob loaded current =>
    simp only [Database.run] at did
    split at did
    · cases did
      exact released same
    · rename_i row found
      split at did <;> cases did
      rename_i free
      have owner := keyed _ _ found
      exact keepsLocks_acquire h (clear rfl) free (congrArg Transaction.write same) owner
  | insertJob job =>
    simp only [Database.run] at did
    split at did
    · cases did
      exact released same
    · split at did <;> cases did
      rename_i free
      exact keepsLocks_acquire h (clear rfl) free (by rw [same]) rfl

theorem execute_keepsLocks {o : Op} {reply : Reply o}
    (ran : o.execute env ctx w loc choice = some reply) (keyed : w.db.Keyed)
    (clear : o.opensWrite = true → loc.tx.write = none)
    (h : loc.Locks w.db.lock ctx.thread) :
    KeepsLocks ctx.thread w.db reply.world.db reply.loc := by
  cases o with
  | runtime o =>
    obtain ⟨done, did, rfl⟩ := execute_runtime ran
    rw [(runRuntime_stores did).1]
    exact keepsLocks_same h rfl
  | redis o =>
    have untouched : ∀ choice, (w.noteRedis ctx loc w.redis o choice).2.tx = loc.tx := by
      intro choice
      cases o <;> cases choice <;> rfl
    obtain ⟨-, rfl⟩ | ⟨error, -, -, rfl⟩ | ⟨error, -, -, rfl⟩ := execute_redis ran
    all_goals
      simp only [World.note_db, noteRedis_stores]
      exact keepsLocks_same h (by rw [untouched])
  | db o =>
    by_cases commit : o = .commit
    · subst commit
      obtain ⟨rfl, rfl⟩ | ⟨error, rfl, -, rfl⟩ | ⟨error, rfl, -, rfl⟩ := execute_commit ran
      all_goals exact keepsLocks_release
    · obtain ⟨-, done, did, rfl⟩ | ⟨error, -, -, -, rfl⟩ := execute_db ran commit
      · exact run_keepsLocks did keyed clear h rfl
      · exact keepsLocks_release

end Steps
theorem AttemptLocal.clear {env : Env} {name : String} {item : DeliveredEvent}
    {stage : AttemptStage} {loc : Local} {o : Op} (h : AttemptLocal env name item stage loc)
    (permitted : stage.permits env name item o) (opens : o.opensWrite = true) :
    loc.tx.write = none := by
  have write := h.write
  rcases held : loc.tx.write with _ | _ | _ | _ <;> rw [held] at write
  all_goals cases stage <;> first | exact write.elim | skip
  all_goals cases o <;> first | exact permitted.elim | cases opens | skip
  all_goals rename_i o; cases o <;> first | exact permitted.elim | cases opens

theorem RequestLocal.clear {env : Env} {request : Request} {stage : RequestStage} {loc : Local}
    {o : Op} (h : RequestLocal env request stage loc) (permitted : stage.permits env request o)
    (opens : o.opensWrite = true) : loc.tx.write = none := by
  have write := h.write
  rcases held : loc.tx.write with _ | _ | _ | _ <;> rw [held] at write
  all_goals cases stage <;> first | exact write.elim | skip
  all_goals cases o <;> first | exact permitted.elim | cases opens | skip
  all_goals rename_i o; cases o <;> first | exact permitted.elim | cases opens

structure Locked (x : Staged) : Prop where
  agree : ∀ (t : Nat) (th : Thread), x.1.threads[t]? = some th →
    th.loc.Locks x.1.world.db.lock t
  born : ∀ jobId t : Nat, x.1.world.db.lock jobId = some t → (x.1.threads[t]?).isSome = true
  based : ∀ (t : Nat) (th : Thread) (write : Write), x.1.threads[t]? = some th →
    th.loc.tx.write = some write → write.Based x.1.world.db.jobs

namespace Locked
variable {env : Env} {x : Staged} {t : Nat} {choice : Choice}

theorem clear (consistent : Consistent env x) (call : Call env x t choice)
    (opens : call.o.opensWrite = true) : call.thread.loc.tx.write = none := by
  obtain ⟨item, stage, is⟩ | ⟨request, stage, is⟩ | ⟨task, stage, is⟩ := consistent.kind call
  · exact is.facts.clear is.permitted opens
  · exact is.facts.clear is.permitted opens
  · rw [is.facts.tx]

theorem keeps (locked : Locked x) (consistent : Consistent env x) (call : Call env x t choice) :
    KeepsLocks t x.1.world.db call.reply.world.db call.reply.loc :=
  execute_keepsLocks call.ran consistent.keyed (clear consistent call)
    (locked.agree t call.thread call.found)

/-- Two sessions never hold writes to the same row. -/
theorem exclusive (locked : Locked x) {t t' : Nat} {th th' : Thread} {write write' : Write}
    (found : x.1.threads[t]? = some th) (found' : x.1.threads[t']? = some th')
    (pending : th.loc.tx.write = some write) (pending' : th'.loc.tx.write = some write')
    (same : write.row.id = write'.row.id) : t = t' := by
  have held := (locked.agree t th found write.row.id).mpr ⟨write, pending, rfl⟩
  have held' := (locked.agree t' th' found' write.row.id).mpr ⟨write', pending', same.symm⟩
  exact Option.some.inj (held.symm.trans held')

end Locked

section Based
variable {w : World} {loc : Local} {write : Write}

theorem run_based {o : DbOp} {db : Database} {now : Time} {t : Nat} {tx : Transaction}
    {done : Database.Reply o} (did : db.run now t tx o = some done) (keyed : db.Keyed)
    (pending : done.tx.write = some write) : tx.write = some write ∨ write.Based db.jobs := by
  cases o with
  | executeClaim jobId consumer started cut =>
    simp only [Database.run] at did
    split at did
    · cases did
      exact .inl pending
    · rename_i row found
      split at did
      · split at did <;> cases did
        cases pending
        have owner := keyed _ _ found
        subst owner
        exact .inr found
      · cases did
        exact .inl pending
  | updateJob loaded current =>
    simp only [Database.run] at did
    split at did
    · cases did
      cases pending
    · rename_i row found
      split at did <;> cases did
      cases pending
      have owner := keyed _ _ found
      exact .inr ((congrArg db.jobs owner).trans found)
  | insertJob job =>
    simp only [Database.run] at did
    split at did
    · cases did
      cases pending
    · rename_i absent
      split at did <;> cases did
      cases pending
      have absent : db.jobs job.id = none := by simpa using absent
      exact .inr absent
  | insertResult result =>
    simp only [Database.run] at did
    split at did <;> cases did
    · cases pending
    · exact .inl pending
  | _ =>
    cases did
    first | exact .inl pending | cases pending

theorem execute_based {env : Env} {ctx : Context} {choice : Choice} {o : Op} {reply : Reply o}
    (ran : o.execute env ctx w loc choice = some reply) (keyed : w.db.Keyed)
    (pending : reply.loc.tx.write = some write) :
    loc.tx.write = some write ∨ write.Based w.db.jobs := by
  cases o with
  | runtime o =>
    obtain ⟨done, did, rfl⟩ := execute_runtime ran
    exact .inl pending
  | redis o =>
    obtain ⟨-, rfl⟩ | ⟨error, -, -, rfl⟩ | ⟨error, -, -, rfl⟩ := execute_redis ran
    all_goals
      cases o <;> cases choice <;> exact .inl pending
  | db o =>
    by_cases commit : o = .commit
    · subst commit
      obtain ⟨rfl, rfl⟩ | ⟨error, rfl, -, rfl⟩ | ⟨error, rfl, -, rfl⟩ := execute_commit ran
      all_goals cases pending
    · obtain ⟨-, done, did, rfl⟩ | ⟨error, -, -, -, rfl⟩ := execute_db ran commit
      · exact run_based did keyed pending
      · cases pending

theorem commits_clears {env : Env} {ctx : Context} {choice : Choice} {o : Op} {reply : Reply o}
    (ran : o.execute env ctx w loc choice = some reply)
    (committed : loc.commits o choice = some write) : reply.loc.tx = {} := by
  cases o with
  | runtime o => cases committed
  | redis o => cases committed
  | db o =>
    cases o <;> first | cases committed | skip
    obtain ⟨rfl, rfl⟩ | ⟨error, rfl, -, rfl⟩ | ⟨error, rfl, -, rfl⟩ := execute_commit ran <;> rfl

theorem execute_rebased {env : Env} {ctx : Context} {choice : Choice} {o : Op} {reply : Reply o}
    (ran : o.execute env ctx w loc choice = some reply) (keyed : w.db.Keyed)
    (based : ∀ write, loc.tx.write = some write → write.Based w.db.jobs)
    (pending : reply.loc.tx.write = some write) : write.Based reply.world.db.jobs := by
  have earlier : write.Based w.db.jobs := (execute_based ran keyed pending).elim (based write) id
  rw [execute_jobs ran]
  split
  · exact earlier
  · rename_i committed
    rw [commits_clears ran committed] at pending
    cases pending

end Based

theorem commits_write {loc : Local} {o : Op} {choice : Choice} {write : Write}
    (h : loc.commits o choice = some write) : o = .db .commit ∧ loc.tx.write = some write := by
  cases o with
  | runtime o => cases h
  | redis o => cases h
  | db o => cases o <;> first | cases h | (cases choice <;> first | cases h | exact ⟨rfl, h⟩)

namespace Locked
variable {env : Env} {x : Staged}

theorem act {t : Nat} {choice : Choice} (locked : Locked x) (consistent : Consistent env x)
    (call : Call env x t choice) : Locked call.result where
  agree t' th' found := by
    obtain ⟨own, others⟩ := locked.keeps consistent call
    obtain ⟨rfl, rfl⟩ | ⟨other, isFound⟩ := call.threads_result found
    · exact own
    · intro jobId
      exact (others t' other jobId).trans (locked.agree t' th' isFound jobId)
  born jobId t' held := by
    obtain ⟨-, others⟩ := locked.keeps consistent call
    by_cases own : t' = t
    · subst own
      rw [call.own_result]
      rfl
    · rw [call.other_result own]
      exact locked.born jobId t' ((others t' own jobId).mp held)
  based t' th' write found pending := by
    obtain ⟨rfl, rfl⟩ | ⟨other, isFound⟩ := call.threads_result found
    · exact execute_rebased call.ran consistent.keyed
        (fun write => locked.based t' call.thread write call.found) pending
    · have earlier := locked.based t' th' write isFound pending
      simp only [Call.world', World.note_db, execute_jobs call.ran]
      split
      · exact earlier
      · rename_i committed
        obtain ⟨-, held⟩ := commits_write committed
        have apart : write.row.id ≠ _ := fun same =>
          other (locked.exclusive isFound call.found pending held same)
        cases write <;> exact (Function.update_of_ne apart _ _).trans earlier

theorem newcomer (locked : Locked x) {t : Nat} {loc : Local} (unborn : x.1.threads[t]? = none)
    (idle : loc.tx.write = none) : loc.Locks x.1.world.db.lock t := by
  intro jobId
  constructor
  · intro held
    have born := locked.born jobId t held
    rw [unborn] at born
    cases born
  · rintro ⟨write, pending, -⟩
    rw [idle] at pending
    cases pending

/-- A step that leaves the locks alone and only adds threads or turns an idle
thread to its next iteration. -/
theorem undisturbed {x' : Staged} {label : Label} (locked : Locked x) (move : Move env x label x')
    (noCall : ∀ t choice, label ≠ .act t choice) (running : ∀ proc, label ≠ .crash proc)
    (lock : x'.1.world.db.lock = x.1.world.db.lock)
    (jobs : x'.1.world.db.jobs = x.1.world.db.jobs) : Locked x' := by
  have threads : ∀ (t : Nat) (th : Thread), x'.1.threads[t]? = some th →
      (x.1.threads[t]? = none ∧ th.loc.tx.write = none) ∨
      ∃ earlier, x.1.threads[t]? = some earlier ∧ th.loc = earlier.loc := by
    intro t th found
    obtain ⟨isFound, -⟩ | ⟨unborn, -, -, loc, -⟩ | ⟨unborn, -, -, loc, -⟩ |
      ⟨earlier, _, isFound, -, rfl, -⟩ | ⟨choice, -, labelled, -⟩ | ⟨earlier, labelled, -⟩ :=
      move.thread found
    · exact .inr ⟨th, isFound, rfl⟩
    · exact .inl ⟨unborn, by rw [loc]⟩
    · exact .inl ⟨unborn, by rw [loc]⟩
    · exact .inr ⟨earlier, isFound, rfl⟩
    · exact absurd labelled (noCall t choice)
    · exact absurd labelled (running earlier.proc)
  refine ⟨fun t th found => ?_, fun jobId t held => ?_, fun t th write found pending => ?_⟩
  · rw [lock]
    obtain ⟨unborn, idle⟩ | ⟨earlier, isFound, same⟩ := threads t th found
    · exact locked.newcomer unborn idle
    · intro jobId
      rw [same]
      exact locked.agree t earlier isFound jobId
  · rw [lock] at held
    have born := locked.born jobId t held
    by_contra gone
    rw [(move.remains (by simpa using gone)).1] at born
    cases born
  · rw [jobs]
    obtain ⟨-, idle⟩ | ⟨earlier, isFound, same⟩ := threads t th found
    · rw [idle] at pending
      cases pending
    · exact locked.based t earlier write isFound (by rw [← same]; exact pending)

theorem crash (locked : Locked x) {proc : Nat} {g : Stages} : Locked (x.1.crash proc, g) where
  agree t th found := by
    simp only [System.crash, List.getElem?_map, Option.map_eq_some_iff] at found
    obtain ⟨earlier, isFound, rfl⟩ := found
    intro jobId
    have agree := locked.agree t earlier isFound jobId
    by_cases down : earlier.proc = proc
    · simp only [System.crash, down, if_true, reduceCtorEq, false_and, exists_false, iff_false,
        Option.filter_eq_some_iff, not_and]
      rintro -
      simp [isFound, down]
    · simp only [System.crash, down, if_false, Option.filter_eq_some_iff, agree]
      refine ⟨fun h => h.1, fun h => ⟨h, ?_⟩⟩
      simp [isFound, down]
  born jobId t held := by
    simp only [System.crash, Option.filter_eq_some_iff] at held
    simp only [System.crash, List.getElem?_map, Option.isSome_map]
    exact locked.born jobId t held.1
  based t th write found pending := by
    simp only [System.crash, List.getElem?_map, Option.map_eq_some_iff] at found
    obtain ⟨earlier, isFound, rfl⟩ := found
    split at pending
    · cases pending
    · exact locked.based t earlier write isFound pending

theorem step {x' : Staged} {label : Label} (locked : Locked x) (consistent : Consistent env x)
    (move : Move env x label x') : Locked x' := by
  cases move with
  | tick duration => exact ⟨locked.agree, locked.born, locked.based⟩
  | act call => exact locked.act consistent call
  | startWorker proc name =>
    exact locked.undisturbed (@Move.startWorker env _ proc name) nofun nofun rfl rfl
  | receive proc request =>
    exact locked.undisturbed (@Move.receive env _ proc request) nofun nofun rfl rfl
  | iterate found idle =>
    exact locked.undisturbed (@Move.iterate env _ _ _ _ found idle) nofun nofun rfl rfl
  | crash proc => exact locked.crash

end Locked
theorem Locked.init : Locked (System.init, fun _ => .resting) where
  agree _ _ found := by cases found
  born _ _ held := by cases held
  based _ _ _ found := by cases found

theorem StagedRun.locked {env : Env} {guard : Guard} {x : Staged} (h : StagedRun env guard x) :
    Locked x :=
  h.invariant Locked.init fun _ _ _ reached locked stepped _ =>
    locked.step (StagedRun.consistent reached) (move_of_step stepped)

/-- A write to a job row as the code makes them: a new row is queued, a claim
takes a claimable or a processing row, and an update carries out a transition
of the status that was loaded. -/
def Write.Lawful : Write → Prop
  | .insert row => row.status = .queued
  | .claim base row => row.status = .processing ∧
    (base.status ∈ claimableStatuses ∨ base.status = .processing)
  | .update loaded base row => ∃ current, row = loaded.flushed current base ∧
    isTransitionAllowed loaded.status current.status = true ∧ current.status ≠ .processing

theorem claimMatches_status {row : ProcessingJob} {cut : Time} (h : claimMatches row cut = true) :
    row.status ∈ claimableStatuses ∨ row.status = .processing := by
  simp only [claimMatches, Bool.or_eq_true, Bool.and_eq_true, decide_eq_true_eq] at h
  exact h.imp id And.left

theorem AttemptLocal.lawful {env : Env} {name : String} {item : DeliveredEvent}
    {stage : AttemptStage} {loc : Local} {write : Write}
    (h : AttemptLocal env name item stage loc) (pending : loc.tx.write = some write) :
    write.Lawful := by
  have writes := h.write
  have sound := h.sound
  rw [pending] at writes
  cases write with
  | insert row => exact writes.elim
  | claim base row =>
    cases stage <;> first | exact writes.elim | skip
    obtain ⟨-, rfl, claimable⟩ := writes
    exact ⟨rfl, claimMatches_status claimable⟩
  | update seen base row =>
    cases stage <;> first | exact writes.elim | skip
    · obtain ⟨rfl, -, rfl⟩ := writes
      obtain ⟨-, allowed, now, rfl⟩ := sound
      exact ⟨_, rfl, allowed, nofun⟩
    · obtain ⟨rfl, -, rfl⟩ := writes
      obtain ⟨-, allowed, now, rfl⟩ := sound
      exact ⟨_, rfl, allowed, nofun⟩
    · obtain ⟨rfl, -, rfl⟩ := writes
      rename_i event
      cases event with
      | none =>
        obtain ⟨-, allowed, message, now, rfl⟩ := sound
        exact ⟨_, rfl, allowed, nofun⟩
      | some event =>
        obtain ⟨-, allowed, -, ⟨message, rfl⟩, -⟩ := sound
        exact ⟨_, rfl, allowed, nofun⟩

theorem AttemptLocal.writes_own {env : Env} {name : String} {item : DeliveredEvent}
    {stage : AttemptStage} {loc : Local} {write : Write} (h : AttemptLocal env name item stage loc)
    (pending : loc.tx.write = some write) : write.row.id = item.event.jobId := by
  have writes := h.write
  have sound := h.sound
  rw [pending] at writes
  cases write <;> cases stage <;> first | exact writes.elim | skip
  · obtain ⟨key, rfl, -⟩ := writes
    exact key
  · obtain ⟨rfl, key, rfl⟩ := writes
    exact (ProcessingJob.flushed_id _ _ _).trans (key.trans sound.1)
  · obtain ⟨rfl, key, rfl⟩ := writes
    exact (ProcessingJob.flushed_id _ _ _).trans (key.trans sound.1)
  · obtain ⟨rfl, key, rfl⟩ := writes
    rename_i event
    cases event <;> exact (ProcessingJob.flushed_id _ _ _).trans (key.trans sound.1)

theorem RequestLocal.lawful {env : Env} {request : Request} {stage : RequestStage} {loc : Local}
    {write : Write} (h : RequestLocal env request stage loc)
    (pending : loc.tx.write = some write) : write.Lawful := by
  have writes := h.write
  have sound := h.sound
  rw [pending] at writes
  cases write with
  | claim base row => exact writes.elim
  | insert row =>
    cases stage <;> first | exact writes.elim | skip
    obtain ⟨now, rfl⟩ := writes
    exact sound.1.status
  | update seen base row =>
    cases stage <;> first | exact writes.elim | skip
    · obtain ⟨rfl, -, rfl⟩ := writes
      obtain ⟨-, allowed, now, rfl⟩ := sound
      exact ⟨_, rfl, allowed, nofun⟩
    · obtain ⟨rfl, -, rfl⟩ := writes
      obtain ⟨-, allowed, message, now, rfl⟩ := sound
      exact ⟨_, rfl, allowed, nofun⟩

theorem Consistent.lawful {env : Env} {x : Staged} (consistent : Consistent env x) {t : Nat}
    {th : Thread} {write : Write} (found : x.1.threads[t]? = some th)
    (pending : th.loc.tx.write = some write) : write.Lawful := by
  have facts := consistent.locals t th found
  revert facts
  cases th.control <;> cases x.2 t <;> intro facts <;> first
    | exact AttemptLocal.lawful facts pending
    | exact RequestLocal.lawful facts pending
    | (rw [IdleLocal.tx facts] at pending
       cases pending)

/-- A pending claim belongs to an attempt whose `claim_job` has matched. -/
theorem Consistent.claiming {env : Env} {x : Staged} (consistent : Consistent env x) {t : Nat}
    {choice : Choice} (call : Call env x t choice) {base row : ProcessingJob}
    (pending : call.thread.loc.tx.write = some (.claim base row)) :
    ∃ item now, AttemptCall call item (.matched now) := by
  obtain ⟨item, stage, is⟩ | ⟨request, stage, is⟩ | ⟨task, stage, is⟩ := consistent.kind call
  · have write := is.facts.write
    rw [pending] at write
    cases stage <;> first | exact write.elim | exact ⟨item, _, is⟩
  · have write := is.facts.write
    rw [pending] at write
    exact write.elim
  · rw [is.facts.tx] at pending
    cases pending

/-- Every change of a committed row is the commit of a pending write, made to
the version the write replaces. -/
theorem Move.commits {env : Env} {x x' : Staged} {label : Label} (move : Move env x label x')
    (consistent : Consistent env x) (locked : Locked x) :
    x'.1.world.db.jobs = x.1.world.db.jobs ∨
    ∃ t choice, ∃ call : Call env x t choice, ∃ write, label = .act t choice ∧ x' = call.result ∧
      call.thread.loc.commits call.o choice = some write ∧ write.Based x.1.world.db.jobs ∧
      write.Lawful ∧ x'.1.world.db.jobs =
        Function.update x.1.world.db.jobs write.row.id (some write.row) := by
  cases move with
  | @act t choice call =>
    have jobs := execute_jobs call.ran
    cases committed : call.thread.loc.commits call.o choice with
    | none =>
      rw [committed] at jobs
      exact .inl jobs
    | some write =>
      rw [committed] at jobs
      have pending := (commits_write committed).2
      exact .inr ⟨t, choice, call, write, rfl, rfl, committed,
        locked.based t _ write call.found pending, consistent.lawful call.found pending, jobs⟩
  | _ => exact .inl rfl

theorem stagedStep_of_step {env : Env} {s s' : System} {label : Label} (g : Stages)
    (stepped : System.step env s label = some s') :
    stagedStep env (s, g) label = some (s', noteStages env g s label) := by
  simp only [stagedStep, Transition.tracked, stepped, Option.map_some]

end DocumentPipeline

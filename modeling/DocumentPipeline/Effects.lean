import DocumentPipeline.World

/-! What a call does to the stores, by the kind of call: the inversions of
`Op.execute` that the invariants use instead of unfolding it. -/

namespace DocumentPipeline

variable {env : Env} {ctx : Context} {w : World} {loc : Local} {choice : Choice}

theorem execute_db {o : DbOp} {reply : Reply (.db o)}
    (h : Op.execute env ctx w loc (.db o) choice = some reply) (notCommit : o ≠ .commit) :
    (choice = .ok ∧ ∃ done, w.db.run w.now ctx.thread loc.tx o = some done ∧
      reply = ⟨{ (w.noteDb ctx loc o .ok).1 with db := done.db },
        { (w.noteDb ctx loc o .ok).2 with tx := done.tx }, done.answer⟩) ∨
    (∃ error, choice = .fails error ∧ Database.fallible o = true ∧
      error.isIntegrityError = false ∧
      reply = ⟨{ w.note [.faulted ctx.thread] with db := w.db.release ctx.thread },
        { loc with tx := {} }, .error error⟩) := by
  simp only [Op.execute, Option.map_eq_some_iff] at h
  obtain ⟨done, ran, rfl⟩ := h
  cases choice with
  | ok => exact .inl ⟨rfl, done, ran, rfl⟩
  | fails error =>
    simp only [Database.execute] at ran
    split at ran
    · rename_i possible
      cases ran
      simp only [Bool.and_eq_true, Bool.not_eq_true'] at possible
      refine .inr ⟨error, rfl, possible.1, possible.2, ?_⟩
      cases o <;> first | rfl | exact absurd rfl notCommit | cases possible.1
    · cases ran
  | lost error =>
    cases o <;> first | exact absurd rfl notCommit | cases ran
  | _ => cases ran

theorem execute_commit {reply : Reply (.db .commit)}
    (h : Op.execute env ctx w loc (.db .commit) choice = some reply) :
    (choice = .ok ∧ reply = ⟨{ (w.noteDb ctx loc .commit .ok).1 with
        db := (w.db.apply loc.tx).release ctx.thread },
        { (w.noteDb ctx loc .commit .ok).2 with tx := {} }, .ok ()⟩) ∨
    (∃ error, choice = .fails error ∧ error.isIntegrityError = false ∧
      reply = ⟨{ w.note [.faulted ctx.thread] with db := w.db.release ctx.thread },
        { loc with tx := {} }, .error error⟩) ∨
    (∃ error, choice = .lost error ∧ error.isIntegrityError = false ∧
      reply = ⟨{ (w.noteDb ctx loc .commit (.lost error)).1.note [.faulted ctx.thread] with
        db := (w.db.apply loc.tx).release ctx.thread },
        { (w.noteDb ctx loc .commit (.lost error)).2 with tx := {} }, .error error⟩) := by
  simp only [Op.execute, Option.map_eq_some_iff] at h
  obtain ⟨done, ran, rfl⟩ := h
  cases choice with
  | ok =>
    cases ran
    exact .inl ⟨rfl, rfl⟩
  | fails error =>
    simp only [Database.execute] at ran
    split at ran
    · rename_i possible
      cases ran
      simp only [Bool.and_eq_true, Bool.not_eq_true'] at possible
      exact .inr (.inl ⟨error, rfl, possible.2, rfl⟩)
    · cases ran
  | lost error =>
    simp only [Database.execute] at ran
    split at ran
    · rename_i possible
      cases ran
      exact .inr (.inr ⟨error, rfl, by simpa using possible, rfl⟩)
    · cases ran
  | _ => cases ran

theorem execute_redis {o : RedisOp} {reply : Reply (.redis o)}
    (h : Op.execute env ctx w loc (.redis o) choice = some reply) :
    (choice = .ok ∧ reply = ⟨{ (w.noteRedis ctx loc w.redis o .ok).1 with
        redis := (w.redis.run w.now o).redis }, (w.noteRedis ctx loc w.redis o .ok).2,
        .ok (w.redis.run w.now o).value⟩) ∨
    (∃ error, choice = .fails error ∧ error.isRedisFault = true ∧
      reply = ⟨(w.noteRedis ctx loc w.redis o choice).1.note [.faulted ctx.thread],
        (w.noteRedis ctx loc w.redis o choice).2, .error error⟩) ∨
    (∃ error, choice = .lost error ∧ error.isRedisFault = true ∧
      reply = ⟨{ (w.noteRedis ctx loc w.redis o choice).1.note [.faulted ctx.thread] with
        redis := (w.redis.run w.now o).redis }, (w.noteRedis ctx loc w.redis o choice).2,
        .error error⟩) := by
  simp only [Op.execute, Option.map_eq_some_iff] at h
  obtain ⟨done, ran, rfl⟩ := h
  cases choice with
  | ok =>
    cases ran
    exact .inl ⟨rfl, rfl⟩
  | fails error =>
    simp only [Redis.execute] at ran
    split at ran
    · rename_i possible
      cases ran
      refine .inr (.inl ⟨error, rfl, possible, ?_⟩)
      cases o <;> rfl
    · cases ran
  | lost error =>
    simp only [Redis.execute] at ran
    split at ran
    · rename_i possible
      cases ran
      exact .inr (.inr ⟨error, rfl, possible, rfl⟩)
    · cases ran
  | _ => cases ran

theorem execute_runtime {o : RuntimeOp} {reply : Reply (.runtime o)}
    (h : Op.execute env ctx w loc (.runtime o) choice = some reply) :
    ∃ done, w.runRuntime env ctx o choice = some done ∧ reply = ⟨done.1, loc, done.2⟩ := by
  simp only [Op.execute, Option.map_eq_some_iff] at h
  obtain ⟨done, ran, rfl⟩ := h
  exact ⟨done, ran, rfl⟩

theorem runRuntime_stores {o : RuntimeOp} {done : World × Except Exn o.Val}
    (h : w.runRuntime env ctx o choice = some done) :
    done.1.db = w.db ∧ done.1.redis = w.redis ∧ done.1.now = w.now ∧ done.1.claims = w.claims ∧
      done.1.sessions = w.sessions := by
  cases o <;> cases choice <;> simp only [World.runRuntime, reduceCtorEq, Option.some.injEq] at h
  all_goals first
    | (subst h; exact ⟨rfl, rfl, rfl, rfl, rfl⟩)
    | skip
  · subst h
    cases ctx.item <;> exact ⟨rfl, rfl, rfl, rfl, rfl⟩
  · split at h <;> cases h
    exact ⟨rfl, rfl, rfl, rfl, rfl⟩
  · split at h <;> cases h <;> exact ⟨rfl, rfl, rfl, rfl, rfl⟩

@[simp] theorem World.note_db (new : List Observation) : (w.note new).db = w.db := rfl
@[simp] theorem World.note_redis (new : List Observation) : (w.note new).redis = w.redis := rfl
@[simp] theorem World.note_now (new : List Observation) : (w.note new).now = w.now := rfl
@[simp] theorem World.note_claims (new : List Observation) : (w.note new).claims = w.claims := rfl
@[simp] theorem World.note_history (new : List Observation) :
    (w.note new).history = new ++ w.history := rfl

theorem noteWrite_stores (seen : Bool) (write : Write) :
    (w.noteWrite ctx loc seen write).1.redis = w.redis ∧
      (w.noteWrite ctx loc seen write).1.now = w.now ∧
      (w.noteWrite ctx loc seen write).1.uuids = w.uuids := by
  cases write <;> exact ⟨rfl, rfl, rfl⟩

theorem noteDb_stores (o : DbOp) (choice : Choice) :
    (w.noteDb ctx loc o choice).1.redis = w.redis ∧ (w.noteDb ctx loc o choice).1.now = w.now ∧
      (w.noteDb ctx loc o choice).1.uuids = w.uuids := by
  cases o with
  | commit =>
    cases h : loc.tx.write with
    | none => cases choice <;> simp only [World.noteDb, h, and_self]
    | some write =>
      cases choice <;> simp only [World.noteDb, h, noteWrite_stores, and_self]
  | _ => cases choice <;> exact ⟨rfl, rfl, rfl⟩

theorem noteRedis_stores (r : Redis) (o : RedisOp) (choice : Choice) :
    (w.noteRedis ctx loc r o choice).1.db = w.db ∧ (w.noteRedis ctx loc r o choice).1.redis = w.redis ∧
      (w.noteRedis ctx loc r o choice).1.now = w.now ∧
      (w.noteRedis ctx loc r o choice).1.uuids = w.uuids ∧
      (w.noteRedis ctx loc r o choice).1.claims = w.claims := by
  cases o <;> cases choice <;> exact ⟨rfl, rfl, rfl, rfl, rfl⟩

theorem Database.run_jobs {o : DbOp} {now : Time} {t : Nat} {db : Database} {tx : Transaction}
    {done : Reply o} (h : db.run now t tx o = some done) (notCommit : o ≠ .commit) :
    done.db.jobs = db.jobs ∧ done.db.documents = db.documents ∧ done.db.results = db.results := by
  cases o with
  | commit => exact absurd rfl notCommit
  | executeClaim jobId consumer started cut =>
    simp only [Database.run] at h
    repeat' split at h
    all_goals cases h <;> exact ⟨rfl, rfl, rfl⟩
  | updateJob loaded current =>
    simp only [Database.run] at h
    repeat' split at h
    all_goals cases h <;> exact ⟨rfl, rfl, rfl⟩
  | insertJob job =>
    simp only [Database.run] at h
    repeat' split at h
    all_goals cases h <;> exact ⟨rfl, rfl, rfl⟩
  | insertResult result =>
    simp only [Database.run] at h
    split at h <;> cases h <;> exact ⟨rfl, rfl, rfl⟩
  | _ =>
    cases h
    exact ⟨rfl, rfl, rfl⟩

theorem execute_jobs {o : Op} {reply : Reply o}
    (h : o.execute env ctx w loc choice = some reply) :
    reply.world.db.jobs = match loc.commits o choice with
      | none => w.db.jobs
      | some write => Function.update w.db.jobs write.row.id (some write.row) := by
  cases o with
  | runtime o =>
    obtain ⟨done, did, rfl⟩ := execute_runtime h
    exact congrArg Database.jobs (runRuntime_stores did).1
  | redis o =>
    obtain ⟨-, rfl⟩ | ⟨error, -, -, rfl⟩ | ⟨error, -, -, rfl⟩ := execute_redis h
    all_goals exact congrArg Database.jobs (noteRedis_stores w.redis o _).1
  | db o =>
    by_cases commit : o = .commit
    · subst commit
      obtain ⟨rfl, rfl⟩ | ⟨error, rfl, -, rfl⟩ | ⟨error, rfl, -, rfl⟩ := execute_commit h <;> rfl
    · have quiet : loc.commits (.db o) choice = none := by
        cases o <;> first | rfl | exact absurd rfl commit
      rw [quiet]
      obtain ⟨-, done, did, rfl⟩ | ⟨error, -, -, -, rfl⟩ := execute_db h commit
      · exact (Database.run_jobs did commit).1
      · rfl

theorem execute_now {o : Op} {reply : Reply o}
    (h : o.execute env ctx w loc choice = some reply) : reply.world.now = w.now := by
  cases o with
  | runtime o =>
    obtain ⟨done, did, rfl⟩ := execute_runtime h
    exact (runRuntime_stores did).2.2.1
  | redis o =>
    obtain ⟨-, rfl⟩ | ⟨error, -, -, rfl⟩ | ⟨error, -, -, rfl⟩ := execute_redis h
    all_goals exact (noteRedis_stores w.redis o _).2.2.1
  | db o =>
    by_cases commit : o = .commit
    · subst commit
      obtain ⟨rfl, rfl⟩ | ⟨error, rfl, -, rfl⟩ | ⟨error, rfl, -, rfl⟩ := execute_commit h
      · exact (noteDb_stores .commit .ok).2.1
      · rfl
      · exact (noteDb_stores .commit (.lost error)).2.1
    · obtain ⟨rfl, done, did, rfl⟩ | ⟨error, rfl, -, -, rfl⟩ := execute_db h commit
      · exact (noteDb_stores o .ok).2.1
      · rfl

end DocumentPipeline

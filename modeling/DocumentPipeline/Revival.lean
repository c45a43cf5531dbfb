import DocumentPipeline.RowConsistency
import DocumentPipeline.Linkage
import DocumentPipeline.ManualRetries

/-! Whether an operator can revive a job that nothing works on any more. The
manual retry is the one recovery there is, and its transition table lets a job
back into the queue from `failed` only. -/

namespace DocumentPipeline
open EffectProgram Transition JobService Queue Routes

/-- A request holds an uncommitted write to the row, or waits for the XADD of an
event for it. -/
def InFlight (s : System) (jobId : Nat) : Prop :=
  ∃ (t : Nat) (th : Thread) (request : Request) (p : Prog ApiResponse), s.threads[t]? = some th ∧
    th.control = .serving request p ∧
      ((∃ write, th.loc.tx.write = some write ∧ write.row.id = jobId) ∨
        ∃ fields next event, th.control.next? = some ⟨.redis (.xadd fields), next⟩ ∧
          decodeOne fields = .ok event ∧ event.jobId = jobId)

/-- An unfinished job on which no attempt is at work and for which nothing is on
its way to a worker. -/
structure Stuck (s : System) (jobId : Nat) (row : ProcessingJob) : Prop where
  found : s.world.db.jobs jobId = some row
  unfinished : row.status ≠ .completed
  unattended : ∀ (t : Nat) (th : Thread) (item : DeliveredEvent), s.threads[t]? = some th →
    th.control.item? = some item → item.event.jobId ≠ jobId
  waiting : ¬Vehicle s jobId
  unpublished : ¬InFlight s jobId

/-- A request is served to its end while no other thread moves and every call
succeeds. -/
def Serves (env : Env) (s : System) (proc : Nat) (request : Request) (s' : System) : Prop :=
  ∃ n th, (.receive proc request :: Label.oks s.threads.length n).foldlM (System.step env) s =
    some s' ∧ s'.threads[s.threads.length]? = some th ∧ th.control = .stopped

/-- The request was accepted: the job is queued with its whole budget, and a new
event for it has been appended to the stream. -/
structure Revived (s s' : System) (jobId : Nat) : Prop where
  answer : s'.world.history.head? =
    some (.answered s.threads.length (.ok (.jobRetry jobId .queued 0)))
  row : ∃ row, s'.world.db.jobs jobId = some row ∧ row.status = .queued ∧ row.retryCount = 0
  event : ∃ event, event.eventId = s.world.uuids ∧ event.jobId = jobId ∧
    s'.world.redis.entries = s.world.redis.entries ++ [toStreamFields event] ∧
    s'.world.redis.lastDelivered ≤ s.world.redis.entries.length

section Serving
variable {env : Env} {ctx : Context} {w : World} {loc : Local}

/-- A session all of whose calls succeed. -/
def unhindered (env : Env) (ctx : Context) (x : World × Local) (o : Op) :
    Option ((World × Local) × Except Exn o.Val) :=
  (o.execute env ctx x.1 x.2 .ok).map fun reply => ((reply.world, reply.loc), reply.answer)

abbrev passage (env : Env) (ctx : Context) : Protocol Op Op.Val Exn (World × Local) :=
  .answering (unhindered env ctx)

variable {t proc : Nat} {name : String} {request : Request}

theorem step_serving {s : System} {o : Op} {next : Except Exn o.Val → Prog ApiResponse}
    (found : s.threads[t]? = some ⟨proc, name, .serving request (.call o next), loc⟩) :
    s.step env (.act t .ok) = (unhindered env ⟨t, proc, none⟩ (s.world, loc) o).map fun answered =>
      { world := answered.1.1.note ((Control.serving request (next answered.2)).announce t)
        threads := s.threads.set t ⟨proc, name,
          (Control.serving request (next answered.2)).settle env name, answered.1.2⟩ } := by
  simp only [System.step, found, System.act, Control.next?, unhindered, Option.map_map]
  rfl

theorem step_stopped {s : System} {th : Thread} (found : s.threads[t]? = some th)
    (stopped : th.control = .stopped) : s.step env (.act t .ok) = none := by
  simp only [System.step, found, System.act, stopped, Control.next?]

theorem stays_stopped {s s' : System} {th : Thread} {n : Nat} (found : s.threads[t]? = some th)
    (stopped : th.control = .stopped) (ran : (Label.oks t n).foldlM (System.step env) s = some s') :
    s' = s := by
  cases n with
  | zero =>
    cases ran
    rfl
  | succ n =>
    rw [Label.oks, List.replicate_succ, List.foldlM_cons, step_stopped found stopped] at ran
    cases ran

theorem serves_last {s s₁ : System} {p : Prog ApiResponse} {w' : World} {th : Thread}
    {announced : List Observation}
    (found : s.threads[t]? = some ⟨proc, name, .serving request p, loc⟩)
    (stepped : s.step env (.act t .ok) = some s₁) (found₁ : s₁.threads[t]? = some th)
    (stopped : th.control = .stopped) (world : s₁.world = w'.note announced) :
    (∃ n s', (Label.oks t n).foldlM (System.step env) s = some s' ∧ s'.threads[t]? = some th) ∧
    ∀ n s' th', (Label.oks t n).foldlM (System.step env) s = some s' →
      s'.threads[t]? = some th' → th'.control = .stopped → s'.world = w'.note announced := by
  refine ⟨⟨1, s₁, ?_, found₁⟩, fun n s' th' ran found' stopped' => ?_⟩
  · rw [Label.oks, List.replicate_one, List.foldlM_cons, stepped]
    rfl
  · cases n with
    | zero =>
      cases ran
      cases found.symm.trans found'
      cases stopped'
    | succ n =>
      rw [Label.oks, List.replicate_succ, List.foldlM_cons, stepped] at ran
      rw [stays_stopped found₁ stopped ran, world]

/-- A request that is served alone runs its program to the end, and to nothing
else. -/
theorem serves_alone {p : Prog ApiResponse} {w' : World} {loc' : Local} {r : Except Exn ApiResponse}
    {s : System} (waits : p.outcome? = none)
    (found : s.threads[t]? = some ⟨proc, name, .serving request p, loc⟩)
    (ran : p.runWith (unhindered env ⟨t, proc, none⟩) (s.world, loc) = some ((w', loc'), r)) :
    (∃ n s', (Label.oks t n).foldlM (System.step env) s = some s' ∧
      s'.threads[t]? = some ⟨proc, name, .stopped, loc'⟩) ∧
    ∀ n s' th, (Label.oks t n).foldlM (System.step env) s = some s' →
      s'.threads[t]? = some th → th.control = .stopped → s'.world = w'.note [.answered t r] := by
  induction p generalizing s loc with
  | ret value => cases waits
  | raise error => cases waits
  | call o next ih =>
    have stepped : s.step env (.act t .ok) = _ := step_serving found
    rw [Program.runWith] at ran
    cases answer : unhindered env ⟨t, proc, none⟩ (s.world, loc) o with
    | none =>
      rw [answer] at ran
      cases ran
    | some answered =>
      rw [answer, Option.bind_some] at ran
      rw [answer, Option.map_some] at stepped
      have bound : t < s.threads.length := (List.getElem?_eq_some_iff.mp found).1
      obtain ⟨⟨w₁, loc₁⟩, reply⟩ := answered
      dsimp only at ran stepped
      cases reached : next reply with
      | ret value =>
        rw [reached] at ran stepped
        cases ran
        exact serves_last found stepped (List.getElem?_set_self bound) rfl rfl
      | raise error =>
        rw [reached] at ran stepped
        cases ran
        exact serves_last found stepped (List.getElem?_set_self bound) rfl rfl
      | call o' next' =>
        rw [reached] at stepped
        let s₁ : System := ⟨w₁, s.threads.set t ⟨proc, name, .serving request (next reply), loc₁⟩⟩
        have further : s.step env (.act t .ok) = some s₁ := by
          simp only [s₁, reached]
          exact stepped
        obtain ⟨⟨n, s', runs, found'⟩, only⟩ := ih reply (s := s₁) (by rw [reached]; rfl)
          (List.getElem?_set_self bound) ran
        refine ⟨⟨n + 1, s', ?_, found'⟩, fun m s'' th ran'' found'' stopped'' => ?_⟩
        · rw [Label.oks, List.replicate_succ, List.foldlM_cons, further]
          exact runs
        · cases m with
          | zero =>
            cases ran''
            cases found.symm.trans found''
            cases stopped''
          | succ m =>
            rw [Label.oks, List.replicate_succ, List.foldlM_cons, further] at ran''
            exact only m s'' th ran'' found'' stopped''

theorem flushAndCommit_unhindered {x : World × Local} {jobId : Nat} {row current : ProcessingJob}
    (found : x.1.db.jobs jobId = some row) (key : row.id = jobId)
    (free : x.1.db.free ctx.thread jobId = true) (flushed : row.flushed current row = current) :
    wp (passage env ctx) (flushAndCommit row current) (fun r x' => r = .ok () ∧
      x'.1.db.jobs jobId = some current ∧ x'.1.redis = x.1.redis ∧ x'.1.uuids = x.1.uuids) x := by
  obtain ⟨w, loc⟩ := x
  subst key
  have same : current.id = row.id := by rw [← flushed, ProcessingJob.flushed_id]
  have updates : unhindered env ctx (w, loc) (.db (.updateJob row current)) =
      some (({ w with db := w.db.acquire ctx.thread row.id },
        { loc with tx := { loc.tx with write := some (.update row row current) } }), .ok ()) := by
    simp only at found free
    simp only [unhindered, Op.execute, Database.execute, Database.run, found, free, if_true, flushed,
      Option.map_some]
    rfl
  refine wp_answering_then updates (wp_answering (show unhindered env ctx _ (.db .commit) =
    some (_, .ok ()) from rfl) ⟨rfl, ?_, rfl, rfl⟩)
  simp only [Database.release, Database.apply, Write.row, ← same, Function.update_self]

theorem publishOrFail_unhindered {x : World × Local} (row : ProcessingJob) (document : Document)
    (message : String) : wp (passage env ctx) (publishOrFail { row, document } message)
      (fun r x' => r = .ok () ∧ x'.1.db.jobs = x.1.db.jobs ∧ ∃ event,
        event.eventId = x.1.uuids ∧ event.jobId = row.id ∧
        x'.1.redis = { x.1.redis with entries := x.1.redis.entries ++ [toStreamFields event] }) x := by
  refine (wp_tryCatch _ _ _ _ _).mpr ((wp_bind _ _ _ _ _).mpr ((wp_bind _ _ _ _ _).mpr ?_))
  refine (wp_bind _ _ _ _ _).mpr ((wp_lift _ _ _ _).mpr ?_)
  refine wp_answering_then (show unhindered env ctx x (.runtime .uuid4) = some (_, .ok _) from rfl) ?_
  refine (wp_tryCatch _ _ _ _ _).mpr (wp_answering (show unhindered env ctx _ (.redis (.xadd _)) =
    some (_, .ok _) from rfl) ?_)
  exact ⟨rfl, rfl, _, rfl, rfl, rfl⟩

variable (env ctx) in
/-- A retry request on its own puts a failed job back into the queue and
publishes its event, and refuses a job of any other status. -/
theorem retryJob_unhindered {jobId : Nat} {row : ProcessingJob} {document : Document}
    (found : w.db.jobs jobId = some row) (key : row.id = jobId)
    (documented : w.db.documents row.documentId = some document)
    (free : w.db.free ctx.thread jobId = true) :
    wp (passage env ctx) (retryJob jobId) (fun r x' =>
      (row.status = .failed → r = .ok (.jobRetry jobId .queued 0) ∧
        (∃ now, x'.1.db.jobs jobId = some (requeuedRow row now)) ∧
        ∃ event, event.eventId = w.uuids ∧ event.jobId = jobId ∧
          x'.1.redis = { w.redis with entries := w.redis.entries ++ [toStreamFields event] }) ∧
      (row.status ≠ .failed → r = .error (invalidTransition row.status .queued))) (w, {}) := by
  refine wp_answering_then (show unhindered env ctx (w, {}) (.db .openSession) = some (_, .ok ())
    from rfl) ((wp_andFinally _ _ _ _ _).mpr ((wp_tryCatch _ _ _ _ _).mpr ?_))
  have selected : ∀ w' loc', w'.db = w.db → unhindered env ctx (w', loc') (.db (.selectJob jobId)) =
      some ((w', loc'), .ok (some (row, document))) := by
    intro w' loc' same
    simp only [unhindered, Op.execute, Database.execute, Database.run, same, found, documented,
      Option.bind_some, Option.map_some]
    rw [← same]
    rfl
  refine (wp_bind _ _ _ _ _).mpr (wp_answering_then (selected _ _ rfl) ?_)
  refine wp_seq _ (R := fun r x' =>
      (row.status = .failed → (∃ now, x'.1.db.jobs jobId = some (requeuedRow row now) ∧
        r = .ok { row := requeuedRow row now, document }) ∧ x'.1.redis = w.redis ∧
        x'.1.uuids = w.uuids) ∧
      (row.status ≠ .failed → r = .error (invalidTransition row.status .queued))) ?_ ?_ ?_
  · refine (wp_bind _ _ _ _ _).mpr ((wp_lift _ _ _ _).mpr ((wp_bind _ _ _ _ _).mpr ?_))
    by_cases failed : row.status = .failed
    · rw [ensureTransitionAllowed, failed]
      refine wp_answering_then (show unhindered env ctx _ (.runtime .utcnow) = some (_, .ok _)
        from rfl) ?_
      refine wp_seq _ (flushAndCommit_unhindered found key free
        (ProcessingJob.flushed_self rfl rfl rfl rfl)) ?_ ?_
      · rintro _ x' ⟨-, stored, redis, uuids⟩
        exact ⟨fun _ => ⟨⟨_, stored, rfl⟩, redis, uuids⟩, fun other => absurd rfl other⟩
      · rintro _ _ ⟨raised, -⟩
        cases raised
    · have refused : ensureTransitionAllowed row.status .queued =
          .error (invalidTransition row.status .queued) := by
        cases status : row.status <;> first | rfl | exact absurd status failed
      rw [refused]
      exact ⟨fun same => absurd same failed, fun _ => rfl⟩
  · rintro job x' ⟨accepted, refused⟩
    by_cases failed : row.status = .failed
    · obtain ⟨⟨now, requeued, same⟩, redis, uuids⟩ := accepted failed
      cases same
      refine (wp_bind _ _ _ _ _).mpr (wp_mono _ ?_ (publishOrFail_unhindered _ _ _))
      rintro _ x'' ⟨rfl, jobs, event, eventId, owner, published⟩
      refine wp_answering (show unhindered env ctx x'' (.db .closeSession) = some (_, .ok ()) from rfl)
        ⟨fun _ => ⟨?_, ⟨now, ?_⟩, event, eventId.trans uuids, owner.trans key, ?_⟩,
          fun other => absurd failed other⟩
      · rw [← key]
        rfl
      · exact (congrFun jobs jobId).trans requeued
      · rw [← redis]
        exact published
    · cases refused failed
  · rintro error x' ⟨accepted, refused⟩
    have other : row.status ≠ .failed := fun failed => by
      obtain ⟨⟨now, -, same⟩, -⟩ := accepted failed
      cases same
    cases refused other
    refine wp_answering_then (show unhindered env ctx x' (.db .rollback) = some (_, .ok ()) from rfl) ?_
    exact wp_answering (show unhindered env ctx _ (.db .closeSession) = some (_, .ok ()) from rfl)
      ⟨fun failed => absurd failed other, fun _ => rfl⟩

end Serving

theorem Stuck.free {env : Env} {x : Staged} {jobId : Nat} {row : ProcessingJob}
    (stuck : Stuck x.1 jobId row) (consistent : Consistent env x) (locked : Locked x) (t : Nat) :
    x.1.world.db.free t jobId = true := by
  refine Database.free_iff.mpr fun t' held => ?_
  obtain ⟨⟨proc, name, control, loc⟩, found⟩ :=
    Option.isSome_iff_exists.mp (locked.born jobId t' held)
  obtain ⟨write, pending, own⟩ := (locked.agree t' _ found jobId).mp held
  have facts := consistent.locals t' _ found
  have idle : ¬IdleLocal loc := fun idle => by
    rw [show loc.tx = {} from idle.tx] at pending
    cases pending
  cases control with
  | handling loop item rest p =>
    cases stage : x.2 t' <;> rw [stage] at facts <;> first | exact absurd facts idle | skip
    exact absurd (facts.writes_own pending ▸ own) (stuck.unattended t' _ item found rfl)
  | serving request p =>
    exact absurd ⟨t', _, request, p, found, rfl, .inl ⟨write, pending, own⟩⟩ stuck.unpublished
  | _ => exact absurd facts idle

theorem Stuck.serves {env : Env} {s : System} (h : Reached env anyRun s) (proc : Nat) {jobId : Nat}
    {row : ProcessingJob} (stuck : Stuck s jobId row) :
    ∃ (w' : World) (r : Except Exn ApiResponse),
      (∃ s', Serves env s proc (.retry jobId) s') ∧
      (∀ s', Serves env s proc (.retry jobId) s' →
        s'.world = w'.note [.answered s.threads.length r]) ∧
      (row.status = .failed → r = .ok (.jobRetry jobId .queued 0) ∧
        (∃ now, w'.db.jobs jobId = some (requeuedRow row now)) ∧
        ∃ event, event.eventId = s.world.uuids ∧ event.jobId = jobId ∧ w'.redis =
          { s.world.redis with entries := s.world.redis.entries ++ [toStreamFields event] }) ∧
      (row.status ≠ .failed → r = .error (invalidTransition row.status .queued)) := by
  obtain ⟨g, staged⟩ := h.staged
  have key := staged.consistent.keyed jobId row stuck.found
  obtain ⟨document, documented⟩ :=
    Option.isSome_iff_exists.mp (staged.linked.linked jobId row stuck.found)
  obtain ⟨⟨w', loc'⟩, r, ran, accepted, refused⟩ := Program.runWith_of_wp
    (retryJob_unhindered env ⟨s.threads.length, proc, none⟩ stuck.found key
      documented (stuck.free staged.consistent staged.locked _))
  let s₀ : System :=
    ⟨s.world, s.threads ++ [⟨proc, "", .serving (.retry jobId) (retryJob jobId), {}⟩]⟩
  have found : s₀.threads[s.threads.length]? =
      some ⟨proc, "", .serving (.retry jobId) (retryJob jobId), {}⟩ := List.getElem?_concat_length
  obtain ⟨⟨n, s', runs, stopped⟩, only⟩ := serves_alone (s := s₀) rfl found ran
  refine ⟨w', r, ⟨s', n, _, runs, stopped, rfl⟩, ?_, accepted, refused⟩
  rintro s₁ ⟨m, th, runs₁, found₁, stopped₁⟩
  exact only m s₁ th runs₁ found₁ stopped₁

/-- An operator can revive a stuck job exactly if it has failed. -/
theorem revived_iff {env : Env} {s : System} (h : Reached env anyRun s) (proc : Nat) {jobId : Nat}
    {row : ProcessingJob} (stuck : Stuck s jobId row) :
    (∃ s', Serves env s proc (.retry jobId) s' ∧ Revived s s' jobId) ↔ row.status = .failed := by
  obtain ⟨w', r, ⟨s', serves⟩, only, accepted, refused⟩ := stuck.serves h proc
  constructor
  · rintro ⟨s₁, serves₁, revived⟩
    by_contra other
    have answer := revived.answer
    rw [only s₁ serves₁, refused other] at answer
    cases answer
  · intro failed
    obtain ⟨answer, ⟨now, requeued⟩, event, eventId, owner, published⟩ := accepted failed
    have world := only s' serves
    obtain ⟨g, staged⟩ := h.staged
    refine ⟨s', serves, ?_, ⟨requeuedRow row now, ?_, rfl, rfl⟩, event, eventId, owner, ?_, ?_⟩
    · rw [world, answer]
      rfl
    · rw [world]
      exact requeued
    · rw [world]
      exact congrArg Redis.entries published
    · rw [world]
      exact (congrArg Redis.lastDelivered published).trans_le staged.deliveries.delivered

section Sample

def Control.atRest : Control → Bool
  | .idle _ | .stopped => true
  | _ => false

/-- A test for a system with nothing on its way to a worker and no thread in the
middle of anything. -/
def System.deserted (s : System) : Bool := s.drained && s.threads.all (·.control.atRest)

theorem System.deserted_stuck {s : System} (h : s.deserted = true) {jobId : Nat}
    {row : ProcessingJob} (found : s.world.db.jobs jobId = some row)
    (unfinished : row.status ≠ .completed) : Stuck s jobId row := by
  obtain ⟨drained, resting⟩ := Bool.and_eq_true_iff.mp h
  have rests (t : Nat) (th : Thread) (isThread : s.threads[t]? = some th) :
      th.control.atRest = true :=
    List.all_eq_true.mp resting th (List.mem_of_getElem? isThread)
  refine ⟨found, unfinished, fun t th item isThread handles => ?_, drained_sound drained jobId, ?_⟩
  · have rested := rests t th isThread
    obtain ⟨proc, name, control, loc⟩ := th
    cases control with
    | handling loop other rest p => cases rested
    | _ => cases handles
  · rintro ⟨t, th, request, p, isThread, serving, -⟩
    have rested := rests t th isThread
    rw [serving] at rested
    cases rested

theorem exists_stuck (labels : List Label) (status : JobStatus) (unfinished : status ≠ .completed)
    (run : (runChecked (System.step sampleEnv) (fun _ _ _ => true) labels System.init).any (fun s =>
      (s.world.db.jobs 2).any (·.status = status) && s.deserted) = true) :
    ∃ s row, Reached sampleEnv anyRun s ∧ Stuck s 2 row ∧ row.status = status := by
  obtain ⟨s, reached, accepted⟩ := Reached.exists_run sampleEnv anyRun (fun _ _ _ => true) _
    (fun _ _ _ _ => trivial) labels run
  obtain ⟨stored, deserted⟩ := Bool.and_eq_true_iff.mp accepted
  obtain ⟨row, found, same⟩ := (Option.any_eq_true _ _).mp stored
  have same : row.status = status := of_decide_eq_true same
  exact ⟨s, row, reached, System.deserted_stuck deserted found (same ▸ unfinished), same⟩

/-- An attempt fails its job for good. -/
theorem revived_iff_rejected : ∃ s s', Reached sampleEnv anyRun s ∧
    Serves sampleEnv s 0 (.retry 2) s' ∧ Revived s s' 2 := by
  obtain ⟨s, row, reached, stuck, failed⟩ := exists_stuck rejectedRun .failed (by decide)
    (by decide +kernel)
  obtain ⟨s', serves, revived⟩ := (revived_iff reached 0 stuck).mpr failed
  exact ⟨s, s', reached, serves, revived⟩

/-- The API dies between the commit of an upload and its publish. -/
def unpublishedRun : List Label := [.receive 0 sampleUpload] ++ Label.oks 0 9 ++ [.crash 0]

theorem stuck_not_revived : ¬∀ env s, Reached env anyRun s → ∀ proc jobId row,
    Stuck s jobId row → ∃ s', Serves env s proc (.retry jobId) s' ∧ Revived s s' jobId := by
  intro revivable
  obtain ⟨s, row, reached, stuck, queued⟩ := exists_stuck unpublishedRun .queued (by decide)
    (by decide +kernel)
  obtain ⟨s', serves, revived⟩ := revivable sampleEnv s reached 0 2 row stuck
  obtain ⟨w', r, -, only, -, refused⟩ := stuck.serves reached 0
  have answer := revived.answer
  rw [only s' serves, refused (by rw [queued]; decide)] at answer
  cases answer

end Sample

end DocumentPipeline

import DocumentPipeline.Deliveries
import DocumentPipeline.Lifecycle

/-! Whether a job whose worker died can come back. A processing row is brought
back by the redelivery of the entry it was claimed through; `handle` also
acknowledges an entry whose claim was rejected, and a rejected claim may be for
the very entry that row depends on. -/

namespace DocumentPipeline
open EffectProgram Transition Queue JobService

/-- Something on its way to a worker that names the job: an undelivered or
pending entry, a member of the retry set, or an event a scheduler holds. -/
def Vehicle (s : System) (jobId : Nat) : Prop :=
  (∃ id fields event, s.world.redis.entries[id]? = some fields ∧ decodeOne fields = .ok event ∧
    event.jobId = jobId ∧
      (s.world.redis.lastDelivered ≤ id ∨ (s.world.redis.pending id).isSome = true)) ∨
  (∃ event score, (.event event, score) ∈ s.world.redis.retry ∧ event.jobId = jobId) ∨
  ∃ (t : Nat) (th : Thread), s.threads[t]? = some th ∧
    ∃ event ∈ th.control.held, event.jobId = jobId

/-- The row is processing and the attempt that claimed it has ended. -/
def Abandoned (s : System) (jobId : Nat) : Prop :=
  (∃ row, s.world.db.jobs jobId = some row ∧ row.status = .processing) ∧
  ∀ claim, s.world.claims jobId = some claim →
    ∀ (t : Nat) (th : Thread), s.threads[t]? = some th → th.loc.session ≠ some claim.session

/-- The item's job is processing under a claim made through the item's entry. -/
def System.claimedThrough (s : System) (item : DeliveredEvent) : Bool :=
  (s.world.db.jobs item.event.jobId).any (·.status = .processing) &&
    (s.world.claims item.event.jobId).any (·.entry = some item.messageId)

/-- A claim commits while the entry it came with is still pending, and no
handler acknowledges an entry through which its job is being processed. -/
def keepsClaimedEntries (s : System) : Label → Bool
  | .act t choice => match s.call? t with
    | none => true
    | some (th, o) => match th.control.item?, o with
      | some item, .db .commit => match s.commits (.act t choice) with
        | some (.claim _ _) => (s.world.redis.pending item.messageId).isSome
        | _ => true
      | some item, .redis (.xack _) => !s.claimedThrough item
      | _, _ => true
  | _ => true

abbrev keepingEntries : Guard := fun s label _ => keepsClaimedEntries s label = true

theorem execute_claims {env : Env} {ctx : Context} {w : World} {loc : Local} {choice : Choice}
    {o : Op} {reply : Reply o} (h : o.execute env ctx w loc choice = some reply) :
    reply.world.claims = match loc.commits o choice with
      | some (.claim _ row) => Function.update w.claims row.id (loc.session.map fun session =>
          { session, entry := ctx.item.map (·.messageId) })
      | _ => w.claims := by
  cases o with
  | runtime o =>
    obtain ⟨done, did, rfl⟩ := execute_runtime h
    exact (runRuntime_stores did).2.2.2.1
  | redis o =>
    obtain ⟨-, rfl⟩ | ⟨error, -, -, rfl⟩ | ⟨error, -, -, rfl⟩ := execute_redis h
    all_goals exact (noteRedis_stores w.redis o _).2.2.2.2
  | db o =>
    by_cases commit : o = .commit
    · subst commit
      obtain ⟨⟨document, write, result⟩, session, window, scheduled, listed⟩ := loc
      obtain ⟨rfl, rfl⟩ | ⟨error, rfl, -, rfl⟩ | ⟨error, rfl, -, rfl⟩ := execute_commit h
      · rcases write with _ | _ | _ | _ <;> rfl
      · rfl
      · rcases write with _ | _ | _ | _ <;> rfl
    · obtain ⟨rfl, done, did, rfl⟩ | ⟨error, rfl, -, -, rfl⟩ := execute_db h commit
      · cases o <;> first | rfl | exact absurd rfl commit
      · cases o <;> rfl

/-- Every processing row is covered by the entry it was claimed through. -/
def Covered (x : Staged) : Prop :=
  ∀ jobId row, x.1.world.db.jobs jobId = some row → row.status = .processing →
    ∃ claim item, x.1.world.claims jobId = some claim ∧ claim.entry = some item.messageId ∧
      x.1.world.redis.Delivered item ∧ item.event.jobId = jobId ∧
      (x.1.world.redis.pending item.messageId).isSome = true

theorem Covered.vehicle {x : Staged} (covered : Covered x) {jobId : Nat} {row : ProcessingJob}
    (found : x.1.world.db.jobs jobId = some row) (processing : row.status = .processing) :
    Vehicle x.1 jobId := by
  obtain ⟨claim, item, -, -, ⟨fields, held, decoded⟩, owner, pending⟩ :=
    covered jobId row found processing
  exact .inl ⟨item.messageId, fields, item.event, held.1, decoded, owner, .inr pending⟩

namespace Redis

theorem run_pending {now : Time} {r : Redis} {o : RedisOp} {id : Nat}
    (pending : (r.pending id).isSome = true) (other : o ≠ .xack id) :
    ((r.run now o).redis.pending id).isSome = true := by
  cases o with
  | xreadgroup consumer count =>
    simp only [run]
    split
    · rfl
    · exact pending
  | xclaim consumer minIdle ids =>
    simp only [run]
    split
    · simpa using pending
    · exact pending
  | xack messageId =>
    have apart : id ≠ messageId := fun same => other (by rw [same])
    simp only [run, Function.update_of_ne apart]
    exact pending
  | _ => exact pending

theorem redisAfter_pending {w : World} {o : Op} {choice : Choice} {id : Nat}
    (pending : (w.redis.pending id).isSome = true) (other : o ≠ .redis (.xack id)) :
    ((o.redisAfter w choice).pending id).isSome = true := by
  cases o with
  | redis o =>
    simp only [Op.redisAfter]
    split
    · exact run_pending pending fun same => other (by rw [same])
    · exact pending
  | _ => exact pending

end Redis

namespace Covered
variable {env : Env} {x : Staged} {t : Nat} {choice : Choice}

/-- The entry of a processing row survives a call that the guard allows. -/
theorem keeps_pending (consistent : Consistent env x) (deliveries : Deliveries x)
    (call : Call env x t choice) (guarded : keepsClaimedEntries x.1 (.act t choice) = true)
    {item : DeliveredEvent} (held : x.1.world.redis.Delivered item)
    (pending : (x.1.world.redis.pending item.messageId).isSome = true)
    (through : x.1.claimedThrough item = true) :
    (call.world'.redis.pending item.messageId).isSome = true := by
  have redis := execute_redisAfter call.ran
  simp only [Call.world', World.note_redis, redis]
  refine Redis.redisAfter_pending pending fun acks => ?_
  obtain ⟨other, stage, is⟩ | ⟨request, stage, is⟩ | ⟨task, stage, is⟩ := consistent.kind call
  · have permitted := is.permitted
    rw [acks] at permitted
    obtain ⟨row, eventId, score, -, absurd⟩ | ⟨how, -, same⟩ :=
      AttemptStage.permits_redis permitted
    · cases absurd
    · obtain ⟨loop, rest, p, p', control, -⟩ := is.control
      have same : item.messageId = other.messageId := by simpa using same
      have handled := deliveries.items t call.thread call.found other (by
        rw [control]
        exact List.mem_cons_self)
      have event := held.event handled same
      simp only [keepsClaimedEntries, call.call?_eq, control, Control.item?, acks] at guarded
      simp only [System.claimedThrough, ← same, ← event] at guarded through
      rw [through] at guarded
      cases guarded
  · have permitted := is.permitted
    rw [acks] at permitted
    obtain ⟨_, _, _, -, absurd, -⟩ := RequestStage.permits_redis permitted
    cases absurd
  · have permitted := is.permitted
    rw [acks] at permitted
    obtain ⟨-, -, h⟩ | ⟨-, -, _, h⟩ | ⟨_, -, -, h⟩ | ⟨_, counts, messages, id, fields, -, staged,
      same, mem, malformed⟩ | ⟨_, _, -, -, h⟩ | ⟨_, -, -, h⟩ := LoopStage.permits_redis permitted
    all_goals first | cases h | skip
    cases same
    obtain ⟨fields', ⟨found, -⟩, decoded⟩ := held
    rw [staged] at is
    have isEntry := (deliveries.messages t counts messages is.staged _ mem).1
    cases isEntry.symm.trans found
    exact malformed _ decoded

theorem act (covered : Covered x) (consistent : Consistent env x)
    (deliveries : Deliveries x) (call : Call env x t choice)
    (guarded : keepsClaimedEntries x.1 (.act t choice) = true) : Covered call.result := by
  have further : x.1.world.redis.Extends call.world'.redis := by
    simp only [Call.world', World.note_redis, execute_redisAfter call.ran]
    exact Redis.redisAfter_extends _ _ _
  have claims := execute_claims call.ran
  intro jobId row found processing
  simp only [Call.world', World.note_db, execute_jobs call.ran] at found
  simp only [Call.world', World.note_claims]
  have kept : x.1.world.db.jobs jobId = some row →
      call.reply.world.claims jobId = x.1.world.claims jobId →
      ∃ claim item, call.reply.world.claims jobId = some claim ∧
        claim.entry = some item.messageId ∧ call.world'.redis.Delivered item ∧
        item.event.jobId = jobId ∧ (call.world'.redis.pending item.messageId).isSome = true := by
    intro before same
    obtain ⟨claim, item, isClaim, entry, held, owner, pending⟩ :=
      covered jobId row before processing
    refine ⟨claim, item, same.trans isClaim, entry, Deliveries.holds_extend held further, owner,
      keeps_pending consistent deliveries call guarded held pending ?_⟩
    simp only [System.claimedThrough, owner, before, isClaim, Option.any_some, processing, entry,
      decide_true, Bool.and_self]
  split at found
  · rename_i quiet
    rw [quiet] at claims
    exact kept found (congrFun claims jobId)
  · rename_i write committed
    rw [committed] at claims
    have pending := (commits_write committed).2
    have lawful := consistent.lawful call.found pending
    by_cases own : jobId = write.row.id
    · subst own
      rw [Function.update_self] at found
      cases found
      cases write with
      | insert created => cases (show created.status = .queued from lawful).symm.trans processing
      | update loaded base written =>
        obtain ⟨current, rfl, allowed, other⟩ := lawful
        simp only [Write.row, ProcessingJob.flushed, allowed_ne allowed, if_false] at processing
        exact absurd processing other
      | claim base claimed =>
        obtain ⟨item, now, is⟩ := consistent.claiming call pending
        obtain ⟨loop, rest, p, p', control, -⟩ := is.control
        obtain ⟨session, isSession⟩ := Option.isSome_iff_exists.mp (is.facts.session rfl)
        have writes := is.facts.write
        rw [pending] at writes
        obtain ⟨owner, rfl, -⟩ := writes
        have isCommit := (commits_write committed).1
        have handled := deliveries.items t call.thread call.found item (by
          rw [control]
          exact List.mem_cons_self)
        have entryPending : (x.1.world.redis.pending item.messageId).isSome = true := by
          rw [isCommit] at committed
          simpa only [keepsClaimedEntries, call.call?_eq, control, Control.item?, isCommit,
            call.commits_eq, committed] using guarded
        refine ⟨{ session, entry := some item.messageId }, item, ?_, rfl,
          Deliveries.holds_extend handled further, owner.symm, ?_⟩
        · rw [claims, isSession, System.context, control]
          exact Function.update_self ..
        · simp only [World.note_redis, execute_redisAfter call.ran]
          exact Redis.redisAfter_pending entryPending (by rw [isCommit]; exact fun same => by cases same)
    · rw [Function.update_of_ne own] at found
      refine kept found ?_
      cases write with
      | claim base claimed => exact (congrFun claims jobId).trans (Function.update_of_ne own _ _)
      | _ => exact congrFun claims jobId

theorem step {x' : Staged} {label : Label} (covered : Covered x) (consistent : Consistent env x)
    (deliveries : Deliveries x) (move : Move env x label x')
    (guarded : keepsClaimedEntries x.1 label = true) : Covered x' := by
  cases move with
  | act call => exact covered.act consistent deliveries call guarded
  | _ => exact covered

end Covered

/-- When claims are made through pending entries and no handler acknowledges
the entry its job is being processed through, every abandoned job can come
back. -/
theorem abandoned_recoverable {env : Env} {s : System}
    (h : Reached env keepingEntries s) (jobId : Nat)
    (abandoned : Abandoned s jobId) : Vehicle s jobId := by
  obtain ⟨g, staged⟩ := h.staged
  obtain ⟨⟨row, found, processing⟩, -⟩ := abandoned
  have covered : Covered (s, g) := staged.invariant (fun _ _ absent => by cases absent)
    fun x label x' (reached : StagedRun env keepingEntries x) covered stepped guarded =>
      covered.step reached.consistent reached.deliveries (move_of_step stepped) guarded
  exact covered.vehicle found processing

def System.drained (s : System) : Bool :=
  (List.range s.world.redis.entries.length).all
      (fun id => id < s.world.redis.lastDelivered && (s.world.redis.pending id).isNone) &&
    s.world.redis.retry.isEmpty && s.threads.all (·.control.held.isEmpty)

theorem System.drained_sound {s : System} (h : s.drained = true) (jobId : Nat) :
    ¬Vehicle s jobId := by
  simp only [drained, Bool.and_eq_true, decide_eq_true_eq, List.all_eq_true, List.mem_range,
    List.isEmpty_iff, Option.isNone_iff_eq_none] at h
  obtain ⟨⟨entries, retry⟩, held⟩ := h
  rintro (⟨id, fields, event, isEntry, -, -, undelivered | pending⟩ | ⟨event, score, mem, -⟩ |
    ⟨t, th, isThread, event, mem, -⟩)
  · obtain ⟨bound, -⟩ := List.getElem?_eq_some_iff.mp isEntry
    exact absurd (entries id bound).1 (not_lt.mpr undelivered)
  · obtain ⟨bound, -⟩ := List.getElem?_eq_some_iff.mp isEntry
    rw [(entries id bound).2] at pending
    cases pending
  · rw [retry] at mem
    cases mem
  · rw [held th (List.mem_of_getElem? isThread)] at mem
    cases mem

def System.abandons (s : System) (jobId : Nat) : Bool :=
  (s.world.db.jobs jobId).any (·.status = .processing) &&
    (s.world.claims jobId).all fun claim => s.threads.all (·.loc.session ≠ some claim.session)

theorem System.abandons_sound {s : System} {jobId : Nat} (h : s.abandons jobId = true) :
    Abandoned s jobId := by
  simp only [abandons, Bool.and_eq_true, Option.any_eq_true, decide_eq_true_eq, Option.all_eq_true,
    List.all_eq_true] at h
  obtain ⟨⟨row, found, processing⟩, dead⟩ := h
  exact ⟨⟨row, found, processing⟩, fun claim isClaim t th isThread =>
    dead claim isClaim th (List.mem_of_getElem? isThread)⟩

/-- A worker dies after its claim; the entry is reclaimed after a minute, long
before the row is stale, and the rejected claim is acknowledged. -/
def crashedClaimRun : List Label :=
  [.receive 0 sampleUpload] ++ Label.oks 0 14 ++ [.startWorker 1 "w1", .iterate 1] ++
    Label.oks 1 6 ++ [.crash 1, .tick 60000000, .startWorker 2 "w2", .iterate 5] ++ Label.oks 5 8

theorem abandoned_lost :
    ¬∀ env s, Reached env anyRun s → ∀ jobId, Abandoned s jobId → Vehicle s jobId := by
  intro recoverable
  obtain ⟨s, reached, accepted⟩ := Reached.exists_run sampleEnv anyRun (fun _ _ _ => true)
    (fun s => s.abandons 2 && s.drained) (fun _ _ _ _ => trivial) crashedClaimRun
    (by decide +kernel)
  obtain ⟨abandons, drained⟩ := Bool.and_eq_true_iff.mp accepted
  exact System.drained_sound drained 2
    (recoverable sampleEnv s reached 2 (System.abandons_sound abandons))

/-- The same crash before anything is reclaimed. -/
theorem abandoned_recoverable_crashed : ∃ s, Reached sampleEnv keepingEntries s ∧
    Abandoned s 2 ∧ Vehicle s 2 := by
  obtain ⟨s, reached, accepted⟩ := Reached.exists_run sampleEnv keepingEntries
    (fun s label _ => keepsClaimedEntries s label) (·.abandons 2) (fun _ _ _ kept => kept)
    (crashedClaimRun.take 24) (by decide +kernel)
  have abandoned := System.abandons_sound accepted
  exact ⟨s, reached, abandoned, abandoned_recoverable reached 2 abandoned⟩

end DocumentPipeline

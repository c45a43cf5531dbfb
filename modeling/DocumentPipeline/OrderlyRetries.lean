import DocumentPipeline.ManualRetries

/-! Runs in which the retry requests of a job do not overlap and the API's
publishes succeed. A reset then finds the failed row that its request has read,
so that the writes of requests land without being asked to. -/

namespace DocumentPipeline
open EffectProgram Transition JobService

def Control.retries (jobId : Nat) : Control → Bool
  | .serving (.retry id) _ => id = jobId
  | _ => false

/-- A retry request arrives when no other one for its job is being served. -/
def retriesApart (s : System) : Label → Bool
  | .receive _ (.retry jobId) => s.threads.all fun th => !th.control.retries jobId
  | _ => true

/-- An XADD of a request succeeds. -/
def publishesSucceed (s : System) : Label → Bool
  | .act t choice => match s.call? t with
    | some (th, .redis (.xadd _)) => match th.control with
      | .serving _ _ => (choice matches .ok)
      | _ => true
    | _ => true
  | _ => true

abbrev orderly (env : Env) : Guard := fun s label s' =>
  retriesApart s label = true ∧ publishesSucceed s label = true ∧ Timely env s'

def System.isOrderly (env : Env) (s : System) (label : Label) (s' : System) : Bool :=
  retriesApart s label && publishesSucceed s label && s'.timely env

theorem System.isOrderly_sound {env : Env} {s s' : System} {label : Label}
    (h : s.isOrderly env label s' = true) : orderly env s label s' := by
  obtain ⟨requests, timely⟩ := Bool.and_eq_true_iff.mp h
  obtain ⟨apart, publishes⟩ := Bool.and_eq_true_iff.mp requests
  exact ⟨apart, publishes, System.timely_sound timely⟩

theorem Reached.exists_orderly (env : Env) (accept : System → Bool) (labels : List Label)
    (run : (runChecked (System.step env) (fun s label s' => s.isOrderly env label s') labels
      System.init).any accept = true) :
    ∃ s, Reached env (orderly env) s ∧ accept s = true :=
  Reached.exists_run env (orderly env) (fun s label s' => s.isOrderly env label s') accept
    (fun _ _ _ => System.isOrderly_sound) labels run

theorem failed_of_allowed {status : JobStatus} (h : isTransitionAllowed status .queued = true) :
    status = .failed := by
  revert h
  cases status <;> decide

namespace RequestStage

def resets? : RequestStage → Option ProcessingJob
  | .loaded row => if row.status = .failed then some row else none
  | .resetting row _ => some row
  | _ => none

def refusing : RequestStage → Bool
  | .refused _ | .refailing _ _ => true
  | _ => false

variable {env : Env} {request : Request} {stage : RequestStage} {o : Op} {answer : Except Exn o.Val}

theorem next_refusing (h : (stage.next o answer).refusing = true) : stage.refusing = true ∨
    ∃ fields error, o = .redis (.xadd fields) ∧ HEq answer (Except.error (α := Nat) (ε := Exn) error) := by
  unfold next at h
  split at h <;> first
    | exact .inr ⟨_, _, rfl, .rfl⟩
    | exact .inl rfl
    | cases h

theorem next_resets {row : ProcessingJob} (permitted : stage.permits env request o)
    (h : (stage.next o answer).resets? = some row) : stage.resets? = some row ∧ o ≠ .db .commit ∨
      ∃ id, ∃ document : Document, o = .db (.selectJob id) ∧
        HEq answer (Except.ok (ε := Exn) (some (row, document))) := by
  unfold next at h
  split at h <;> try cases h
  · simp only [resets?] at h
    split at h <;> cases h
    exact .inr ⟨_, _, rfl, .rfl⟩
  · exact .inl ⟨h, fun same => (by cases same)⟩
  · obtain ⟨rfl, allowed, -⟩ := permitted
    exact .inl ⟨if_pos (failed_of_allowed allowed), fun same => (by cases same)⟩

theorem resets_sound (sound : stage.Sound env request) {row : ProcessingJob}
    (h : stage.resets? = some row) : request = .retry row.id ∧ row.status = .failed := by
  cases stage with
  | loaded held =>
    simp only [resets?] at h
    split at h <;> cases h
    exact ⟨sound, ‹_›⟩
  | resetting held current =>
    cases h
    exact ⟨sound.1, failed_of_allowed sound.2.1⟩
  | _ => cases h

end RequestStage

theorem getElem?_of_append {α : Type} {l new : List α} {t : Nat} {a : α}
    (found : (l ++ new)[t]? = some a) (fresh : a ∉ new) : l[t]? = some a := by
  by_cases old : t < l.length
  · rwa [List.getElem?_append_left old] at found
  · rw [List.getElem?_append_right (not_lt.mp old)] at found
    exact absurd (List.mem_of_getElem? found) fresh

theorem Move.retrying {env : Env} {x x' : Staged} {label : Label} (consistent : Consistent env x)
    (move : Move env x label x') {t jobId : Nat} {th : Thread} (found : x'.1.threads[t]? = some th)
    (serves : th.control.retries jobId = true) :
    (∃ before, x.1.threads[t]? = some before ∧ before.control.retries jobId = true) ∨
      t = x.1.threads.length ∧ ∃ proc, label = .receive proc (.retry jobId) := by
  cases move with
  | tick duration => exact .inl ⟨th, found, serves⟩
  | startWorker proc name =>
    refine .inl ⟨th, getElem?_of_append found fun mem => ?_, serves⟩
    simp only [List.mem_cons, List.not_mem_nil, or_false] at mem
    obtain rfl | rfl | rfl := mem <;> cases serves
  | receive proc request =>
    by_cases old : t < x.1.threads.length
    · exact .inl ⟨th, by rwa [List.getElem?_append_left old] at found, serves⟩
    · have there := (List.getElem?_eq_some_iff.mp found).1
      rw [List.length_append, List.length_singleton] at there
      obtain rfl : t = x.1.threads.length := by omega
      rw [List.getElem?_append_right le_rfl, Nat.sub_self] at found
      cases found
      cases request with
      | upload file documentType => cases serves
      | retry id =>
        obtain rfl : id = jobId := of_decide_eq_true serves
        exact .inr ⟨rfl, proc, rfl⟩
  | @iterate t' before loop isFound idle =>
    by_cases own : t' = t
    · subst own
      rw [List.getElem?_set_self', isFound] at found
      cases found
      cases loop <;> cases serves
    · exact .inl ⟨th, by rwa [List.getElem?_set_ne own] at found, serves⟩
  | act call =>
    obtain ⟨rfl, rfl⟩ | ⟨-, isFound⟩ := call.threads_result found
    · obtain ⟨request, p, control⟩ : ∃ request p, call.thread'.control = .serving request p := by
        cases control : call.thread'.control with
        | serving request p => exact ⟨request, p, rfl⟩
        | _ => rw [control] at serves; cases serves
      have reached := Control.settle_serving control
      rw [control] at serves
      obtain ⟨item, stage, is⟩ | ⟨request', stage, is⟩ | ⟨task, stage, is⟩ := consistent.kind call
      · obtain ⟨loop, rest, q, q', -, handles⟩ := is.control
        cases handles.symm.trans reached
      · obtain ⟨q, q', before, same⟩ := is.control
        cases same.symm.trans reached
        exact .inl ⟨call.thread, call.found, by rw [before]; cases request <;> exact serves⟩
      · have runs := is.control.2.1
        rw [reached] at runs
        cases runs
    · exact .inl ⟨th, isFound, serves⟩
  | crash proc =>
    simp only [System.crash, List.getElem?_map, Option.map_eq_some_iff] at found
    obtain ⟨before, isFound, rfl⟩ := found
    split at serves
    · cases serves
    · exact .inl ⟨before, isFound, serves⟩

theorem Consistent.serving {env : Env} {x : Staged} (consistent : Consistent env x) {t : Nat}
    {stage : RequestStage} (staged : x.2 t = .request stage) : ∃ th request p,
      x.1.threads[t]? = some th ∧ th.control = .serving request p ∧
        RequestLocal env request stage th.loc := by
  cases found : x.1.threads[t]? with
  | none =>
    have rests := consistent.resting t found
    cases rests.symm.trans staged
  | some th =>
    have conforms := consistent.conforms t th found
    have facts := consistent.locals t th found
    rw [staged] at conforms facts
    cases control : th.control with
    | serving request p =>
      rw [control] at facts
      exact ⟨th, request, p, rfl, control, facts⟩
    | _ =>
      rw [control] at conforms
      exact conforms.elim

theorem Call.selects {env : Env} {x : Staged} {t : Nat} {choice : Choice} (call : Call env x t choice)
    (keyed : x.1.world.db.Keyed) {id : Nat} {row : ProcessingJob} {document : Document}
    (isOp : call.o = .db (.selectJob id))
    (answer : HEq call.reply.answer (Except.ok (ε := Exn) (some (row, document)))) :
    x.1.world.db.jobs row.id = some row := by
  obtain ⟨thread, o, next, reply, found, waits, ran⟩ := call
  cases isOp
  have stored := (execute_selectJob ran (eq_of_heq answer)).1
  rwa [keyed id row stored]

/-- What orderly requests find: no other retry of their job, the row they are
about to reset as they have read it, and a stream that takes their event. -/
structure Undisputed (x : Staged) : Prop where
  alone : ∀ (t t' : Nat) (th th' : Thread) (jobId : Nat), x.1.threads[t]? = some th →
    x.1.threads[t']? = some th' → th.control.retries jobId = true →
      th'.control.retries jobId = true → t = t'
  current : ∀ (t : Nat) (stage : RequestStage) (row : ProcessingJob), x.2 t = .request stage →
    stage.resets? = some row → x.1.world.db.jobs row.id = some row
  taken : ∀ (t : Nat) (stage : RequestStage), x.2 t = .request stage → stage.refusing = false

namespace Undisputed
variable {env : Env} {x : Staged} {t : Nat} {choice : Choice}

theorem resetting (undisputed : Undisputed x) (locked : Locked x)
    {call : Call env x t choice} {request : Request} {stage : RequestStage}
    (is : RequestCall call request stage) {loaded base row : ProcessingJob}
    (pending : call.thread.loc.tx.write = some (.update loaded base row)) :
    request = .retry row.id ∧ base = loaded ∧ base.status = .failed ∧
      ∃ now, row = base.flushed (requeuedRow base now) base := by
  have writes := is.facts.write
  have sound := is.facts.sound
  have based := locked.based t _ _ call.found pending
  rw [pending] at writes
  cases stage <;> first | exact writes.elim | skip
  · obtain ⟨rfl, same, rfl⟩ := writes
    obtain ⟨keyed, allowed, now, rfl⟩ := sound
    have stored : x.1.world.db.jobs loaded.id = some base := same ▸ based
    cases (undisputed.current t _ loaded is.staged rfl).symm.trans stored
    exact ⟨keyed, rfl, failed_of_allowed allowed, now, rfl⟩
  · cases undisputed.taken t _ is.staged

theorem lands (undisputed : Undisputed x) (consistent : Consistent env x) (locked : Locked x)
    {x' : Staged} {label : Label} (move : Move env x label x') : requestsLand x.1 label = true := by
  cases move with
  | act call =>
    simp only [requestsLand, call.call?_eq, call.commits_eq]
    split
    · rename_i request p control
      cases committed : call.thread.loc.commits call.o _ with
      | none => rfl
      | some write =>
        obtain ⟨item, stage, is⟩ | ⟨request, stage, is⟩ | ⟨task, stage, is⟩ := consistent.kind call
        · obtain ⟨_, _, _, _, handles, -⟩ := is.control
          cases handles.symm.trans control
        · cases write with
          | update loaded base row =>
            obtain ⟨-, rfl, failed, now, rfl⟩ :=
              undisputed.resetting locked is (commits_write committed).2
            have queued : (base.flushed (requeuedRow base now) base).status = .queued :=
              ProcessingJob.flushed_status (by rw [failed]; exact fun same => (by cases same)) base
            simp only [Option.all_some, Write.lands, queued, if_true, failed, decide_true]
          | _ => rfl
        · cases is.facts.tx ▸ (commits_write committed).2
    · rfl
  | _ => rfl

/-- A failed row that a request is about to reset is written by no one else. -/
theorem untouched (undisputed : Undisputed x) (owned : Owned env x) (consistent : Consistent env x)
    (locked : Locked x) (call : Call env x t choice) {t' : Nat} {stage : RequestStage}
    {row : ProcessingJob} (other : t' ≠ t) (staged : x.2 t' = .request stage)
    (resets : stage.resets? = some row) {write : Write}
    (committed : call.thread.loc.commits call.o choice = some write) : row.id ≠ write.row.id := by
  intro same
  have pending := (commits_write committed).2
  have based := locked.based t call.thread write call.found pending
  have stored := undisputed.current t' stage row staged resets
  obtain ⟨th', request', p', found', control', facts'⟩ := consistent.serving staged
  obtain ⟨rfl, failed⟩ := RequestStage.resets_sound facts'.sound resets
  rw [same] at stored
  cases write with
  | insert created => cases stored.symm.trans based
  | claim base claimed =>
    cases stored.symm.trans based
    obtain ⟨-, claimable | again⟩ := consistent.lawful call.found pending
    · rw [failed] at claimable
      revert claimable
      decide
    · cases failed.symm.trans again
  | update loaded base written =>
    cases stored.symm.trans based
    obtain ⟨item, stage', is⟩ | ⟨request, stage', is⟩ | ⟨task, stage', is⟩ := consistent.kind call
    · obtain ⟨win, opened, owner⟩ := owned.own_window call is pending
      obtain ⟨held, isHeld, owns, -⟩ := owned.rows t _ win call.found opened
      rw [owner] at isHeld
      cases isHeld.symm.trans stored
      cases failed.symm.trans owns.status
    · obtain ⟨rfl, -⟩ := undisputed.resetting locked is pending
      obtain ⟨p, -, control, -⟩ := is.control
      refine other (undisputed.alone t' t th' _ row.id found' call.found ?_ ?_)
      · rw [control']
        exact decide_eq_true rfl
      · rw [control]
        exact decide_eq_true same.symm
    · rw [is.facts.tx] at pending
      cases pending

theorem current_act (undisputed : Undisputed x) (owned : Owned env x) (consistent : Consistent env x)
    (locked : Locked x) (call : Call env x t choice) (t' : Nat) (stage : RequestStage)
    (row : ProcessingJob) (staged : call.result.2 t' = .request stage)
    (resets : stage.resets? = some row) : call.world'.db.jobs row.id = some row := by
  by_cases own : t' = t
  · subst own
    rw [call.own_stage] at staged
    obtain ⟨item, stage', is⟩ | ⟨request, stage', is⟩ | ⟨task, stage', is⟩ := consistent.kind call
    · obtain ⟨goes, -⟩ | ⟨-, goes⟩ := is.goes
      · cases goes.symm.trans staged
      · cases Control.first_request (goes.symm.trans staged)
        cases resets
    · obtain ⟨goes, -⟩ | ⟨-, goes, -⟩ := is.goes
      · cases goes.symm.trans staged
        obtain ⟨before, quiet⟩ | ⟨id, document, isOp, answer⟩ :=
          RequestStage.next_resets is.permitted resets
        · refine Owned.jobs_kept call (undisputed.current t' _ row is.staged before) fun write committed => ?_
          exact absurd (commits_write committed).1 quiet
        · refine Owned.jobs_kept call (call.selects consistent.keyed isOp answer) fun write committed => ?_
          cases isOp.symm.trans (commits_write committed).1
      · cases goes.symm.trans staged
    · obtain ⟨goes, -⟩ | goes := is.goes
      · cases goes.symm.trans staged
      · cases Control.first_request (goes.symm.trans staged)
        cases resets
  · rw [call.other_stage own] at staged
    refine Owned.jobs_kept call (undisputed.current t' stage row staged resets) fun write committed => ?_
    exact undisputed.untouched owned consistent locked call own staged resets committed

theorem taken_act (undisputed : Undisputed x) (consistent : Consistent env x)
    (call : Call env x t choice) (publishes : publishesSucceed x.1 (.act t choice) = true) (t' : Nat)
    (stage : RequestStage) (staged : call.result.2 t' = .request stage) : stage.refusing = false := by
  by_cases own : t' = t
  · subst own
    rw [call.own_stage] at staged
    obtain ⟨item, stage', is⟩ | ⟨request, stage', is⟩ | ⟨task, stage', is⟩ := consistent.kind call
    · obtain ⟨goes, -⟩ | ⟨-, goes⟩ := is.goes
      · cases goes.symm.trans staged
      · cases Control.first_request (goes.symm.trans staged)
        rfl
    · obtain ⟨goes, -⟩ | ⟨-, goes, -⟩ := is.goes
      · cases goes.symm.trans staged
        obtain ⟨p, -, control, -⟩ := is.control
        by_contra refusing
        obtain before | ⟨fields, error, isOp, answer⟩ :=
          RequestStage.next_refusing (Bool.eq_true_of_not_eq_false refusing)
        · cases (undisputed.taken t' _ is.staged).symm.trans before
        · simp only [publishesSucceed, call.call?_eq, isOp, control] at publishes
          clear is refusing staged goes
          obtain ⟨thread, o, next, reply, found, waits, ran⟩ := call
          cases isOp
          obtain ⟨rfl, rfl⟩ | ⟨_, rfl, -⟩ | ⟨_, rfl, -⟩ := execute_redis ran
          · cases eq_of_heq answer
          · cases publishes
          · cases publishes
      · cases goes.symm.trans staged
    · obtain ⟨goes, -⟩ | goes := is.goes
      · cases goes.symm.trans staged
      · cases Control.first_request (goes.symm.trans staged)
        rfl
  · exact undisputed.taken t' stage ((call.other_stage own).symm.trans staged)

theorem alone_step (undisputed : Undisputed x) (consistent : Consistent env x) {x' : Staged}
    {label : Label} (move : Move env x label x') (apart : retriesApart x.1 label = true) (t t' : Nat)
    (th th' : Thread) (jobId : Nat) (found : x'.1.threads[t]? = some th)
    (found' : x'.1.threads[t']? = some th') (serves : th.control.retries jobId = true)
    (serves' : th'.control.retries jobId = true) : t = t' := by
  have newcomer : ∀ proc, label = .receive proc (.retry jobId) → ∀ (t : Nat) (th : Thread),
      x.1.threads[t]? = some th → th.control.retries jobId ≠ true := by
    rintro proc rfl t th isFound retries
    have quiet := List.all_eq_true.mp apart th (List.mem_of_getElem? isFound)
    rw [retries] at quiet
    cases quiet
  obtain ⟨before, isFound, was⟩ | ⟨last, proc, received⟩ := move.retrying consistent found serves <;>
    obtain ⟨before', isFound', was'⟩ | ⟨last', proc', received'⟩ :=
      move.retrying consistent found' serves'
  · exact undisputed.alone t t' before before' jobId isFound isFound' was was'
  · exact absurd was (newcomer proc' received' t before isFound)
  · exact absurd was' (newcomer proc received t' before' isFound')
  · exact last.trans last'.symm

theorem step (undisputed : Undisputed x) (owned : Owned env x) (consistent : Consistent env x)
    (locked : Locked x) {x' : Staged} {label : Label} (move : Move env x label x')
    (guarded : orderly env x.1 label x'.1) : Undisputed x' := by
  have alone := undisputed.alone_step consistent move guarded.1
  obtain ⟨t, choice, call, rfl, rfl⟩ | noCall := move.call_or
  · exact ⟨alone, undisputed.current_act owned consistent locked call,
      undisputed.taken_act consistent call guarded.2.1⟩
  · refine ⟨alone, fun t stage row staged resets => ?_, fun t stage staged => ?_⟩
    · obtain kept | ⟨c, first⟩ := move.stage noCall t
      · rw [(move.rests noCall).jobs]
        exact undisputed.current t stage row (kept.symm.trans staged) resets
      · cases Control.first_request (first.symm.trans staged)
        cases resets
    · obtain kept | ⟨c, first⟩ := move.stage noCall t
      · exact undisputed.taken t stage (kept.symm.trans staged)
      · cases Control.first_request (first.symm.trans staged)
        rfl

theorem init : Undisputed (System.init, fun _ => .resting) where
  alone _ _ _ _ _ found := by cases found
  current _ _ _ staged := by cases staged
  taken _ _ staged := by cases staged

end Undisputed

/-- In orderly runs every write of a request lands. -/
theorem StagedRun.undisputed {env : Env} (agree : ClocksAgree env) {x : Staged}
    (h : StagedRun env (orderly env) x) : StagedRun env (landingTimely env) x ∧ Undisputed x :=
  h.invariant (I := fun x => StagedRun env (landingTimely env) x ∧ Undisputed x)
    ⟨.start, .init⟩ fun x label x' _ held stepped guarded => by
      obtain ⟨reached, undisputed⟩ := held
      have move := move_of_step stepped
      have consistent := StagedRun.consistent reached
      have locked := StagedRun.locked reached
      exact ⟨reached.step stepped ⟨undisputed.lands consistent locked move, guarded.2.2⟩,
        undisputed.step (reached.owned_landing agree) consistent locked move guarded⟩

end DocumentPipeline

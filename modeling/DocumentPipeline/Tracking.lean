import DocumentPipeline.LoopProtocol

/-! The stage of every thread, kept beside the system as a history variable.
Every control state conforms to its stage, so the calls of a step are those the
protocols permit. `Move` and `ThreadMove` are the inversions of a step that the
invariants are proved from. -/

namespace DocumentPipeline
open EffectProgram Transition

inductive Stage
  | resting
  | loop (stage : LoopStage)
  | attempt (stage : AttemptStage)
  | request (stage : RequestStage)

abbrev served (request : Request) (r : Except Exn Routes.ApiResponse) (stage : RequestStage) :
    Prop :=
  match r with
  | .ok _ => ∃ row, stage = .answered row
  | .error error => ∃ why : Refusal, stage = .closed why ∧ why.raises request error

namespace Control

def task? : Control → Option Task
  | .fetching loop _ => some (.fetch loop)
  | .popping _ => some .pop
  | .publishing event _ _ => some (.publish event)
  | _ => none

def first : Control → Stage
  | .idle _ | .stopped => .resting
  | .fetching _ _ | .popping _ | .publishing _ _ _ => .loop .start
  | .handling _ _ _ _ => .attempt .start
  | .serving _ _ => .request .start

theorem first_attempt {c : Control} {stage : AttemptStage} (h : c.first = .attempt stage) :
    stage = .start := by
  cases c <;> cases h
  rfl

theorem first_request {c : Control} {stage : RequestStage} (h : c.first = .request stage) :
    stage = .start := by
  cases c <;> cases h
  rfl

theorem first_loop {c : Control} {stage : LoopStage} (h : c.first = .loop stage) :
    stage = .start := by
  cases c <;> cases h <;> rfl

def permits (env : Env) (name : String) : Control → Stage → Op → Prop
  | .fetching loop _, .loop stage, o => stage.permits env name (.fetch loop) o
  | .handling _ item _ _, .attempt stage, o => stage.permits env name item o
  | .popping _, .loop stage, o => stage.permits env name .pop o
  | .publishing event _ _, .loop stage, o => stage.permits env name (.publish event) o
  | .serving request _, .request stage, o => stage.permits env request o
  | _, _, _ => False

def nextStage (c : Control) (stage : Stage) (o : Op) (reply : Except Exn o.Val) : Stage :=
  match c, stage with
  | .handling _ item _ _, .attempt stage => .attempt (stage.next item o reply)
  | _, .loop stage => .loop (stage.next o reply)
  | _, .request stage => .request (stage.next o reply)
  | _, _ => .resting

def Conforms (env : Env) (name : String) : Control → Stage → Prop
  | .idle _, .resting | .stopped, .resting => True
  | .fetching loop p, .loop stage => loops env name (.fetch loop) p fetched stage
  | .handling _ item _ p, .attempt stage =>
    follows env name item p (fun _ stage => stage.finished = true) stage
  | .popping p, .loop stage => loops env name .pop p popped stage
  | .publishing event _ p, .loop stage => loops env name (.publish event) p announced stage
  | .serving request p, .request stage => serves env request p (served request) stage
  | _, _ => False

def after (env : Env) (name : String) (c : Control) (stage : Stage) (o : Op)
    (reply : Except Exn o.Val) (reached : Control) : Stage :=
  if reached.next?.isSome then c.nextStage stage o reply else (reached.settle env name).first

variable {env : Env} {name : String}

theorem Conforms.next {c : Control} {stage : Stage} {o : Op} {next : Except Exn o.Val → Control}
    (h : c.Conforms env name stage) (waits : c.next? = some ⟨o, next⟩) :
    c.permits env name stage o ∧ ∀ reply, credible o reply →
      (next reply).Conforms env name (c.nextStage stage o reply) := by
  cases c with
  | idle loop => cases waits
  | stopped => cases waits
  | fetching loop p =>
    cases stage <;> first | exact h.elim | skip
    cases p <;> cases waits
    exact ⟨h.1, fun reply likely => h.2 reply _ ⟨likely, rfl⟩⟩
  | handling loop item rest p =>
    cases stage <;> first | exact h.elim | skip
    cases p <;> cases waits
    exact ⟨h.1, fun reply likely => h.2 reply _ ⟨likely, rfl⟩⟩
  | popping p =>
    cases stage <;> first | exact h.elim | skip
    cases p <;> cases waits
    exact ⟨h.1, fun reply likely => h.2 reply _ ⟨likely, rfl⟩⟩
  | publishing event rest p =>
    cases stage <;> first | exact h.elim | skip
    cases p <;> cases waits
    exact ⟨h.1, fun reply likely => h.2 reply _ ⟨likely, rfl⟩⟩
  | serving request p =>
    cases stage <;> first | exact h.elim | skip
    cases p <;> cases waits
    exact ⟨h.1, fun reply likely => h.2 reply _ ⟨likely, rfl⟩⟩

theorem takeNext_conforms (loop : Loop) (items : List DeliveredEvent) :
    (takeNext env name loop items).Conforms env name (takeNext env name loop items).first := by
  cases items with
  | nil => trivial
  | cons item rest => exact handle_follows env name item

theorem publishNext_conforms (events : List DocumentProcessingEvent) :
    (publishNext events).Conforms env name (publishNext events).first := by
  cases events with
  | nil => trivial
  | cons event rest => exact publish_loops env name event

theorem afterError_conforms (loop : Loop) (error : Exn) :
    (afterError loop error).Conforms env name (afterError loop error).first := by
  simp only [afterError]
  split <;> trivial

theorem Conforms.settle {c : Control} {stage : Stage} (h : c.Conforms env name stage)
    (done : c.next? = none) : (c.settle env name).Conforms env name (c.settle env name).first := by
  cases c with
  | idle loop => trivial
  | stopped => trivial
  | fetching loop p =>
    cases p with
    | ret items => exact takeNext_conforms loop items
    | raise error => exact afterError_conforms loop error
    | call o next => cases done
  | handling loop item rest p =>
    cases p with
    | ret outcome => exact takeNext_conforms loop rest
    | raise error => trivial
    | call o next => cases done
  | popping p =>
    cases p with
    | ret events => exact publishNext_conforms events
    | raise error => exact afterError_conforms .scheduler error
    | call o next => cases done
  | publishing event rest p =>
    cases p with
    | ret id => exact publishNext_conforms rest
    | raise error => exact afterError_conforms .scheduler error
    | call o next => cases done
  | serving request p =>
    cases p with
    | ret response => trivial
    | raise error => trivial
    | call o next => cases done

theorem settle_running {c : Control} (running : c.next?.isSome = true) :
    c.settle env name = c := by
  cases c with
  | idle loop => rfl
  | stopped => rfl
  | fetching loop p => cases p <;> first | rfl | cases running
  | handling loop item rest p => cases p <;> first | rfl | cases running
  | popping p => cases p <;> first | rfl | cases running
  | publishing event rest p => cases p <;> first | rfl | cases running
  | serving request p => cases p <;> first | rfl | cases running

theorem settle_serving {c : Control} {request : Request} {p : Prog Routes.ApiResponse}
    (serving : c.settle env name = .serving request p) :
    c = .serving request p := by
  have taking (loop : Loop) (items : List DeliveredEvent) :
      takeNext env name loop items ≠ .serving request p := by
    cases items <;> exact fun same => (by cases same)
  have failing (loop : Loop) (error : Exn) : afterError loop error ≠ .serving request p := by
    unfold afterError
    split <;> exact fun same => (by cases same)
  have publishing (events : List DocumentProcessingEvent) :
      publishNext events ≠ .serving request p := by
    cases events <;> exact fun same => (by cases same)
  cases c with
  | idle loop => exact serving
  | stopped => exact serving
  | fetching loop q =>
    cases q with
    | ret items => exact absurd serving (taking loop items)
    | raise error => exact absurd serving (failing loop error)
    | call o next => exact serving
  | handling loop item rest q =>
    cases q with
    | ret outcome => exact absurd serving (taking loop rest)
    | raise error => cases serving
    | call o next => exact serving
  | popping q =>
    cases q with
    | ret events => exact absurd serving (publishing events)
    | raise error => exact absurd serving (failing .scheduler error)
    | call o next => exact serving
  | publishing event rest q =>
    cases q with
    | ret id => exact absurd serving (publishing rest)
    | raise error => exact absurd serving (failing .scheduler error)
    | call o next => exact serving
  | serving request q =>
    cases q with
    | call o next => exact serving
    | _ => cases serving

theorem Conforms.act {c : Control} {stage : Stage} {o : Op} {next : Except Exn o.Val → Control}
    (h : c.Conforms env name stage) (waits : c.next? = some ⟨o, next⟩) {reply : Except Exn o.Val}
    (likely : credible o reply) : ((next reply).settle env name).Conforms env name
      (c.after env name stage o reply (next reply)) := by
  have conforms := (h.next waits).2 reply likely
  simp only [after]
  split
  · rename_i running
    rwa [settle_running running]
  · rename_i done
    exact conforms.settle (by simpa using done)

theorem begin_conforms (loop : Loop) :
    (begin env name loop).Conforms env name (begin env name loop).first := by
  cases loop with
  | consumer => exact read_loops env name
  | recovery => exact claimStale_loops env name
  | scheduler => exact popDueRetries_loops env name _

theorem serve_conforms (request : Request) :
    (serve env request).Conforms env name (.request .start) := by
  cases request with
  | upload file documentType => exact uploadDocument_serves env file documentType
  | retry jobId => exact retryJob_serves env jobId

end Control

abbrev Stages := Nat → Stage

def noteStages (env : Env) (g : Stages) (s : System) (label : Label) : Stages :=
  match label with
  | .tick _ | .startWorker _ _ => g
  | .receive _ _ => Function.update g s.threads.length (.request .start)
  | .iterate t => match s.threads[t]? with
    | none => g
    | some th => match th.control with
      | .idle loop => Function.update g t (Control.begin env th.name loop).first
      | _ => g
  | .act t choice => match s.threads[t]? with
    | none => g
    | some th => match th.control.next? with
      | none => g
      | some ⟨o, next⟩ => match o.execute env (System.context t th) s.world th.loc choice with
        | none => g
        | some reply => Function.update g t
            (th.control.after env th.name (g t) o reply.answer (next reply.answer))
  | .crash proc => fun t => match s.threads[t]? with
    | none => g t
    | some th => if th.proc = proc then .resting else g t

abbrev Staged := System × Stages

abbrev stagedStep (env : Env) : Staged → Label → Option Staged :=
  tracked (System.step env) fun g s label _ => noteStages env g s label

/-- Reached states with the stages of their threads. -/
abbrev StagedRun (env : Env) (guard : Guard) : Staged → Prop :=
  Reach (stagedStep env) (System.init, fun _ => .resting)
    fun x label x' => guard x.1 label x'.1

theorem Reached.staged {env : Env} {guard : Guard} {s : System} (h : Reached env guard s) :
    ∃ g, StagedRun env guard (s, g) :=
  Reach.track (fun g s label _ => noteStages env g s label) (fun _ => Stage.resting) h

/-- One call of a thread: what it waited for and how the world answered. -/
structure Call (env : Env) (x : Staged) (t : Nat) (choice : Choice) where
  thread : Thread
  o : Op
  next : Except Exn o.Val → Control
  reply : Reply o
  found : x.1.threads[t]? = some thread
  waits : thread.control.next? = some ⟨o, next⟩
  ran : o.execute env (System.context t thread) x.1.world thread.loc choice = some reply

namespace Call
variable {env : Env} {x : Staged} {t : Nat} {choice : Choice} (call : Call env x t choice)

abbrev reached : Control := call.next call.reply.answer

abbrev thread' : Thread :=
  { call.thread with
    control := call.reached.settle env call.thread.name, loc := call.reply.loc }

abbrev stage' : Stage :=
  call.thread.control.after env call.thread.name (x.2 t) call.o call.reply.answer call.reached

abbrev world' : World := call.reply.world.note (call.reached.announce t)

abbrev result : Staged :=
  ({ world := call.world', threads := x.1.threads.set t call.thread' },
    Function.update x.2 t call.stage')

theorem call?_eq : x.1.call? t = some (call.thread, call.o) := by
  simp only [System.call?, call.found, Option.bind_some, call.waits, Option.map_some]

theorem commits_eq : x.1.commits (.act t choice) = call.thread.loc.commits call.o choice := by
  simp only [System.commits, call.call?_eq, Option.bind_some]

theorem threads_result {t' : Nat} {th : Thread} (found : call.result.1.threads[t']? = some th) :
    t' = t ∧ th = call.thread' ∨ t' ≠ t ∧ x.1.threads[t']? = some th := by
  by_cases own : t' = t
  · subst own
    rw [List.getElem?_set_self', call.found] at found
    cases found
    exact .inl ⟨rfl, rfl⟩
  · rw [List.getElem?_set_ne (Ne.symm own)] at found
    exact .inr ⟨own, found⟩

theorem own_result : call.result.1.threads[t]? = some call.thread' := by
  rw [List.getElem?_set_self', call.found]
  rfl

theorem other_result {t' : Nat} (other : t' ≠ t) :
    call.result.1.threads[t']? = x.1.threads[t']? :=
  List.getElem?_set_ne (Ne.symm other)

@[simp] theorem own_stage : call.result.2 t = call.stage' := Function.update_self ..

theorem other_stage {t' : Nat} (other : t' ≠ t) : call.result.2 t' = x.2 t' :=
  Function.update_of_ne other ..

end Call

/-- The steps of the system with their stages. -/
inductive Move (env : Env) (x : Staged) : Label → Staged → Prop
  | tick (duration : Nat) : Move env x (.tick duration)
      ({ x.1 with world := { x.1.world with now := x.1.world.now + duration } }, x.2)
  | startWorker (proc : Nat) (name : String) : Move env x (.startWorker proc name)
      ({ x.1 with threads := x.1.threads ++ [⟨proc, name, .idle .consumer, {}⟩,
          ⟨proc, name, .idle .recovery, {}⟩, ⟨proc, name, .idle .scheduler, {}⟩] }, x.2)
  | receive (proc : Nat) (request : Request) : Move env x (.receive proc request)
      ({ x.1 with threads := x.1.threads ++ [⟨proc, "", Control.serve env request, {}⟩] },
        Function.update x.2 x.1.threads.length (.request .start))
  | iterate {t : Nat} {th : Thread} {loop : Loop} (found : x.1.threads[t]? = some th)
      (idle : th.control = .idle loop) : Move env x (.iterate t)
      ({ x.1 with threads :=
          x.1.threads.set t { th with control := Control.begin env th.name loop } },
        Function.update x.2 t (Control.begin env th.name loop).first)
  | act {t : Nat} {choice : Choice} (call : Call env x t choice) :
      Move env x (.act t choice) call.result
  | crash (proc : Nat) : Move env x (.crash proc)
      (x.1.crash proc, fun t => match x.1.threads[t]? with
        | none => x.2 t
        | some th => if th.proc = proc then .resting else x.2 t)

theorem move_of_step {env : Env} {x x' : Staged} {label : Label}
    (h : stagedStep env x label = some x') : Move env x label x' := by
  obtain ⟨s, g⟩ := x
  simp only [stagedStep, tracked, Option.map_eq_some_iff] at h
  obtain ⟨s', stepped, rfl⟩ := h
  cases label with
  | tick duration =>
    cases stepped
    exact .tick duration
  | startWorker proc name =>
    cases stepped
    exact .startWorker proc name
  | receive proc request =>
    cases stepped
    exact .receive proc request
  | iterate t =>
    simp only [System.step] at stepped
    cases found : s.threads[t]? with
    | none => simp only [found] at stepped; cases stepped
    | some th =>
      simp only [found] at stepped
      cases idle : th.control with
      | idle loop =>
        simp only [idle, Option.some.injEq] at stepped
        subst stepped
        simp only [noteStages, found, idle]
        exact .iterate (x := (s, g)) found idle
      | _ => simp only [idle] at stepped; cases stepped
  | act t choice =>
    simp only [System.step] at stepped
    cases found : s.threads[t]? with
    | none => simp only [found] at stepped; cases stepped
    | some th =>
      simp only [found, System.act] at stepped
      cases waits : th.control.next? with
      | none => simp only [waits] at stepped; cases stepped
      | some call =>
        obtain ⟨o, next⟩ := call
        simp only [waits, Option.map_eq_some_iff] at stepped
        obtain ⟨reply, ran, rfl⟩ := stepped
        simp only [noteStages, found, waits, ran]
        exact .act (x := (s, g)) ⟨th, o, next, reply, found, waits, ran⟩
  | crash proc =>
    cases stepped
    exact .crash proc

theorem Move.call {env : Env} {x x' : Staged} {t : Nat} {choice : Choice}
    (move : Move env x (.act t choice) x') : ∃ call : Call env x t choice, x' = call.result := by
  cases move with
  | act call => exact ⟨call, rfl⟩

theorem Move.call_or {env : Env} {x x' : Staged} {label : Label} (move : Move env x label x') :
    (∃ t choice, ∃ call : Call env x t choice, label = .act t choice ∧ x' = call.result) ∨
      ∀ t choice, label ≠ .act t choice := by
  cases move with
  | act call => exact .inl ⟨_, _, call, rfl, rfl⟩
  | _ => exact .inr fun _ _ same => by cases same

inductive ThreadMove (env : Env) (x : Staged) (label : Label) (x' : Staged) (t : Nat)
    (th' : Thread) : Prop
  | same (found : x.1.threads[t]? = some th') (stage : x'.2 t = x.2 t)
  | hired (unborn : x.1.threads[t]? = none) (loop : Loop) (control : th'.control = .idle loop)
      (loc : th'.loc = {}) (stage : x'.2 t = x.2 t)
  | received (unborn : x.1.threads[t]? = none) (request : Request)
      (control : th'.control = Control.serve env request) (loc : th'.loc = {})
      (stage : x'.2 t = .request .start)
  | begun (th : Thread) (loop : Loop) (found : x.1.threads[t]? = some th)
      (idle : th.control = .idle loop)
      (after : th' = { th with control := Control.begin env th.name loop })
      (stage : x'.2 t = (Control.begin env th.name loop).first)
  | acted (choice : Choice) (call : Call env x t choice) (labelled : label = .act t choice)
      (result : x' = call.result) (after : th' = call.thread') (stage : x'.2 t = call.stage')
  | crashed (th : Thread) (labelled : label = .crash th.proc) (found : x.1.threads[t]? = some th)
      (after : th' = { th with control := .stopped, loc := {} }) (stage : x'.2 t = .resting)

theorem Move.thread {env : Env} {x x' : Staged} {label : Label} (move : Move env x label x')
    {t : Nat} {th' : Thread} (found : x'.1.threads[t]? = some th') :
    ThreadMove env x label x' t th' := by
  cases move with
  | tick duration => exact .same found rfl
  | startWorker proc name =>
    by_cases old : t < x.1.threads.length
    · exact .same (by rwa [List.getElem?_append_left old] at found) rfl
    · rw [List.getElem?_append_right (not_lt.mp old)] at found
      obtain ⟨loop, control, loc⟩ : ∃ loop, th'.control = .idle loop ∧ th'.loc = {} := by
        rcases h : t - x.1.threads.length with _ | _ | _ | n <;> rw [h] at found <;> cases found
        · exact ⟨.consumer, rfl, rfl⟩
        · exact ⟨.recovery, rfl, rfl⟩
        · exact ⟨.scheduler, rfl, rfl⟩
      exact .hired (List.getElem?_eq_none (not_lt.mp old)) loop control loc rfl
  | receive proc request =>
    by_cases old : t < x.1.threads.length
    · exact .same (by rwa [List.getElem?_append_left old] at found)
        (Function.update_of_ne (Nat.ne_of_lt old) _ _)
    · rw [List.getElem?_append_right (not_lt.mp old)] at found
      have last : t = x.1.threads.length := by
        rcases h : t - x.1.threads.length with _ | n
        · omega
        · rw [h] at found
          cases found
      subst last
      rw [Nat.sub_self] at found
      cases found
      exact .received (List.getElem?_eq_none le_rfl) request rfl rfl (Function.update_self ..)
  | @iterate t' th loop isFound idle =>
    by_cases own : t = t'
    · subst own
      rw [List.getElem?_set_self' , isFound] at found
      cases found
      exact .begun th loop isFound idle rfl (Function.update_self ..)
    · rw [List.getElem?_set_ne (Ne.symm own)] at found
      exact .same found (Function.update_of_ne own _ _)
  | @act t' choice call =>
    obtain ⟨rfl, rfl⟩ | ⟨other, isFound⟩ := call.threads_result found
    · exact .acted choice call rfl rfl rfl call.own_stage
    · exact .same isFound (call.other_stage other)
  | crash proc =>
    simp only [System.crash, List.getElem?_map, Option.map_eq_some_iff] at found
    obtain ⟨th, isFound, rfl⟩ := found
    by_cases down : th.proc = proc
    · simp only [down, if_true]
      exact .crashed th (by rw [down]) isFound (by rw [down]) (by simp only [isFound, down, if_true])
    · simp only [down, if_false]
      exact .same isFound (by simp only [isFound, down, if_false])

theorem Move.remains {env : Env} {x x' : Staged} {label : Label} (move : Move env x label x')
    {t : Nat} (absent : x'.1.threads[t]? = none) : x.1.threads[t]? = none ∧ x'.2 t = x.2 t := by
  cases move with
  | tick duration => exact ⟨absent, rfl⟩
  | startWorker proc name =>
    rw [List.getElem?_eq_none_iff, List.length_append] at absent
    exact ⟨List.getElem?_eq_none (by omega), rfl⟩
  | receive proc request =>
    rw [List.getElem?_eq_none_iff, List.length_append, List.length_singleton] at absent
    exact ⟨List.getElem?_eq_none (by omega), Function.update_of_ne (by omega) _ _⟩
  | iterate found idle =>
    rw [List.getElem?_eq_none_iff, List.length_set] at absent
    have old := List.getElem?_eq_none absent
    exact ⟨old, Function.update_of_ne (by rintro rfl; rw [old] at found; cases found) _ _⟩
  | act call =>
    rw [List.getElem?_eq_none_iff, List.length_set] at absent
    have old := List.getElem?_eq_none absent
    exact ⟨old, Function.update_of_ne
      (by rintro rfl; have found := call.found; rw [old] at found; cases found) _ _⟩
  | crash proc =>
    simp only [System.crash, List.getElem?_map, Option.map_eq_none_iff] at absent
    exact ⟨absent, by simp only [absent]⟩

theorem Move.proc {env : Env} {x x' : Staged} {label : Label} (move : Move env x label x')
    {t : Nat} {th : Thread} (found : x.1.threads[t]? = some th) :
    ∃ th', x'.1.threads[t]? = some th' ∧ th'.proc = th.proc := by
  cases found' : x'.1.threads[t]? with
  | none => cases (move.remains found').1.symm.trans found
  | some th' =>
    refine ⟨th', rfl, ?_⟩
    obtain ⟨isFound, -⟩ | ⟨unborn, -⟩ | ⟨unborn, -⟩ | ⟨before, loop, isFound, -, rfl, -⟩ |
      ⟨choice, call, -, -, rfl, -⟩ | ⟨before, -, isFound, rfl, -⟩ := move.thread found'
    · rw [Option.some.inj (found.symm.trans isFound)]
    · cases unborn.symm.trans found
    · cases unborn.symm.trans found
    · rw [Option.some.inj (found.symm.trans isFound)]
    · rw [Option.some.inj (found.symm.trans call.found)]
    · rw [Option.some.inj (found.symm.trans isFound)]

theorem Move.stage {env : Env} {x x' : Staged} {label : Label} (move : Move env x label x')
    (noCall : ∀ t choice, label ≠ .act t choice) (t : Nat) :
    x'.2 t = x.2 t ∨ ∃ c : Control, x'.2 t = c.first := by
  cases move with
  | tick duration => exact .inl rfl
  | startWorker proc name => exact .inl rfl
  | receive proc request =>
    by_cases own : t = x.1.threads.length
    · subst own
      exact .inr ⟨.serving request (.raise (.os "")), Function.update_self ..⟩
    · exact .inl (Function.update_of_ne own _ _)
  | @iterate t' th loop found idle =>
    by_cases own : t = t'
    · subst own
      exact .inr ⟨_, Function.update_self ..⟩
    · exact .inl (Function.update_of_ne own _ _)
  | act call => exact absurd rfl (noCall _ _)
  | crash proc =>
    dsimp only
    split
    · exact .inl rfl
    · split
      · exact .inr ⟨.stopped, rfl⟩
      · exact .inl rfl

structure World.Rests (w w' : World) : Prop where
  now : w.now ≤ w'.now
  jobs : w'.db.jobs = w.db.jobs
  documents : w'.db.documents = w.db.documents
  results : w'.db.results = w.db.results
  redis : w'.redis = w.redis
  uuids : w'.uuids = w.uuids
  claims : w'.claims = w.claims
  history : w'.history = w.history

theorem Move.rests {env : Env} {x x' : Staged} {label : Label} (move : Move env x label x')
    (noCall : ∀ t choice, label ≠ .act t choice) : x.1.world.Rests x'.1.world := by
  cases move with
  | act call => exact absurd rfl (noCall _ _)
  | tick duration =>
    exact ⟨Int.le_add_of_nonneg_right (Int.natCast_nonneg duration), rfl, rfl, rfl, rfl, rfl, rfl, rfl⟩
  | _ => exact ⟨le_rfl, rfl, rfl, rfl, rfl, rfl, rfl, rfl⟩

end DocumentPipeline

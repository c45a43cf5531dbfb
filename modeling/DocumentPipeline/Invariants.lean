import DocumentPipeline.Sessions

/-! Every reached state is consistent: its threads conform to their stages and
their sessions hold what the stages say. `Call.kind` turns a call into a call
of an attempt, of a request or of a loop, with the facts known about it. -/

namespace DocumentPipeline
open EffectProgram Transition

structure Consistent (env : Env) (x : Staged) : Prop where
  keyed : x.1.world.db.Keyed
  conforms : ∀ (t : Nat) (th : Thread), x.1.threads[t]? = some th → th.control.Conforms env th.name (x.2 t)
  resting : ∀ t : Nat, x.1.threads[t]? = none → x.2 t = .resting
  locals : ∀ (t : Nat) (th : Thread), x.1.threads[t]? = some th →
    th.control.LocalFacts env th.name (x.2 t) th.loc

structure AttemptCall {env : Env} {x : Staged} {t : Nat} {choice : Choice}
    (call : Call env x t choice) (item : DeliveredEvent) (stage : AttemptStage) : Prop where
  control : ∃ loop rest p p', call.thread.control = .handling loop item rest p ∧
    call.reached = .handling loop item rest p'
  staged : x.2 t = .attempt stage
  permitted : stage.permits env call.thread.name item call.o
  facts : AttemptLocal env call.thread.name item stage call.thread.loc
  facts' : AttemptLocal env call.thread.name item (stage.next item call.o call.reply.answer)
    call.reply.loc
  goes : call.stage' = .attempt (stage.next item call.o call.reply.answer) ∧
      call.thread'.control = call.reached ∨
    IdleLocal call.reply.loc ∧ call.stage' = call.thread'.control.first

structure RequestCall {env : Env} {x : Staged} {t : Nat} {choice : Choice}
    (call : Call env x t choice) (request : Request) (stage : RequestStage) : Prop where
  control : ∃ p p', call.thread.control = .serving request p ∧
    call.reached = .serving request p'
  staged : x.2 t = .request stage
  permitted : stage.permits env request call.o
  facts : RequestLocal env request stage call.thread.loc
  facts' : RequestLocal env request (stage.next call.o call.reply.answer) call.reply.loc
  goes : call.stage' = .request (stage.next call.o call.reply.answer) ∧
      call.thread'.control = call.reached ∨
    IdleLocal call.reply.loc ∧ call.stage' = .resting ∧ call.thread'.control = .stopped

structure LoopCall {env : Env} {x : Staged} {t : Nat} {choice : Choice}
    (call : Call env x t choice) (task : Task) (stage : LoopStage) : Prop where
  control : call.thread.control.task? = some task ∧ call.reached.task? = some task ∧
    call.reached.held = call.thread.control.held
  staged : x.2 t = .loop stage
  permitted : stage.permits env call.thread.name task call.o
  facts : IdleLocal call.thread.loc
  facts' : IdleLocal call.reply.loc
  conforms : call.reached.Conforms env call.thread.name
    (.loop (stage.next call.o call.reply.answer))
  goes : call.stage' = .loop (stage.next call.o call.reply.answer) ∧
      call.thread'.control = call.reached ∨
    call.stage' = call.thread'.control.first

/-- Where a call takes a loop: on within its program, to what the outcome of the
program hands over, or back to the top. -/
inductive LoopEnds (env : Env) (name : String) (task : Task) (stage' : LoopStage)
    (before reached : Control) : Prop
  | onward (running : reached.next?.isSome = true) (held : reached.held = before.held)
      (silent : ∀ t, reached.announce t = []) (more : ∃ o, stage'.permits env name task o)
  | fetched (loop : Loop) (items : List DeliveredEvent) (is : task = .fetch loop)
      (outcome : reached = .fetching loop (.ret items))
      (decoded : items = [] ∨ ∃ counts messages, stage' = .decoding counts messages ∧
        items = decodedMessages counts messages)
  | popped (raw : List Payload) (is : task = .pop)
      (outcome : reached = .popping (.ret (Queue.decodeRetries raw))) (staged : stage' = .popped raw)
  | announced (event : DocumentProcessingEvent) (rest : List DocumentProcessingEvent) (id : Nat)
      (is : task = .publish event) (held : before.held = event :: rest)
      (outcome : reached = .publishing event rest (.ret id)) (staged : stage' = .published)
  | failed (loop : Loop) (idle : reached.settle env name = .idle loop)
      (silent : ∀ t, reached.announce t = [])
      (refused : (∀ loop, task ≠ .fetch loop) → stage' = .failed)

section LoopEnds
variable {env : Env} {x : Staged} {t : Nat} {choice : Choice} {call : Call env x t choice}
  {task : Task} {stage : LoopStage}

theorem LoopCall.ends (is : LoopCall call task stage) : LoopEnds env call.thread.name task
    (stage.next call.o call.reply.answer) call.thread.control call.reached := by
  obtain ⟨-, runs, held⟩ := is.control
  have conforms := is.conforms
  generalize call.reached = reached at runs held conforms
  cases reached with
  | idle loop => cases runs
  | stopped => cases runs
  | handling loop item rest p => cases runs
  | serving request p => cases runs
  | fetching loop p =>
    cases runs
    cases p with
    | call o next => exact .onward rfl held (fun _ => rfl) ⟨o, conforms.1⟩
    | ret items => exact .fetched loop items rfl rfl conforms
    | raise error =>
      have known : error.isQueueError = true := conforms
      exact .failed loop (by simp only [Control.settle, Control.afterError, known, if_true])
        (fun _ => rfl) fun other => absurd rfl (other loop)
  | popping p =>
    cases runs
    cases p with
    | call o next => exact .onward rfl held (fun _ => rfl) ⟨o, conforms.1⟩
    | ret events =>
      obtain ⟨raw, staged, rfl⟩ := conforms
      exact .popped raw rfl rfl staged
    | raise error =>
      obtain ⟨refused, known⟩ := conforms
      exact .failed .scheduler (by simp only [Control.settle, Control.afterError, known, if_true])
        (fun _ => rfl) fun _ => refused
  | publishing event rest p =>
    cases runs
    cases p with
    | call o next => exact .onward rfl held (fun _ => rfl) ⟨o, conforms.1⟩
    | ret id => exact .announced event rest id rfl held.symm rfl conforms
    | raise error =>
      obtain ⟨refused, known⟩ := conforms
      exact .failed .scheduler (by simp only [Control.settle, Control.afterError, known, if_true])
        (fun _ => rfl) fun _ => refused

theorem LoopCall.onward_items (is : LoopCall call task stage) : call.reached.items = [] := by
  obtain ⟨-, runs, -⟩ := is.control
  generalize call.reached = reached at runs
  cases reached <;> first | rfl | cases runs

end LoopEnds

inductive CallKind {env : Env} {x : Staged} {t : Nat} {choice : Choice}
    (call : Call env x t choice) : Prop
  | attempt (item : DeliveredEvent) (stage : AttemptStage) (is : AttemptCall call item stage)
  | request (request : Request) (stage : RequestStage) (is : RequestCall call request stage)
  | loop (task : Task) (stage : LoopStage) (is : LoopCall call task stage)

theorem IdleLocal.first {env : Env} {name : String} {c : Control} {loc : Local}
    (h : IdleLocal loc) : c.LocalFacts env name c.first loc := by
  cases c with
  | handling loop item rest p => exact AttemptLocal.start h
  | serving request p => exact RequestLocal.start h
  | _ => exact h

theorem IdleLocal.loop {env : Env} {name : String} {c : Control} {stage : LoopStage} {loc : Local}
    (h : IdleLocal loc) : c.LocalFacts env name (.loop stage) loc := by
  cases c <;> exact h

namespace Consistent
variable {env : Env} {x : Staged} (consistent : Consistent env x)
include consistent

theorem answers {t : Nat} {choice : Choice} (call : Call env x t choice) :
    credible call.o call.reply.answer :=
  execute_answers consistent.keyed call.ran

theorem reached_conforms {t : Nat} {choice : Choice} (call : Call env x t choice) :
    call.reached.Conforms env call.thread.name
      (call.thread.control.nextStage (x.2 t) call.o call.reply.answer) :=
  ((consistent.conforms t call.thread call.found).next call.waits).2 _ (consistent.answers call)

theorem loopCall {t : Nat} {choice : Choice} (call : Call env x t choice) {task : Task}
    (runs : call.thread.control.task? = some task) : ∃ stage, LoopCall call task stage := by
  have likely := consistent.answers call
  have conforms := consistent.conforms t call.thread call.found
  have facts := consistent.locals t call.thread call.found
  obtain ⟨⟨proc, name, control, loc⟩, o, next, reply, found, waits, ran⟩ := call
  obtain ⟨permitted, onward⟩ := conforms.next waits
  have conforms' := onward _ likely
  clear onward
  dsimp only at likely conforms facts permitted conforms' runs
  cases control <;> cases runs
  all_goals
    rename_i p
    cases p <;> cases waits
    rename_i next
    cases staged : x.2 t <;> rw [staged] at conforms permitted facts conforms' <;>
      first | exact conforms.elim | skip
    refine ⟨_, ⟨rfl, rfl, rfl⟩, staged, permitted, facts, IdleLocal.step facts permitted ran,
      conforms', ?_⟩
    simp only [Call.stage', Control.after, Call.reached, staged]
    cases next reply.answer with
    | call o' next' => exact .inl ⟨rfl, rfl⟩
    | ret value => exact .inr rfl
    | raise error => exact .inr rfl

theorem kind {t : Nat} {choice : Choice} (call : Call env x t choice) : CallKind call := by
  cases looping : call.thread.control.task? with
  | some task =>
    obtain ⟨stage, is⟩ := consistent.loopCall call looping
    exact .loop task stage is
  | none =>
    have likely := consistent.answers call
    have conforms := consistent.conforms t call.thread call.found
    have facts := consistent.locals t call.thread call.found
    obtain ⟨⟨proc, name, control, loc⟩, o, next, reply, found, waits, ran⟩ := call
    obtain ⟨permitted, onward⟩ := conforms.next waits
    have conforms' := onward _ likely
    clear onward
    dsimp only at likely conforms facts permitted conforms' looping
    have keyed := consistent.keyed
    cases control with
    | idle loop => cases waits
    | stopped => cases waits
    | fetching loop p => cases looping
    | popping p => cases looping
    | publishing event rest p => cases looping
    | handling loop item rest p =>
      cases p <;> cases waits
      rename_i next
      cases staged : x.2 t <;> rw [staged] at conforms permitted facts conforms' <;>
        first | exact conforms.elim | skip
      rename_i stage
      have facts' : AttemptLocal env name item stage loc := facts
      have after := facts'.step keyed permitted ran
      refine .attempt item stage ⟨⟨loop, rest, _, _, rfl, rfl⟩, staged, permitted, facts, after, ?_⟩
      simp only [Call.stage', Control.after, Call.reached, staged]
      cases reached : next reply.answer with
      | call o' next' => exact .inl ⟨rfl, rfl⟩
      | ret value =>
        simp only [reached] at conforms'
        exact .inr ⟨after.finish conforms', rfl⟩
      | raise error =>
        simp only [reached] at conforms'
        exact .inr ⟨after.finish conforms', rfl⟩
    | serving request p =>
      cases p <;> cases waits
      rename_i next
      cases staged : x.2 t <;> rw [staged] at conforms permitted facts conforms' <;>
        first | exact conforms.elim | skip
      rename_i stage
      have facts' : RequestLocal env request stage loc := facts
      have after := facts'.step keyed permitted ran
      refine .request request stage ⟨⟨_, _, rfl, rfl⟩, staged, permitted, facts, after, ?_⟩
      simp only [Call.stage', Control.after, Call.reached, staged]
      cases reached : next reply.answer with
      | call o' next' => exact .inl ⟨rfl, rfl⟩
      | ret value =>
        simp only [reached] at conforms'
        obtain ⟨row, ended⟩ := conforms'
        exact .inr ⟨after.finish (by rw [ended]; rfl), rfl, rfl⟩
      | raise error =>
        simp only [reached] at conforms'
        obtain ⟨why, ended, -⟩ := conforms'
        exact .inr ⟨after.finish (by rw [ended]; rfl), rfl, rfl⟩

omit consistent in
theorem keyed_step {t : Nat} {choice : Choice} (keyed : x.1.world.db.Keyed)
    (call : Call env x t choice) : call.world'.db.Keyed := execute_keyed keyed call.ran

theorem step {x' : Staged} {label : Label} (move : Move env x label x') : Consistent env x' where
  keyed := by
    cases move with
    | act call => exact keyed_step consistent.keyed call
    | _ => exact consistent.keyed
  conforms t th found := by
    obtain ⟨isFound, stage⟩ | ⟨unborn, loop, control, -, stage⟩ | ⟨-, request, control, -, stage⟩ |
      ⟨th, loop, isFound, idle, rfl, stage⟩ | ⟨choice, call, -, -, rfl, stage⟩ |
      ⟨th, -, isFound, rfl, stage⟩ := move.thread found
    · rw [stage]
      exact consistent.conforms t th isFound
    · rw [stage, consistent.resting t unborn, control]
      trivial
    · rw [stage, control]
      exact Control.serve_conforms request
    · rw [stage]
      exact Control.begin_conforms loop
    · rw [stage]
      exact (consistent.conforms t call.thread call.found).act call.waits (consistent.answers call)
    · rw [stage]
      trivial
  resting t absent := by
    obtain ⟨absent, same⟩ := move.remains absent
    rw [same]
    exact consistent.resting t absent
  locals t th found := by
    obtain ⟨isFound, stage⟩ | ⟨unborn, loop, control, loc, stage⟩ |
      ⟨-, request, control, loc, stage⟩ | ⟨th, loop, isFound, idle, rfl, stage⟩ |
      ⟨choice, call, -, -, rfl, stage⟩ | ⟨th, -, isFound, rfl, stage⟩ := move.thread found
    · rw [stage]
      exact consistent.locals t th isFound
    · rw [control, loc]
      exact ⟨rfl, rfl, rfl⟩
    · rw [stage, control, loc]
      cases request <;> exact RequestLocal.start ⟨rfl, rfl, rfl⟩
    · have facts := consistent.locals t th isFound
      rw [idle] at facts
      cases loop <;> exact facts
    · rw [stage]
      obtain ⟨item, stage, is⟩ | ⟨request, stage, is⟩ | ⟨task, stage, is⟩ := consistent.kind call
      · obtain ⟨staged, control⟩ | ⟨idle, staged⟩ := is.goes
        · obtain ⟨loop, rest, p, p', -, reached⟩ := is.control
          rw [staged, control, reached]
          exact is.facts'
        · rw [staged]
          exact idle.first
      · obtain ⟨staged, control⟩ | ⟨idle, staged, control⟩ := is.goes
        · obtain ⟨p, p', -, reached⟩ := is.control
          rw [staged, control, reached]
          exact is.facts'
        · rw [staged, control]
          exact idle
      · obtain ⟨staged, -⟩ | staged := is.goes
        · rw [staged]
          exact is.facts'.loop
        · rw [staged]
          exact is.facts'.first
    · exact ⟨rfl, rfl, rfl⟩

/-- A step that is no call leaves a thread as it was, or begins a program that
handles no event. -/
theorem threads {x' : Staged} {label : Label} (move : Move env x label x')
    (noCall : ∀ t choice, label ≠ .act t choice) {t : Nat} {th : Thread}
    (found : x'.1.threads[t]? = some th) : (x.1.threads[t]? = some th ∧ x'.2 t = x.2 t) ∨
      IdleLocal th.loc ∧ x'.2 t = th.control.first ∧ th.control.item? = none ∧
        th.control.held = [] := by
  obtain ⟨isFound, stage⟩ | ⟨unborn, loop, control, loc, stage⟩ |
    ⟨-, request, control, loc, stage⟩ | ⟨th, loop, isFound, idle, rfl, stage⟩ |
    ⟨choice, call, labelled, -⟩ | ⟨th, -, isFound, rfl, stage⟩ := move.thread found
  · exact .inl ⟨isFound, stage⟩
  · rw [loc, control, stage, consistent.resting t unborn]
    exact .inr ⟨⟨rfl, rfl, rfl⟩, rfl, rfl, rfl⟩
  · rw [loc, control, stage]
    cases request <;> exact .inr ⟨⟨rfl, rfl, rfl⟩, rfl, rfl, rfl⟩
  · have facts := consistent.locals t th isFound
    rw [idle] at facts
    rw [stage]
    cases loop <;> exact .inr ⟨facts, rfl, rfl, rfl⟩
  · exact absurd labelled (noCall t choice)
  · rw [stage]
    exact .inr ⟨⟨rfl, rfl, rfl⟩, rfl, rfl, rfl⟩

end Consistent

theorem Consistent.init {env : Env} : Consistent env (System.init, fun _ => .resting) where
  keyed _ _ found := by cases found
  conforms _ _ found := by cases found
  resting _ _ := rfl
  locals _ _ found := by cases found

theorem StagedRun.consistent {env : Env} {guard : Guard} {x : Staged}
    (h : StagedRun env guard x) : Consistent env x :=
  h.invariant Consistent.init fun _ _ _ _ consistent stepped _ =>
    consistent.step (move_of_step stepped)

end DocumentPipeline

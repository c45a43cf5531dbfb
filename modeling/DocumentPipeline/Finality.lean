import DocumentPipeline.Permanence
import DocumentPipeline.SerialRows

/-! What is done stays done. No operation on the board acts on a completed job,
so in an orderly run its row is final in every column; and results are committed
with the rows they complete, so that a job has one exactly when it is completed. -/

namespace DocumentPipeline
open EffectProgram Transition JobService

theorem JobBoard.Turn.keeps_completed {settings : Settings} {board board' : JobBoard} {change : Change}
    (turn : Turn settings board change board') {jobId : Nat} {row : ProcessingJob}
    (found : board jobId = some row) (completed : row.status = .completed) :
    board' jobId = some row := by
  have allows_none {target : JobStatus} {current : ProcessingJob} (same : board jobId = some current) :
      isTransitionAllowed current.status target ≠ true := by
    cases found.symm.trans same
    rw [completed]
    cases target <;> decide
  cases turn with
  | created newId documentId now absent =>
    refine (Function.update_of_ne ?_ _ _).trans found
    rintro rfl
    cases absent.symm.trans found
  | @claimed claimedRow consumerName now current claimable =>
    refine (Function.update_of_ne ?_ _ _).trans found
    rintro rfl
    cases found.symm.trans current
    obtain waiting | processing := claimMatches_status claimable
    · rw [completed] at waiting
      cases (by decide : JobStatus.completed ∉ claimableStatuses) waiting
    · cases completed.symm.trans processing
  | @completed _ now current allowed | @retried _ message current allowed left
  | @failed _ message now current allowed | @requeued _ now current allowed =>
    refine (Function.update_of_ne ?_ _ _).trans found
    rintro rfl
    exact absurd allowed (allows_none current)

theorem keeps_completed {settings : Settings} {shown shown' : List Change} {board board' : JobBoard}
    (moves : Moves (JobBoard.Turn settings) shown board shown' board') {jobId : Nat}
    {row : ProcessingJob} (found : board jobId = some row) (completed : row.status = .completed) :
    board' jobId = some row := by
  cases moves with
  | silent => exact found
  | event turn => exact turn.keeps_completed found completed

section Runs
variable {env : Env} {x x' : Staged} {label : Label}

theorem completed_step (agree : ClocksAgree env) (reached : StagedRun env (orderly env) x)
    (stepped : stagedStep env x label = some x') {jobId : Nat} {row : ProcessingJob}
    (found : x.1.world.db.jobs jobId = some row) (completed : row.status = .completed) :
    x'.1.world.db.jobs jobId = some row :=
  keeps_completed (StagedRun.moves agree reached stepped) found completed

/-- A job that has a result is completed. -/
def Finished (x : Staged) : Prop :=
  ∀ jobId result, x.1.world.db.results jobId = some result →
    ∃ row, x.1.world.db.jobs jobId = some row ∧ row.status = .completed

theorem Finished.step (finished : Finished x) (agree : ClocksAgree env)
    (reached : StagedRun env (orderly env) x) (stepped : stagedStep env x label = some x') :
    Finished x' := by
  intro jobId result stored
  have before : (∃ row, x.1.world.db.jobs jobId = some row ∧ row.status = .completed) →
      ∃ row, x'.1.world.db.jobs jobId = some row ∧ row.status = .completed := by
    rintro ⟨row, found, completed⟩
    exact ⟨row, completed_step agree reached stepped found completed, completed⟩
  obtain ⟨t, choice, call, -, rfl⟩ | noCall := (move_of_step stepped).call_or
  · change call.world'.db.results jobId = some result at stored
    rw [show call.world'.db.results = _ from execute_results call.ran] at stored
    split at stored
    · exact before (finished jobId result stored)
    · rename_i new recorded
      rw [Function.update_apply] at stored
      split at stored
      · rename_i own
        cases stored
        obtain ⟨seen, base, row, held, owner, completed⟩ :=
          (StagedRun.consistent reached).recording call.found (records_commit recorded).2
        have jobs : call.world'.db.jobs = _ := execute_jobs call.ran
        refine ⟨row, ?_, completed⟩
        change call.world'.db.jobs jobId = some row
        rw [jobs, commits_of_records recorded, held, own, ← owner]
        exact Function.update_self _ _ _
      · exact before (finished jobId result stored)
  · rw [((move_of_step stepped).rests noCall).results] at stored
    exact before (finished jobId result stored)

theorem StagedRun.finished (agree : ClocksAgree env) (h : StagedRun env (orderly env) x) :
    Finished x :=
  h.invariant (fun _ _ stored => by cases stored)
    fun _ _ _ reached finished stepped _ => finished.step agree reached stepped

end Runs

/-- In an orderly run a job has a result exactly when it is completed, and from
then on neither the row nor the result changes. -/
theorem completed_for_good {env : Env} (agree : ClocksAgree env) {s s' : System}
    (h : Reached env (orderly env) s) (later : Reach (System.step env) s (orderly env) s')
    (jobId : Nat) :
    ((s.world.db.results jobId).isSome = true ↔
      ∃ row, s.world.db.jobs jobId = some row ∧ row.status = .completed) ∧
    ∀ row, s.world.db.jobs jobId = some row → row.status = .completed →
      s'.world.db.jobs jobId = some row ∧ s'.world.db.results jobId = s.world.db.results jobId := by
  obtain ⟨g, staged⟩ := h.staged
  have permanent := StagedRun.permanent staged
  refine ⟨⟨fun there => ?_, ?_⟩, fun row found completed => ?_⟩
  · obtain ⟨result, stored⟩ := Option.isSome_iff_exists.mp there
    exact StagedRun.finished agree staged jobId result stored
  · rintro ⟨row, found, completed⟩
    exact permanent.completed jobId row found completed
  · obtain ⟨result, stored⟩ :=
      Option.isSome_iff_exists.mp (permanent.completed jobId row found completed)
    have onward : Reached env (orderly env) s' ∧ s'.world.db.jobs jobId = some row ∧
        s'.world.db.results jobId = some result := by
      induction later with
      | start => exact ⟨h, found, stored⟩
      | step _ stepped guarded ih =>
        obtain ⟨reached, kept, shown⟩ := ih
        obtain ⟨g', staged'⟩ := reached.staged
        have stepped' := stagedStep_of_step g' stepped
        exact ⟨reached.step stepped guarded, completed_step agree staged' stepped' kept completed,
          results_step staged' stepped' shown⟩
    exact ⟨onward.2.1, onward.2.2.trans stored.symm⟩

/-- The worker acknowledges, and a retry request finds the job later and is refused. -/
def refusedRetryRun : List Label :=
  Label.oks 1 2 ++ [.tick 700000000, .receive 0 (.retry 2)] ++ Label.oks 4 4

def System.refused (s : System) (t : Nat) : Bool :=
  match s.world.history.head? with
  | some (.answered t' (.error _)) => t' = t
  | _ => false

theorem completed_for_good_refused : ∃ s s' row, Reached sampleEnv (orderly sampleEnv) s ∧
    Reach (System.step sampleEnv) s (orderly sampleEnv) s' ∧ s'.refused 4 = true ∧
      (s.world.db.results 2).isSome = true ∧ row.status = .completed ∧
        s'.world.db.jobs 2 = some row ∧ s'.world.db.results 2 = s.world.db.results 2 := by
  obtain ⟨s, reached, accepted⟩ := Reached.exists_orderly sampleEnv
    (fun s => (s.world.db.jobs 2).any (·.status = .completed) &&
      (runChecked (System.step sampleEnv) (fun s label s' => s.isOrderly sampleEnv label s')
        refusedRetryRun s).any (·.refused 4))
    completedRun (by decide +kernel)
  simp only [Bool.and_eq_true, Option.any_eq_true, decide_eq_true_eq] at accepted
  obtain ⟨⟨row, found, completed⟩, s', ran, refused⟩ := accepted
  have later : Reach (System.step sampleEnv) s (orderly sampleEnv) s' :=
    Reach.of_runChecked (fun _ _ _ => System.isOrderly_sound) .start ran
  obtain ⟨shown, final⟩ := completed_for_good (fun _ _ => rfl) reached later 2
  obtain ⟨kept, same⟩ := final row found completed
  exact ⟨s, s', row, reached, later, refused, shown.mpr ⟨row, found, completed⟩, completed, kept, same⟩

end DocumentPipeline

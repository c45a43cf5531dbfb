import DocumentPipeline.Locks

/-! The committed lifecycle. `claim_job` tests the status in the statement that
changes it; the marks test the status an ORM session read earlier and write by
primary key. The table is kept exactly where such a write still finds the
status that was read. -/

namespace DocumentPipeline
open EffectProgram Transition JobService

/-- An ORM write that finds the status its session read. -/
def Write.fresh : Write → Bool
  | .update loaded base _ => base.status = loaded.status
  | _ => true

/-- Every ORM write that a step commits is fresh. -/
def freshMarks : Guard := fun s label _ => (s.commits label).all Write.fresh = true

/-- Every step from `s` changes committed statuses along the table only. -/
def FollowsTable (env : Env) (guard : Guard) (s : System) : Prop :=
  ∀ label s', System.step env s label = some s' → guard s label s' →
    ∀ jobId row, s.world.db.jobs jobId = some row →
      ∃ row', s'.world.db.jobs jobId = some row' ∧
        (row'.status = row.status ∨ isTransitionAllowed row.status row'.status = true)

theorem Write.Lawful.moves {write : Write} {jobs : Nat → Option ProcessingJob}
    (lawful : write.Lawful) (based : write.Based jobs) (fresh : write.fresh = true)
    {row : ProcessingJob} (found : jobs write.row.id = some row) :
    write.row.status = row.status ∨ isTransitionAllowed row.status write.row.status = true := by
  cases write with
  | insert created =>
    cases (show jobs created.id = none from based).symm.trans found
  | claim base claimed =>
    cases (show jobs claimed.id = some base from based).symm.trans found
    obtain ⟨processing, claimable | again⟩ := lawful
    · right
      simp only [Write.row, processing]
      simp only [claimableStatuses, List.mem_cons, List.not_mem_nil, or_false] at claimable
      obtain status | status := claimable <;> rw [status] <;> rfl
    · exact .inl (processing.trans again.symm)
  | update loaded base written =>
    cases (show jobs written.id = some base from based).symm.trans found
    obtain ⟨current, rfl, allowed, -⟩ := lawful
    have same : row.status = loaded.status := by simpa only [Write.fresh, decide_eq_true_eq] using fresh
    right
    simp only [Write.row, ProcessingJob.flushed, allowed_ne allowed, if_false, same, allowed]

theorem lifecycle_step {env : Env} {x x' : Staged} {label : Label}
    (consistent : Consistent env x) (locked : Locked x)
    (stepped : stagedStep env x label = some x') (fresh : freshMarks x.1 label x'.1)
    {jobId : Nat} {row : ProcessingJob} (found : x.1.world.db.jobs jobId = some row) :
    ∃ row', x'.1.world.db.jobs jobId = some row' ∧
      (row'.status = row.status ∨ isTransitionAllowed row.status row'.status = true) := by
  obtain unchanged | ⟨t, choice, call, write, rfl, -, committed, based, lawful, jobs⟩ :=
    (move_of_step stepped).commits consistent locked
  · exact ⟨row, by rw [unchanged, found], .inl rfl⟩
  · rw [jobs]
    by_cases own : jobId = write.row.id
    · subst own
      have allFresh : write.fresh = true := by
        rw [freshMarks, call.commits_eq, committed] at fresh
        exact fresh
      exact ⟨write.row, Function.update_self .., lawful.moves based allFresh found⟩
    · exact ⟨row, by rw [Function.update_of_ne own, found], .inl rfl⟩

/-- In a run whose ORM writes are fresh every committed change of a status is
an edge of the table, and a completed row stays completed. -/
theorem lifecycle_of_freshMarks {env : Env} {s : System} (h : Reached env freshMarks s) :
    FollowsTable env freshMarks s ∧
    ∀ s', Reach (System.step env) s freshMarks s' → ∀ jobId row,
      s.world.db.jobs jobId = some row → row.status = .completed →
        ∃ row', s'.world.db.jobs jobId = some row' ∧ row'.status = .completed := by
  have follows : ∀ {s}, Reached env freshMarks s → FollowsTable env freshMarks s := by
    intro s h label s' stepped fresh jobId row found
    obtain ⟨g, staged⟩ := h.staged
    exact lifecycle_step staged.consistent staged.locked (stagedStep_of_step g stepped) fresh found
  refine ⟨follows h, fun s' later jobId row found completed => ?_⟩
  have onward : Reached env freshMarks s' ∧
      ∃ row', s'.world.db.jobs jobId = some row' ∧ row'.status = .completed := by
    induction later with
    | start => exact ⟨h, row, found, completed⟩
    | step _ stepped fresh ih =>
      obtain ⟨reached, before, isFound, done⟩ := ih
      obtain ⟨after, isAfter, moved⟩ := follows reached _ _ stepped fresh jobId before isFound
      refine ⟨reached.step stepped fresh, after, isAfter, ?_⟩
      rw [done] at moved
      obtain same | allowed := moved
      · exact same
      · revert allowed
        cases after.status <;> decide
  exact onward.2

def completedRun : List Label :=
  [.receive 0 sampleUpload] ++ Label.oks 0 14 ++ [.startWorker 1 "w", .iterate 1] ++
    Label.oks 1 8 ++ [.act 1 sampleExtraction] ++ Label.oks 1 4

theorem lifecycle_of_freshMarks_completed : ∃ s, Reached sampleEnv freshMarks s ∧
    (s.world.db.jobs 2).map (·.status) = some .completed ∧ FollowsTable sampleEnv freshMarks s := by
  obtain ⟨s, reached, accepted⟩ := Reached.exists_run sampleEnv freshMarks
    (fun s label _ => (s.commits label).all Write.fresh)
    (fun s => (s.world.db.jobs 2).map (·.status) = some .completed)
    (fun _ _ _ fresh => fresh) completedRun (by decide +kernel)
  exact ⟨s, reached, by simpa using accepted, (lifecycle_of_freshMarks reached).1⟩

/-- The upload's XADD is applied but its reply is lost; a worker completes the
job before the request marks it failed. -/
def lostPublishRun : List Label :=
  [.receive 0 sampleUpload] ++ Label.oks 0 12 ++ [.act 0 (.lost (.connection "")),
    .startWorker 1 "w", .iterate 1] ++ Label.oks 1 8 ++ [.act 1 sampleExtraction] ++
    Label.oks 1 4 ++ Label.oks 0 2

theorem lifecycle_not_kept : ¬∀ env s, Reached env anyRun s → FollowsTable env anyRun s := by
  intro kept
  obtain ⟨s, reached, accepted⟩ := Reached.exists_run sampleEnv anyRun
    (fun _ _ _ => true)
    (fun s => (s.world.db.jobs 2).map (·.status) = some .completed &&
      ((System.step sampleEnv s (.act 0 .ok)).bind fun s' => s'.world.db.jobs 2).map (·.status) =
        some .failed)
    (fun _ _ _ _ => trivial) lostPublishRun (by decide +kernel)
  simp only [Bool.and_eq_true, decide_eq_true_eq, Option.map_eq_some_iff,
    Option.bind_eq_some_iff] at accepted
  obtain ⟨⟨row, found, completed⟩, after, ⟨s', stepped, isAfter⟩, failed⟩ := accepted
  obtain ⟨row', isRow', moved⟩ := kept sampleEnv s reached _ s' stepped trivial 2 row found
  cases isRow'.symm.trans isAfter
  rw [completed, failed] at moved
  revert moved
  decide

end DocumentPipeline

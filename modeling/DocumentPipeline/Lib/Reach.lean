/-! Labelled transition systems given by a partial step function, and the states
their runs reach. A guard restricts the steps of a run; it sees the state
before the step, the label and the state after it. History variables are added
by running a second component in lockstep. -/

namespace Transition
variable {σ ℓ τ : Type}

/-- States reached from `start` by steps that all satisfy `guard`. -/
inductive Reach (step : σ → ℓ → Option σ) (start : σ) (guard : σ → ℓ → σ → Prop) : σ → Prop
  | start : Reach step start guard start
  | step {s s' : σ} {label : ℓ} : Reach step start guard s → step s label = some s' →
      guard s label s' → Reach step start guard s'

variable {step : σ → ℓ → Option σ} {start : σ} {guard guard' : σ → ℓ → σ → Prop}

/-- What holds at the start and is kept by every guarded step from a reached
state holds in every reached state. -/
theorem Reach.invariant {I : σ → Prop} (initially : I start)
    (kept : ∀ s label s', Reach step start guard s → I s → step s label = some s' →
      guard s label s' → I s') {s : σ} (h : Reach step start guard s) : I s := by
  induction h with
  | start => exact initially
  | step reached hs hg ih => exact kept _ _ _ reached ih hs hg

/-- `note` records the history of a run beside its state. -/
def tracked (step : σ → ℓ → Option σ) (note : τ → σ → ℓ → σ → τ) (x : σ × τ) (label : ℓ) :
    Option (σ × τ) :=
  (step x.1 label).map fun s' => (s', note x.2 x.1 label s')

theorem Reach.track (note : τ → σ → ℓ → σ → τ) (first : τ) {s : σ}
    (h : Reach step start guard s) :
    ∃ t, Reach (tracked step note) (start, first)
      (fun x label x' => guard x.1 label x'.1) (s, t) := by
  induction h with
  | start => exact ⟨first, .start⟩
  | step _ hs hg ih =>
    obtain ⟨t, ht⟩ := ih
    exact ⟨_, ht.step (by simp only [tracked, hs]; rfl) hg⟩

/-- Run a list of labels, checking each step. -/
def runChecked (step : σ → ℓ → Option σ) (check : σ → ℓ → σ → Bool) : List ℓ → σ → Option σ
  | [], s => some s
  | label :: rest, s =>
    match step s label with
    | none => none
    | some s' => if check s label s' then runChecked step check rest s' else none

theorem Reach.of_runChecked {check : σ → ℓ → σ → Bool}
    (sound : ∀ s label s', check s label s' = true → guard s label s')
    {labels : List ℓ} {s s' : σ} (reached : Reach step start guard s)
    (run : runChecked step check labels s = some s') : Reach step start guard s' := by
  induction labels generalizing s with
  | nil =>
    cases run
    exact reached
  | cons label rest ih =>
    simp only [runChecked] at run
    split at run
    · cases run
    · split at run
      · rename_i hs hc
        exact ih (reached.step hs (sound _ _ _ hc)) run
      · cases run

/-- A checked run of given labels ends in a reached state that a test accepts. -/
theorem Reach.exists_of_runChecked (check : σ → ℓ → σ → Bool) (accept : σ → Bool)
    (sound : ∀ s label s', check s label s' = true → guard s label s') (labels : List ℓ)
    (run : (runChecked step check labels start).any accept = true) :
    ∃ s, Reach step start guard s ∧ accept s = true := by
  rw [Option.any_eq_true] at run
  obtain ⟨s, ran, accepted⟩ := run
  exact ⟨s, Reach.of_runChecked sound .start ran, accepted⟩

end Transition

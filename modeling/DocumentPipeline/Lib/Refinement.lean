import DocumentPipeline.Lib.Reach

/-! Refinement of a labelled transition system by a relation between abstract
states. A step of the system shows nothing and leaves the abstract state, or
shows one event that the relation allows. What the system has shown is then a
trace of the relation, and invariants of traces hold of the system. -/

namespace Transition
variable {σ ℓ τ κ : Type}

/-- States the relation leads to from `start`, with the events on the way, newest first. -/
inductive Trace (spec : τ → κ → τ → Prop) (start : τ) : List κ → τ → Prop
  | start : Trace spec start [] start
  | event {shown : List κ} {a a' : τ} {e : κ} : Trace spec start shown a → spec a e a' →
      Trace spec start (e :: shown) a'

/-- The abstract state and the events shown after a step, from those before it. -/
inductive Moves (spec : τ → κ → τ → Prop) (shown : List κ) (a : τ) : List κ → τ → Prop
  | silent : Moves spec shown a shown a
  | event {a' : τ} {e : κ} : spec a e a' → Moves spec shown a (e :: shown) a'

variable {spec : τ → κ → τ → Prop} {first : τ}

theorem Trace.moves {shown shown' : List κ} {a a' : τ} (h : Trace spec first shown a)
    (moves : Moves spec shown a shown' a') : Trace spec first shown' a' := by
  cases moves with
  | silent => exact h
  | event allowed => exact h.event allowed

/-- What holds of the first state and is kept by every event holds along a trace. -/
theorem Trace.invariant {I : List κ → τ → Prop} (initially : I [] first)
    (kept : ∀ shown a e a', I shown a → spec a e a' → I (e :: shown) a') {shown : List κ} {a : τ}
    (h : Trace spec first shown a) : I shown a := by
  induction h with
  | start => exact initially
  | event _ allowed ih => exact kept _ _ _ _ ih allowed

/-- A system whose every step is silent or one event of the relation refines it. -/
theorem Reach.trace {step : σ → ℓ → Option σ} {guard : σ → ℓ → σ → Prop} {start : σ}
    (abs : σ → τ) (shown : σ → List κ) (fresh : shown start = [])
    (refines : ∀ s label s', Reach step start guard s → step s label = some s' →
      guard s label s' → Moves spec (shown s) (abs s) (shown s') (abs s'))
    {s : σ} (h : Reach step start guard s) : Trace spec (abs start) (shown s) (abs s) := by
  induction h with
  | start =>
    rw [fresh]
    exact .start
  | step reached stepped guarded ih => exact ih.moves (refines _ _ _ reached stepped guarded)

end Transition

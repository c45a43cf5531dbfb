import DocumentPipeline.Lib.Program

/-! Logs of programs. The log of a run is the list of its calls with their
replies, oldest first. `emits p Q` says that every outcome of `p` satisfies `Q`
together with the log that led to it. A bounded retry loop is here as well,
with the logs that it can leave. -/

namespace EffectProgram

abbrev Log (O : Type) (V : O → Type) (ε : Type) := List ((o : O) × Except ε (V o))

section Rules
variable {O : Type} {V : O → Type} {ε α β : Type} (credible : (o : O) → Except ε (V o) → Prop)

/-- `credible` bounds the replies that can occur. -/
def emits : Program O V ε α → (Except ε α → Log O V ε → Prop) → Prop
  | .ret value, Q => Q (.ok value) []
  | .raise error, Q => Q (.error error) []
  | .call o next, Q => ∀ reply, credible o reply →
    emits (next reply) fun r log => Q r (⟨o, reply⟩ :: log)

@[simp] theorem emits_pure (value : α) (Q : Except ε α → Log O V ε → Prop) :
    emits credible (pure value) Q ↔ Q (.ok value) [] := Iff.rfl

@[simp] theorem emits_throw (error : ε) (Q : Except ε α → Log O V ε → Prop) :
    emits credible (throw error) Q ↔ Q (.error error) [] := Iff.rfl

theorem emits_mono {p : Program O V ε α} {Q Q' : Except ε α → Log O V ε → Prop}
    (h : emits credible p Q) (weaker : ∀ r log, Q r log → Q' r log) : emits credible p Q' := by
  induction p generalizing Q Q' with
  | ret value => exact weaker _ _ h
  | raise error => exact weaker _ _ h
  | call o next ih =>
    intro reply likely
    exact ih reply (h reply likely) fun r log => weaker r _

@[simp] theorem emits_lift (r : Except ε α) (Q : Except ε α → Log O V ε → Prop) :
    emits credible (Program.lift r) Q ↔ Q r [] := by
  cases r <;> rfl

@[simp] theorem emits_perform (o : O) (Q : Except ε (V o) → Log O V ε → Prop) :
    emits credible (Program.perform o) Q ↔ ∀ reply, credible o reply → Q reply [⟨o, reply⟩] := by
  simp only [Program.perform, emits, emits_lift]

theorem emits_bind' (p : Program O V ε α) (f : α → Program O V ε β)
    (Q : Except ε β → Log O V ε → Prop) :
    emits credible (p.bind f) Q ↔ emits credible p fun r log => match r with
      | .ok value => emits credible (f value) fun r' log' => Q r' (log ++ log')
      | .error error => Q (.error error) log := by
  induction p generalizing Q with
  | ret value => rfl
  | raise error => rfl
  | call o next ih => simp only [Program.bind, emits, ih, List.cons_append]

theorem emits_bind (p : Program O V ε α) (f : α → Program O V ε β)
    (Q : Except ε β → Log O V ε → Prop) :
    emits credible (p >>= f) Q ↔ emits credible p fun r log => match r with
      | .ok value => emits credible (f value) fun r' log' => Q r' (log ++ log')
      | .error error => Q (.error error) log :=
  emits_bind' credible p f Q

theorem emits_tryCatch (p : Program O V ε α) (handler : ε → Program O V ε α)
    (Q : Except ε α → Log O V ε → Prop) :
    emits credible (tryCatch p handler) Q ↔ emits credible p fun r log => match r with
      | .ok value => Q (.ok value) log
      | .error error => emits credible (handler error) fun r' log' => Q r' (log ++ log') := by
  change emits credible (p.tryCatch handler) Q ↔ _
  induction p generalizing Q with
  | ret value => rfl
  | raise error => rfl
  | call o next ih => simp only [Program.tryCatch, emits, ih, List.cons_append]

theorem emits_andFinally (p : Program O V ε α) (cleanup : Program O V ε Unit)
    (Q : Except ε α → Log O V ε → Prop) :
    emits credible (p.andFinally cleanup) Q ↔ emits credible p fun r log =>
      emits credible cleanup fun c log' => match c with
        | .ok _ => Q r (log ++ log')
        | .error error => Q (.error error) (log ++ log') := by
  induction p generalizing Q with
  | ret value =>
    rw [Program.andFinally, emits, emits_bind']
    congr! 3 with r log
    cases r <;> simp [emits]
  | raise error =>
    rw [Program.andFinally, emits, emits_bind']
    congr! 3 with r log
    cases r <;> simp [emits]
  | call o next ih => simp only [Program.andFinally, emits, ih, List.cons_append]

theorem emits_embed {O' : Type} {V' : O' → Type} (likely : (o : O') → Except ε (V' o) → Prop)
    (f : O → O') (p : Program O (fun o => V' (f o)) ε α)
    (Q : Except ε α → Log O' V' ε → Prop) :
    emits likely (p.embed f) Q ↔ emits (fun o reply => likely (f o) reply) p fun r log =>
      Q r (log.map fun entry => ⟨f entry.1, entry.2⟩) := by
  induction p generalizing Q with
  | ret value => rfl
  | raise error => rfl
  | call o next ih => simp only [Program.embed, emits, ih, List.map_cons]

/-- The rule of consequence for the body of a sequence. -/
theorem emits_seq {p : Program O V ε α} {f : α → Program O V ε β}
    {R : Except ε α → Log O V ε → Prop} {Q : Except ε β → Log O V ε → Prop}
    (first : emits credible p R)
    (ok : ∀ value log, R (.ok value) log →
      emits credible (f value) fun r log' => Q r (log ++ log'))
    (failed : ∀ error log, R (.error error) log → Q (.error error) log) :
    emits credible (p >>= f) Q := by
  refine (emits_bind credible p f Q).mpr (emits_mono credible first fun r log h => ?_)
  cases r with
  | ok value => exact ok value log h
  | error error => exact failed error log h

end Rules

section Retrying
variable {O : Type} {V : O → Type} {ε : Type}

/-- Issue one call until it returns, `n` times at most, and pause after every
failure that is tolerated. -/
def Program.retrying (tolerates : ε → Bool) (attempt pause : O) : Nat → Program O V ε Bool
  | 0 => return false
  | n + 1 => do
    let reached ← tryCatch (do
        let _ ← perform attempt
        return true) fun error =>
      if tolerates error then return false else throw error
    if reached then return true
    let _ ← perform pause
    retrying tolerates attempt pause n

/-- The log of `n` tolerated failures, each with the pause after it. -/
inductive Retried (tolerates : ε → Bool) (attempt pause : O) : Nat → Log O V ε → Prop
  | none : Retried tolerates attempt pause 0 []
  | again {n : Nat} {error : ε} {paused : V pause} {log : Log O V ε} :
    tolerates error = true → Retried tolerates attempt pause n log →
      Retried tolerates attempt pause (n + 1) (⟨attempt, .error error⟩ :: ⟨pause, .ok paused⟩ :: log)

variable {tolerates : ε → Bool} {attempt pause : O} {credible : (o : O) → Except ε (V o) → Prop}

/-- Fewer than `n` tolerated failures and then the reply that ends the loop, or
`n` of them. -/
theorem emits_retrying (rests : ∀ error, ¬credible pause (.error error)) (n : Nat) :
    emits credible (Program.retrying tolerates attempt pause n) fun r log => match r with
      | .ok true => ∃ k < n, ∃ failed value, Retried tolerates attempt pause k failed ∧
          log = failed ++ [⟨attempt, .ok value⟩]
      | .ok false => Retried tolerates attempt pause n log
      | .error error => ∃ k < n, ∃ failed, Retried tolerates attempt pause k failed ∧
          tolerates error = false ∧ credible attempt (.error error) ∧
            log = failed ++ [⟨attempt, .error error⟩] := by
  induction n with
  | zero => exact .none
  | succ n ih =>
    rw [Program.retrying, emits_bind, emits_tryCatch, emits_bind, emits_perform]
    intro reply likely
    cases reply with
    | ok value => exact ⟨0, Nat.succ_pos n, [], value, .none, rfl⟩
    | error error =>
      by_cases tolerated : tolerates error = true
      · simp only [tolerated, if_true, emits_pure, Bool.false_eq_true, if_false]
        rw [emits_bind, emits_perform]
        intro reply likely
        cases reply with
        | error error => exact absurd likely (rests error)
        | ok paused =>
          refine emits_mono credible ih fun r log h => ?_
          rcases r with error | _ | _
          · obtain ⟨k, less, failed, retried, refused, occurs, rfl⟩ := h
            exact ⟨k + 1, Nat.succ_lt_succ less, _, .again tolerated retried, refused, occurs, rfl⟩
          · exact .again tolerated h
          · obtain ⟨k, less, failed, value, retried, rfl⟩ := h
            exact ⟨k + 1, Nat.succ_lt_succ less, _, value, .again tolerated retried, rfl⟩
      · rw [Bool.not_eq_true] at tolerated
        simp only [tolerated, Bool.false_eq_true, if_false, emits_throw]
        exact ⟨0, Nat.succ_pos n, [], .none, trivial, likely, rfl⟩

end Retrying
end EffectProgram

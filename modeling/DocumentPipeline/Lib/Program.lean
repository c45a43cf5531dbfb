import Mathlib.Tactic.CongrExclamation

/-! Programs over an interface of fallible calls. `O` lists the calls, `V o` is
the value that call `o` returns, and every call may instead raise an `ε`.
A program is its own set of suspension points: `call o next` has issued `o`
and waits for the reply. A `Protocol` says which calls are permitted in a
state and how a reply moves the state; `wp` reads a program against it. -/

namespace EffectProgram

inductive Program (O : Type) (V : O → Type) (ε α : Type) : Type
  | ret (value : α)
  | raise (error : ε)
  | call (o : O) (next : Except ε (V o) → Program O V ε α)

namespace Program
variable {O : Type} {V : O → Type} {ε α β : Type}

protected def bind : Program O V ε α → (α → Program O V ε β) → Program O V ε β
  | .ret value, f => f value
  | .raise error, _ => .raise error
  | .call o next, f => .call o fun reply => (next reply).bind f

protected def tryCatch : Program O V ε α → (ε → Program O V ε α) → Program O V ε α
  | .ret value, _ => .ret value
  | .raise error, handler => handler error
  | .call o next, handler => .call o fun reply => (next reply).tryCatch handler

instance : Monad (Program O V ε) where
  pure := .ret
  bind := Program.bind

instance : MonadExcept ε (Program O V ε) where
  throw := .raise
  tryCatch := Program.tryCatch

def lift : Except ε α → Program O V ε α
  | .ok value => .ret value
  | .error error => .raise error

/-- Issue one call and hand its value, or its error, to the program. -/
def perform (o : O) : Program O V ε (V o) := .call o lift

/-- `try p finally cleanup`: an error of `cleanup` replaces the outcome of `p`. -/
def andFinally (p : Program O V ε α) (cleanup : Program O V ε Unit) : Program O V ε α :=
  match p with
  | .ret value => cleanup.bind fun _ => .ret value
  | .raise error => cleanup.bind fun _ => .raise error
  | .call o next => .call o fun reply => (next reply).andFinally cleanup

def outcome? : Program O V ε α → Option (Except ε α)
  | .ret value => some (.ok value)
  | .raise error => some (.error error)
  | .call _ _ => none

/-- Run a program over one interface as part of a program over a larger one. -/
def embed {O' : Type} {V' : O' → Type} (f : O → O') :
    Program O (fun o => V' (f o)) ε α → Program O' V' ε α
  | .ret value => .ret value
  | .raise error => .raise error
  | .call o next => .call (f o) fun reply => (next reply).embed f

def attempt : Program O V ε α → Program O V ε (Except ε α)
  | .ret value => .ret (.ok value)
  | .raise error => .ret (.error error)
  | .call o next => .call o fun reply => (next reply).attempt

/-- Carry out every call of a program by a program over another interface. -/
def interpret {O' : Type} {V' : O' → Type} (carry : (o : O) → Program O' V' ε (V o)) :
    Program O V ε α → Program O' V' ε α
  | .ret value => .ret value
  | .raise error => .raise error
  | .call o next => (carry o).attempt.bind fun reply => (next reply).interpret carry

theorem bind_assoc {γ : Type} (p : Program O V ε α) (f : α → Program O V ε β)
    (g : β → Program O V ε γ) : p >>= f >>= g = p >>= fun value => f value >>= g := by
  change (p.bind f).bind g = p.bind fun value => (f value).bind g
  induction p with
  | ret value => rfl
  | raise error => rfl
  | call o next ih =>
    simp only [Program.bind]
    congr 1
    funext reply
    exact ih reply

section Interpreting
variable {O' : Type} {V' : O' → Type} {f : O → O'}

theorem embed_bind (p : Program O (fun o => V' (f o)) ε α)
    (k : α → Program O (fun o => V' (f o)) ε β) :
    (p.bind k).embed f = (p.embed f).bind fun value => (k value).embed f := by
  induction p with
  | ret value => rfl
  | raise error => rfl
  | call o next ih =>
    simp only [Program.bind, embed]
    congr 1
    funext reply
    exact ih reply

theorem embed_attempt (p : Program O (fun o => V' (f o)) ε α) :
    p.attempt.embed f = (p.embed f).attempt := by
  induction p with
  | ret value => rfl
  | raise error => rfl
  | call o next ih =>
    simp only [attempt, embed]
    congr 1
    funext reply
    exact ih reply

theorem tryCatch_bind_eq_attempt (p : Program O V ε α) (k : Option α → Program O V ε β) :
    ((p.bind fun value => .ret (some value)).tryCatch fun _ => .ret none).bind k =
      p.attempt.bind fun outcome => k outcome.toOption := by
  induction p with
  | ret value => rfl
  | raise error => rfl
  | call o next ih =>
    simp only [Program.bind, Program.tryCatch, attempt]
    congr 1
    funext reply
    exact ih reply

theorem interpret_embed {carry : (o : O') → Program O' V' ε (V' o)}
    (same : ∀ o, carry (f o) = perform (f o)) (p : Program O (fun o => V' (f o)) ε α) :
    (p.embed f).interpret carry = p.embed f := by
  induction p with
  | ret value => rfl
  | raise error => rfl
  | call o next ih =>
    simp only [embed, interpret, same, perform, attempt, Program.bind]
    congr 1
    funext reply
    cases reply <;> exact ih _

end Interpreting
end Program

structure Protocol (O : Type) (V : O → Type) (ε σ : Type) where
  permits : σ → O → Prop
  next : σ → (o : O) → Except ε (V o) → σ → Prop

section Rules
variable {O : Type} {V : O → Type} {ε σ α β : Type} (P : Protocol O V ε σ)

/-- From state `s` every call of the program is permitted, whatever the earlier
replies were, and `Q` holds of its outcome and of the state it ends in. -/
def wp : Program O V ε α → (Except ε α → σ → Prop) → σ → Prop
  | .ret value, Q, s => Q (.ok value) s
  | .raise error, Q, s => Q (.error error) s
  | .call o next, Q, s => P.permits s o ∧ ∀ reply s', P.next s o reply s' → wp (next reply) Q s'

@[simp] theorem wp_ret (value : α) (Q : Except ε α → σ → Prop) (s : σ) :
    wp P (.ret value) Q s = Q (.ok value) s := rfl

@[simp] theorem wp_raise (error : ε) (Q : Except ε α → σ → Prop) (s : σ) :
    wp P (.raise error) Q s = Q (.error error) s := rfl

@[simp] theorem wp_pure (value : α) (Q : Except ε α → σ → Prop) (s : σ) :
    wp P (pure value) Q s = Q (.ok value) s := rfl

@[simp] theorem wp_throw (error : ε) (Q : Except ε α → σ → Prop) (s : σ) :
    wp P (throw error) Q s = Q (.error error) s := rfl

@[simp] theorem wp_lift (r : Except ε α) (Q : Except ε α → σ → Prop) (s : σ) :
    wp P (Program.lift r) Q s = Q r s := by
  cases r <;> rfl

theorem wp_call (o : O) (next : Except ε (V o) → Program O V ε α)
    (Q : Except ε α → σ → Prop) (s : σ) :
    wp P (.call o next) Q s =
      (P.permits s o ∧ ∀ reply s', P.next s o reply s' → wp P (next reply) Q s') := rfl

@[simp] theorem wp_perform (o : O) (Q : Except ε (V o) → σ → Prop) (s : σ) :
    wp P (Program.perform o) Q s ↔
      P.permits s o ∧ ∀ reply s', P.next s o reply s' → Q reply s' := by
  simp only [Program.perform, wp_call, wp_lift]

theorem wp_mono {p : Program O V ε α} {Q Q' : Except ε α → σ → Prop}
    (weaker : ∀ r s, Q r s → Q' r s) {s : σ} (h : wp P p Q s) : wp P p Q' s := by
  induction p generalizing s with
  | ret value => exact weaker _ _ h
  | raise error => exact weaker _ _ h
  | call o next ih => exact ⟨h.1, fun reply s' hs => ih reply (h.2 reply s' hs)⟩

theorem wp_bind' (p : Program O V ε α) (f : α → Program O V ε β)
    (Q : Except ε β → σ → Prop) (s : σ) :
    wp P (p.bind f) Q s ↔ wp P p (fun r s' => match r with
      | .ok value => wp P (f value) Q s'
      | .error error => Q (.error error) s') s := by
  induction p generalizing s with
  | ret value => rfl
  | raise error => rfl
  | call o next ih => simp only [Program.bind, wp_call, ih]

@[simp] theorem wp_bind (p : Program O V ε α) (f : α → Program O V ε β)
    (Q : Except ε β → σ → Prop) (s : σ) :
    wp P (p >>= f) Q s ↔ wp P p (fun r s' => match r with
      | .ok value => wp P (f value) Q s'
      | .error error => Q (.error error) s') s :=
  wp_bind' P p f Q s

@[simp] theorem wp_tryCatch (p : Program O V ε α) (handler : ε → Program O V ε α)
    (Q : Except ε α → σ → Prop) (s : σ) :
    wp P (tryCatch p handler) Q s ↔ wp P p (fun r s' => match r with
      | .ok value => Q (.ok value) s'
      | .error error => wp P (handler error) Q s') s := by
  change wp P (p.tryCatch handler) Q s ↔ _
  induction p generalizing s with
  | ret value => rfl
  | raise error => rfl
  | call o next ih => simp only [Program.tryCatch, wp_call, ih]

@[simp] theorem wp_andFinally (p : Program O V ε α) (cleanup : Program O V ε Unit)
    (Q : Except ε α → σ → Prop) (s : σ) :
    wp P (p.andFinally cleanup) Q s ↔ wp P p (fun r s' =>
      wp P cleanup (fun c s'' => match c with
        | .ok _ => Q r s''
        | .error error => Q (.error error) s'') s') s := by
  induction p generalizing s with
  | ret value =>
    rw [Program.andFinally, wp_bind', wp_ret]
    congr! 3 with r
    cases r <;> rfl
  | raise error =>
    rw [Program.andFinally, wp_bind', wp_raise]
    congr! 3 with r
    cases r <;> rfl
  | call o next ih => simp only [Program.andFinally, wp_call, ih]

theorem wp_and {p : Program O V ε α} {Q Q' : Except ε α → σ → Prop} {s : σ} (h : wp P p Q s)
    (h' : wp P p Q' s) : wp P p (fun r s' => Q r s' ∧ Q' r s') s := by
  induction p generalizing s with
  | ret value => exact ⟨h, h'⟩
  | raise error => exact ⟨h, h'⟩
  | call o next ih => exact ⟨h.1, fun reply s' hs => ih reply (h.2 reply s' hs) (h'.2 reply s' hs)⟩

/-- The rule of consequence for the body of a sequence. -/
theorem wp_seq {p : Program O V ε α} {f : α → Program O V ε β}
    {R : Except ε α → σ → Prop} {Q : Except ε β → σ → Prop} {s : σ}
    (first : wp P p R s) (ok : ∀ value s', R (.ok value) s' → wp P (f value) Q s')
    (failed : ∀ error s', R (.error error) s' → Q (.error error) s') :
    wp P (p >>= f) Q s := by
  rw [wp_bind]
  refine wp_mono P (fun r s' h => ?_) first
  cases r with
  | ok value => exact ok value s' h
  | error error => exact failed error s' h

/-- A protocol seen by the programs of a smaller interface. -/
def Protocol.along {O' : Type} {V' : O' → Type} (P : Protocol O' V' ε σ) (f : O → O') :
    Protocol O (fun o => V' (f o)) ε σ where
  permits s o := P.permits s (f o)
  next s o reply s' := P.next s (f o) reply s'

@[simp] theorem wp_embed {O' : Type} {V' : O' → Type} (P : Protocol O' V' ε σ) (f : O → O')
    (p : Program O (fun o => V' (f o)) ε α) (Q : Except ε α → σ → Prop) (s : σ) :
    wp P (p.embed f) Q s ↔ wp (P.along f) p Q s := by
  induction p generalizing s with
  | ret value => rfl
  | raise error => rfl
  | call o next ih => simp only [Program.embed, wp_call, ih, Protocol.along]

end Rules

/-- A protocol whose state is computed from the call and its reply; `credible`
bounds the replies that can occur. -/
def Protocol.tracking {O : Type} {V : O → Type} {ε σ : Type} (permits : σ → O → Prop)
    (credible : (o : O) → Except ε (V o) → Prop) (next : σ → (o : O) → Except ε (V o) → σ) :
    Protocol O V ε σ where
  permits := permits
  next s o reply s' := credible o reply ∧ s' = next s o reply

section Tracking
variable {O : Type} {V : O → Type} {ε σ α : Type} {permits : σ → O → Prop}
  {credible : (o : O) → Except ε (V o) → Prop} {next : σ → (o : O) → Except ε (V o) → σ}

theorem wp_tracking_perform {o : O} {Q : Except ε (V o) → σ → Prop} {s : σ}
    (permitted : permits s o)
    (ok : ∀ value, credible o (.ok value) → Q (.ok value) (next s o (.ok value)))
    (failed : ∀ error, credible o (.error error) → Q (.error error) (next s o (.error error))) :
    wp (.tracking permits credible next) (Program.perform o) Q s := by
  refine (wp_perform _ _ _ _).mpr ⟨permitted, ?_⟩
  rintro (error | value) _ ⟨likely, rfl⟩
  · exact failed error likely
  · exact ok value likely

theorem wp_tracking_then {o : O} {f : V o → Program O V ε α} {Q : Except ε α → σ → Prop} {s : σ}
    (permitted : permits s o)
    (ok : ∀ value, credible o (.ok value) →
      wp (.tracking permits credible next) (f value) Q (next s o (.ok value)))
    (failed : ∀ error, credible o (.error error) → Q (.error error) (next s o (.error error))) :
    wp (.tracking permits credible next) (Program.perform o >>= f) Q s := by
  refine (wp_bind _ _ _ _ _).mpr (wp_tracking_perform permitted ok failed)

end Tracking

section Machine
variable {O : Type} {V : O → Type} {ε σ α β : Type}
  (exec : σ → (o : O) → Option (σ × Except ε (V o)))

/-- Run a program to its outcome on a machine that answers its calls. -/
def Program.runWith : Program O V ε α → σ → Option (σ × Except ε α)
  | .ret value, s => some (s, .ok value)
  | .raise error, s => some (s, .error error)
  | .call o next, s => (exec s o).bind fun answered => (next answered.2).runWith answered.1

/-- On a machine every call must find an answer. -/
def Protocol.answering : Protocol O V ε σ where
  permits s o := (exec s o).isSome = true
  next s o reply s' := exec s o = some (s', reply)

variable {exec}

theorem Program.runWith_of_wp {p : Program O V ε α} {Q : Except ε α → σ → Prop} {s : σ}
    (h : wp (.answering exec) p Q s) : ∃ s' r, p.runWith exec s = some (s', r) ∧ Q r s' := by
  induction p generalizing s with
  | ret value => exact ⟨s, .ok value, rfl, h⟩
  | raise error => exact ⟨s, .error error, rfl, h⟩
  | call o next ih =>
    obtain ⟨⟨s', reply⟩, answered⟩ := Option.isSome_iff_exists.mp h.1
    obtain ⟨s'', r, ran, post⟩ := ih reply (h.2 reply s' answered)
    exact ⟨s'', r, by rw [runWith, answered, Option.bind_some, ran], post⟩

theorem wp_answering {o : O} {Q : Except ε (V o) → σ → Prop} {s s' : σ} {reply : Except ε (V o)}
    (answered : exec s o = some (s', reply)) (post : Q reply s') :
    wp (.answering exec) (Program.perform o) Q s := by
  refine (wp_perform _ _ _ _).mpr ⟨by simp only [Protocol.answering, answered, Option.isSome_some],
    fun reply' s'' same => ?_⟩
  cases answered.symm.trans same
  exact post

theorem wp_answering_then {o : O} {f : V o → Program O V ε α} {Q : Except ε α → σ → Prop}
    {s s' : σ} {value : V o} (answered : exec s o = some (s', .ok value))
    (post : wp (.answering exec) (f value) Q s') :
    wp (.answering exec) (Program.perform o >>= f) Q s :=
  (wp_bind _ _ _ _ _).mpr (wp_answering answered post)

end Machine

section Replies
variable {O : Type} {V : O → Type} {ε α β L : Type}

/-- The calls answered and the outcome of a program, when `ρ n` answers call
number `n` and the first is number `n`. -/
def Program.under (ρ : Nat → (o : O) → Except ε (V o)) : Program O V ε α → Nat → Nat × Except ε α
  | .ret value, n => (n, .ok value)
  | .raise error, n => (n, .error error)
  | .call o next, n => (next (ρ n o)).under ρ (n + 1)

def Program.trace (ρ : Nat → (o : O) → Except ε (V o)) :
    Program O V ε α → Nat → List ((o : O) × Except ε (V o))
  | .ret _, _ => []
  | .raise _, _ => []
  | .call o next, n => ⟨o, ρ n o⟩ :: (next (ρ n o)).trace ρ (n + 1)

def labelling (ρ : Nat → (o : O) → Except ε (V o)) (label : L → (o : O) → Except ε (V o) → L)
    (s : L × Nat) (o : O) : Option ((L × Nat) × Except ε (V o)) :=
  some ((label s.1 o (ρ s.2 o), s.2 + 1), ρ s.2 o)

namespace Program
variable (ρ : Nat → (o : O) → Except ε (V o))

@[simp] theorem under_lift (r : Except ε α) (n : Nat) :
    (lift r : Program O V ε α).under ρ n = (n, r) := by
  cases r <;> rfl

@[simp] theorem under_perform (o : O) (n : Nat) :
    (perform o : Program O V ε (V o)).under ρ n = (n + 1, ρ n o) :=
  under_lift ρ (ρ n o) (n + 1)

theorem under_bind (p : Program O V ε α) (f : α → Program O V ε β) (n : Nat) :
    (p >>= f).under ρ n = match p.under ρ n with
      | (m, .ok value) => (f value).under ρ m
      | (m, .error error) => (m, .error error) := by
  change (p.bind f).under ρ n = _
  induction p generalizing n with
  | ret value => rfl
  | raise error => rfl
  | call o next ih => exact ih (ρ n o) (n + 1)

theorem under_tryCatch (p : Program O V ε α) (handler : ε → Program O V ε α) (n : Nat) :
    (MonadExcept.tryCatch p handler).under ρ n = match p.under ρ n with
      | (m, .ok value) => (m, .ok value)
      | (m, .error error) => (handler error).under ρ m := by
  change (p.tryCatch handler).under ρ n = _
  induction p generalizing n with
  | ret value => rfl
  | raise error => rfl
  | call o next ih => exact ih (ρ n o) (n + 1)

theorem trace_bind (p : Program O V ε α) (f : α → Program O V ε β) (n : Nat) :
    (p >>= f).trace ρ n = p.trace ρ n ++ match p.under ρ n with
      | (m, .ok value) => (f value).trace ρ m
      | (_, .error _) => [] := by
  change (p.bind f).trace ρ n = _
  induction p generalizing n with
  | ret value => rfl
  | raise error => rfl
  | call o next ih => exact congrArg (⟨o, ρ n o⟩ :: ·) (ih (ρ n o) (n + 1))

theorem trace_tryCatch (p : Program O V ε α) (handler : ε → Program O V ε α) (n : Nat) :
    (MonadExcept.tryCatch p handler).trace ρ n = p.trace ρ n ++ match p.under ρ n with
      | (_, .ok _) => []
      | (m, .error error) => (handler error).trace ρ m := by
  change (p.tryCatch handler).trace ρ n = _
  induction p generalizing n with
  | ret value => rfl
  | raise error => rfl
  | call o next ih => exact congrArg (⟨o, ρ n o⟩ :: ·) (ih (ρ n o) (n + 1))

theorem trace_andFinally (p : Program O V ε α) (cleanup : Program O V ε Unit) (n : Nat) :
    (p.andFinally cleanup).trace ρ n = p.trace ρ n ++ cleanup.trace ρ (p.under ρ n).1 := by
  induction p generalizing n with
  | ret value =>
    change (cleanup >>= fun _ => .ret value).trace ρ n = _
    rw [trace_bind]
    rcases cleanup.under ρ n with ⟨m, error | value⟩ <;> simp [trace, under]
  | raise error =>
    change (cleanup >>= fun _ => .raise error).trace ρ n = _
    rw [trace_bind]
    rcases cleanup.under ρ n with ⟨m, error | value⟩ <;> simp [trace, under]
  | call o next ih => exact congrArg (⟨o, ρ n o⟩ :: ·) (ih (ρ n o) (n + 1))

theorem runWith_labelling (label : L → (o : O) → Except ε (V o) → L) (p : Program O V ε α) (l : L)
    (n : Nat) : ∃ l', p.runWith (labelling ρ label) (l, n) =
      some ((l', (p.under ρ n).1), (p.under ρ n).2) := by
  induction p generalizing l n with
  | ret value => exact ⟨l, rfl⟩
  | raise error => exact ⟨l, rfl⟩
  | call o next ih => exact ih (ρ n o) _ (n + 1)

end Program
end Replies

section Outcomes
variable {O : Type} {V : O → Type} {ε σ α β : Type}

inductive Program.Reaches : Program O V ε α → Except ε α → Prop
  | ret (value : α) : Reaches (.ret value) (.ok value)
  | raise (error : ε) : Reaches (.raise error) (.error error)
  | call {o : O} {next : Except ε (V o) → Program O V ε α} {r : Except ε α}
      (reply : Except ε (V o)) : Reaches (next reply) r → Reaches (.call o next) r

/-- An execution of a program under a protocol: its outcome and last state. -/
inductive Program.Ends (P : Protocol O V ε σ) : Program O V ε α → σ → Except ε α → σ → Prop
  | ret (value : α) (s : σ) : Ends P (.ret value) s (.ok value) s
  | raise (error : ε) (s : σ) : Ends P (.raise error) s (.error error) s
  | call {o : O} {next : Except ε (V o) → Program O V ε α} {s s' s'' : σ} {reply : Except ε (V o)}
      {r : Except ε α} (moved : P.next s o reply s') (rest : Ends P (next reply) s' r s'') :
    Ends P (.call o next) s r s''

theorem Program.Ends.post {P : Protocol O V ε σ} {p : Program O V ε α} {s s' : σ} {r : Except ε α}
    {Q : Except ε α → σ → Prop} (ended : p.Ends P s r s') (h : wp P p Q s) : Q r s' := by
  induction ended with
  | ret value s => exact h
  | raise error s => exact h
  | call moved _ ih => exact ih (h.2 _ _ moved)

theorem Program.Ends.bind {P : Protocol O V ε σ} {p : Program O V ε α} {f : α → Program O V ε β}
    {s s' s'' : σ} {value : α} {r : Except ε β} (first : p.Ends P s (.ok value) s')
    (then_ : (f value).Ends P s' r s'') : (p >>= f).Ends P s r s'' := by
  change (p.bind f).Ends P s r s''
  generalize same : Except.ok value = outcome at first
  induction first with
  | ret value s =>
    cases same
    exact then_
  | raise error s => cases same
  | call moved _ ih => exact .call moved (ih then_ same)

/-- What is left of a program after some of its calls, and where they have led. -/
inductive Program.Run (P : Protocol O V ε σ) (p : Program O V ε α) (s : σ) :
    Program O V ε α → σ → Prop
  | start : Run P p s p s
  | call {o : O} {next : Except ε (V o) → Program O V ε α} {s' s'' : σ} {reply : Except ε (V o)}
      (earlier : Run P p s (.call o next) s') (moved : P.next s' o reply s'') :
    Run P p s (next reply) s''

theorem Program.Run.head {P : Protocol O V ε σ} {o : O} {next : Except ε (V o) → Program O V ε α}
    {s s' s'' : σ} {reply : Except ε (V o)} {p : Program O V ε α} (moved : P.next s o reply s')
    (rest : (next reply).Run P s' p s'') : Program.Run P (.call o next) s p s'' := by
  induction rest with
  | start => exact .call .start moved
  | call _ later ih => exact .call ih later

/-- Stages that a program follows say where it stands under another protocol, if
they account for every step of that one. -/
theorem Program.Run.staged {τ : Type} {P : Protocol O V ε σ} {permits : τ → O → Prop}
    {credible : (o : O) → Except ε (V o) → Prop} {next : τ → (o : O) → Except ε (V o) → τ}
    {Φ : τ → σ → Prop} {Q : Except ε α → τ → Prop} {p p' : Program O V ε α} {s s' : σ} {stage : τ}
    (accounts : ∀ stage s o reply s', Φ stage s → permits stage o → P.next s o reply s' →
      credible o reply ∧ Φ (next stage o reply) s')
    (run : p.Run P s p' s') (follows : wp (.tracking permits credible next) p Q stage)
    (first : Φ stage s) :
    ∃ stage', wp (.tracking permits credible next) p' Q stage' ∧ Φ stage' s' := by
  induction run with
  | start => exact ⟨stage, follows, first⟩
  | call _ moved ih =>
    obtain ⟨stage', follows, held⟩ := ih
    obtain ⟨likely, kept⟩ := accounts stage' _ _ _ _ held follows.1 moved
    exact ⟨_, follows.2 _ _ ⟨likely, rfl⟩, kept⟩

theorem Program.run_of_runWith {P : Protocol O V ε σ}
    {exec : σ → (o : O) → Option (σ × Except ε (V o))}
    (allowed : ∀ s o s' reply, exec s o = some (s', reply) → P.next s o reply s')
    {p : Program O V ε α} {s s' : σ} {value : α} (ran : p.runWith exec s = some (s', .ok value)) :
    p.Run P s (.ret value) s' := by
  induction p generalizing s with
  | ret value =>
    cases ran
    exact .start
  | raise error => cases ran
  | call o next ih =>
    rw [Program.runWith] at ran
    obtain ⟨⟨s₁, reply⟩, answered, rest⟩ := Option.bind_eq_some_iff.mp ran
    exact .head (allowed s o s₁ reply answered) (ih reply rest)

theorem Program.ends_of_runWith {P : Protocol O V ε σ}
    {exec : σ → (o : O) → Option (σ × Except ε (V o))}
    (allowed : ∀ s o s' reply, exec s o = some (s', reply) → P.next s o reply s')
    {p : Program O V ε α} {s s' : σ} {r : Except ε α} (ran : p.runWith exec s = some (s', r)) :
    p.Ends P s r s' := by
  induction p generalizing s with
  | ret value =>
    cases ran
    exact .ret value s'
  | raise error =>
    cases ran
    exact .raise error s'
  | call o next ih =>
    rw [Program.runWith] at ran
    obtain ⟨⟨s₁, reply⟩, answered, rest⟩ := Option.bind_eq_some_iff.mp ran
    exact .call (allowed s o s₁ reply answered) (ih reply rest)

def Protocol.free : Protocol O V ε Unit where
  permits _ _ := True
  next _ _ _ _ := True

theorem Program.Reaches.post {p : Program O V ε α} {r : Except ε α} {Q : Except ε α → Unit → Prop}
    (reached : p.Reaches r) (h : wp .free p Q ()) : Q r () := by
  induction reached with
  | ret value => exact h
  | raise error => exact h
  | call reply _ ih => exact ih (h.2 reply () trivial)

theorem wp_free_true (p : Program O V ε α) : wp .free p (fun _ _ => True) () := by
  induction p with
  | ret value => trivial
  | raise error => trivial
  | call o next ih => exact ⟨trivial, fun reply _ _ => ih reply⟩

/-- What holds of every outcome holds under a protocol that permits every call. -/
theorem wp_of_free {P : Protocol O V ε σ} (open_ : ∀ s o, P.permits s o) {p : Program O V ε α}
    {Q : Except ε α → Prop} (h : wp .free p (fun r _ => Q r) ()) (s : σ) :
    wp P p (fun r _ => Q r) s := by
  induction p generalizing s with
  | ret value => exact h
  | raise error => exact h
  | call o next ih => exact ⟨open_ s o, fun reply s' _ => ih reply (h.2 reply () trivial) s'⟩

theorem Program.Reaches.of_map {p : Program O V ε α} {f : α → β} {value : β}
    (reached : (p >>= fun a => pure (f a)).Reaches (.ok value)) : ∃ a, value = f a := by
  have wrapped : wp .free (p >>= fun a => pure (f a))
      (fun r _ => ∀ value, r = .ok value → ∃ a, value = f a) () :=
    wp_seq _ (wp_free_true p) (fun a _ _ value same => ⟨a, by cases same; rfl⟩)
      fun error _ _ value same => by cases same
  exact reached.post wrapped value rfl

/-- The program never issues a call of a kind. -/
def Program.Avoids (bad : O → Prop) : Program O V ε α → Prop
  | .ret _ => True
  | .raise _ => True
  | .call o next => ¬bad o ∧ ∀ reply, (next reply).Avoids bad

namespace Program.Avoids
variable {bad : O → Prop}

theorem perform {o : O} (other : ¬bad o) : (Program.perform o : Program O V ε (V o)).Avoids bad := by
  refine ⟨other, fun reply => ?_⟩
  cases reply <;> trivial

theorem lift (r : Except ε α) : (Program.lift r : Program O V ε α).Avoids bad := by
  cases r <;> trivial

theorem fewer {p : Program O V ε α} {worse : O → Prop} (avoids : p.Avoids bad)
    (within : ∀ o, worse o → bad o) : p.Avoids worse := by
  induction p with
  | ret value => trivial
  | raise error => trivial
  | call o next ih => exact ⟨fun is => avoids.1 (within o is), fun reply => ih reply (avoids.2 reply)⟩

theorem bind {p : Program O V ε α} {f : α → Program O V ε β} (first : p.Avoids bad)
    (then_ : ∀ value, (f value).Avoids bad) : (p >>= f).Avoids bad := by
  change (p.bind f).Avoids bad
  induction p with
  | ret value => exact then_ value
  | raise error => trivial
  | call o next ih => exact ⟨first.1, fun reply => ih reply (first.2 reply)⟩

theorem bind_of {p : Program O V ε α} {f : α → Program O V ε β} {R : α → Prop}
    (first : p.Avoids bad)
    (returns : EffectProgram.wp .free p (fun r _ => ∀ value, r = .ok value → R value) ())
    (then_ : ∀ value, R value → (f value).Avoids bad) : (p >>= f).Avoids bad := by
  change (p.bind f).Avoids bad
  induction p with
  | ret value => exact then_ value (returns value rfl)
  | raise error => trivial
  | call o next ih =>
    exact ⟨first.1, fun reply => ih reply (first.2 reply) (returns.2 reply () trivial)⟩

theorem tryCatch {p : Program O V ε α} {handler : ε → Program O V ε α} (first : p.Avoids bad)
    (handled : ∀ error, (handler error).Avoids bad) :
    (MonadExcept.tryCatch p handler).Avoids bad := by
  change (p.tryCatch handler).Avoids bad
  induction p with
  | ret value => trivial
  | raise error => exact handled error
  | call o next ih => exact ⟨first.1, fun reply => ih reply (first.2 reply)⟩

theorem andFinally {p : Program O V ε α} {cleanup : Program O V ε Unit} (first : p.Avoids bad)
    (last : cleanup.Avoids bad) : (p.andFinally cleanup).Avoids bad := by
  induction p with
  | ret value => exact last.bind fun _ => trivial
  | raise error => exact last.bind fun _ => trivial
  | call o next ih => exact ⟨first.1, fun reply => ih reply (first.2 reply)⟩

/-- A state property that every other call keeps. -/
theorem wp {p : Program O V ε α} {P : Protocol O V ε σ} {I : σ → Prop} (avoids : p.Avoids bad)
    (permitted : ∀ s o, I s → ¬bad o → P.permits s o)
    (kept : ∀ s o reply s', I s → ¬bad o → P.next s o reply s' → I s') {s : σ} (h : I s) :
    EffectProgram.wp P p (fun _ s' => I s') s := by
  induction p generalizing s with
  | ret value => exact h
  | raise error => exact h
  | call o next ih =>
    exact ⟨permitted s o h avoids.1, fun reply s' moved =>
      ih reply (avoids.2 reply) (kept s o reply s' h avoids.1 moved)⟩

theorem agree {p : Program O V ε α} (avoids : p.Avoids bad)
    {ρ₁ ρ₂ : Nat → (o : O) → Except ε (V o)} (same : ∀ n o, ¬bad o → ρ₁ n o = ρ₂ n o) (n : Nat) :
    p.under ρ₁ n = p.under ρ₂ n ∧ p.trace ρ₁ n = p.trace ρ₂ n := by
  induction p generalizing n with
  | ret value => exact ⟨rfl, rfl⟩
  | raise error => exact ⟨rfl, rfl⟩
  | call o next ih =>
    simp only [Program.under, Program.trace, same n o avoids.1]
    have later := ih _ (avoids.2 (ρ₂ n o)) (n + 1)
    exact ⟨later.1, congrArg (⟨o, ρ₂ n o⟩ :: ·) later.2⟩

theorem trace {p : Program O V ε α} (avoids : p.Avoids bad) (ρ : Nat → (o : O) → Except ε (V o))
    (n : Nat) : ∀ answered ∈ p.trace ρ n, ¬bad answered.1 := by
  induction p generalizing n with
  | ret value => nofun
  | raise error => nofun
  | call o next ih =>
    rintro answered (_ | ⟨_, later⟩)
    · exact avoids.1
    · exact ih _ (avoids.2 _) (n + 1) answered later

end Program.Avoids
end Outcomes

end EffectProgram

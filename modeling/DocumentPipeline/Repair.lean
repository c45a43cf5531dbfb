import DocumentPipeline.OpenaiProvider

/-! One repair round against the SDK. The SDK's `parse` validates message
content itself and raises where it does not validate, so a malformed answer
never reaches the repair; every other unusable answer does. -/

namespace DocumentPipeline.OpenaiProvider
open EffectProgram Prompts

/-- The one choice a response has, if any. -/
inductive Answer
  | content (text : String) (nonempty : text ≠ "")
  | refusal (text : String) (nonempty : text ≠ "")
  | empty
  | noChoices

structure ModelResponse where
  answer : Answer
  usage : Option Usage := none

namespace ModelResponse
variable (pydantic : Pydantic) (response : ModelResponse) (cls : ModelClass)

def valid? : Option (Instance cls) :=
  match response.answer with
  | .content text _ => (pydantic.validateJson cls text).toOption
  | _ => none

def Malformed : Prop :=
  ∃ text nonempty message, response.answer = .content text nonempty ∧
    pydantic.validateJson cls text = .error message

/-- `chat.completions.parse` on a response. -/
def parsed : Except Exn (Except SdkError Completion) :=
  match response.answer with
  | .content text _ => match pydantic.validateJson cls text with
    | .error message => .error (.other "ValidationError" message)
    | .ok value => .ok (.ok { choices := [{ content := some text, parsed := some (.model cls value) }]
                              usage := response.usage })
  | .refusal text _ => .ok (.ok { choices := [{ refusal := some text }], usage := response.usage })
  | .empty => .ok (.ok { choices := [{}], usage := response.usage })
  | .noChoices => .ok (.ok { choices := [], usage := response.usage })

variable {pydantic response cls}

theorem not_malformed_of_valid {value : Instance cls} (valid : response.valid? pydantic cls = some value) :
    ¬response.Malformed pydantic cls := by
  rintro ⟨text, nonempty, message, is, invalid⟩
  simp [valid?, is, invalid, Except.toOption] at valid

/-- The SDK raises on malformed content only; what it returns otherwise is read
back as the record the response holds. -/
theorem parsed_cases (pydantic : Pydantic) (response : ModelResponse) (cls : ModelClass) :
    (response.Malformed pydantic cls ∧
      ∃ message, response.parsed pydantic cls = .error (.other "ValidationError" message)) ∨
    (¬response.Malformed pydantic cls ∧
      ∃ completion, response.parsed pydantic cls = .ok (.ok completion) ∧
        completion.usage = response.usage ∧
        parsedModel pydantic completion cls = response.valid? pydantic cls) := by
  obtain ⟨answer, usage⟩ := response
  cases answer with
  | content text nonempty =>
    cases validated : pydantic.validateJson cls text with
    | error message =>
      exact .inl ⟨⟨text, nonempty, message, rfl, validated⟩, message, by simp only [parsed, validated]⟩
    | ok value =>
      have valid : valid? pydantic ⟨.content text nonempty, usage⟩ cls = some value := by
        simp only [valid?, validated, Except.toOption]
      refine .inr ⟨not_malformed_of_valid valid, _, by simp only [parsed, validated]; rfl, rfl, ?_⟩
      rw [valid]
      simp [parsedModel, truthy]
  | refusal text nonempty =>
    refine .inr ⟨?_, _, rfl, rfl, ?_⟩
    · rintro ⟨_, _, _, is, -⟩
      cases is
    · simp [parsedModel, truthy, nonempty, valid?]
  | empty =>
    refine .inr ⟨?_, _, rfl, rfl, ?_⟩
    · rintro ⟨_, _, _, is, -⟩
      cases is
    · simp [parsedModel, truthy, valid?]
  | noChoices =>
    refine .inr ⟨?_, _, rfl, rfl, ?_⟩
    · rintro ⟨_, _, _, is, -⟩
      cases is
    · rfl

end ModelResponse

/-- The model behind the SDK: one response to the first request and one to every
later one. The state counts the requests. -/
def sdk (pydantic : Pydantic) (first second : ModelResponse) (sent : Nat) :
    (o : ProviderOp) → Option (Nat × Except Exn o.Val)
  | .parse _ cls => some (sent + 1, (if sent = 0 then first else second).parsed pydantic cls)
  | .maybeFail => none

section Complete
variable {σ α : Type} {exec : σ → (o : ProviderOp) → Option (σ × Except Exn o.Val)}

def resume (exec : σ → (o : ProviderOp) → Option (σ × Except Exn o.Val)) (operation : String)
    (next : Completion → ProviderProg α) (s : σ) :
    Except Exn (Except SdkError Completion) → Option (σ × Except Exn α)
  | .ok (.ok completion) => (next completion).runWith exec s
  | .ok (.error fault) => some (s, .error (fault.exn operation))
  | .error error => some (s, .error error)

theorem complete_runWith {messages : List ChatMessage} {cls : ModelClass} {operation : String}
    {s s' : σ} {reply : Except Exn (Except SdkError Completion)} {next : Completion → ProviderProg α}
    (answered : exec s (.parse messages cls) = some (s', reply)) :
    (complete messages cls operation >>= next).runWith exec s =
      resume exec operation next s' reply := by
  have called : (complete messages cls operation >>= next).runWith exec s =
      (exec s (.parse messages cls)).bind _ := rfl
  rw [called, answered]
  obtain error | (fault | completion) := reply <;> rfl

end Complete

/-- One request for a valid response, exactly one more for an unusable one, and
`invalid` when the second is unusable too. -/
structure RepairsOnce {α : Type} (pydantic : Pydantic) (cls : ModelClass)
    (output : Instance cls × Option Usage → α) (invalid : AppError) (first second : ModelResponse)
    (run : Nat × Except Exn α) : Prop where
  valid : ∀ record, first.valid? pydantic cls = some record →
    run = (1, .ok (output (record, first.usage)))
  repaired : first.valid? pydantic cls = none → ∀ record, second.valid? pydantic cls = some record →
    run = (2, .ok (output (record, second.usage)))
  exhausted : first.valid? pydantic cls = none → second.valid? pydantic cls = none →
    run = (2, .error (.app invalid))
  requests : run.1 ≤ 2
  typed : ∀ error, run.2 = .error error → ∃ raised, error = .app raised

/-- No malformed response is reached. -/
def WellFormed (pydantic : Pydantic) (cls : ModelClass) (first second : ModelResponse) : Prop :=
  ¬first.Malformed pydantic cls ∧
    ((first.valid? pydantic cls).isSome = true ∨ ¬second.Malformed pydantic cls)

section Runs
variable {pydantic : Pydantic} {model : String} {cls : ModelClass} {first second : ModelResponse}

theorem parse_repairs {α : Type} (output : Instance cls × Option Usage → α)
    (messages : List ChatMessage) (operation : String) : ∃ run,
      (parse pydantic model messages cls operation >>= fun answer => pure (output answer)).runWith
          (sdk pydantic first second) 0 = some run ∧
        (RepairsOnce pydantic cls output (responseInvalid model operation) first second run ↔
          WellFormed pydantic cls first second) := by
  rw [parse, Program.bind_assoc, complete_runWith (show sdk pydantic first second 0
    (.parse messages cls) = some (1, first.parsed pydantic cls) from rfl)]
  obtain ⟨malformed, message, raised⟩ | ⟨proper, completion, read, usage, record⟩ :=
    first.parsed_cases pydantic cls
  · rw [raised]
    refine ⟨_, rfl, fun once => ?_, fun wellFormed => absurd malformed wellFormed.1⟩
    -- the error of the SDK is none of the three outcomes
    cases firstValid : first.valid? pydantic cls with
    | some value => cases once.valid value firstValid
    | none => cases secondValid : second.valid? pydantic cls with
      | some value => cases once.repaired firstValid value secondValid
      | none => cases once.exhausted firstValid secondValid
  · simp only [read, resume, record]
    cases firstValid : first.valid? pydantic cls with
    | some value =>
      refine ⟨_, rfl, fun _ => ⟨proper, .inl (by rw [firstValid]; rfl)⟩,
        fun _ => ⟨?_, ?_, ?_, Nat.le_succ 1, nofun⟩⟩
      · intro _ valid
        cases firstValid.symm.trans valid
        rw [usage]
      · exact fun invalid => by cases firstValid.symm.trans invalid
      · exact fun invalid => by cases firstValid.symm.trans invalid
    | none =>
      rw [Program.bind_assoc,
        complete_runWith (show sdk pydantic first second 1
          (.parse (repairMessages messages completion) cls) = some (2, second.parsed pydantic cls) from rfl)]
      obtain ⟨malformed, message, raised⟩ | ⟨proper', completion', read', usage', record'⟩ :=
        second.parsed_cases pydantic cls
      · rw [raised]
        refine ⟨_, rfl, fun once => ?_, fun wellFormed => ?_⟩
        · cases secondValid : second.valid? pydantic cls with
          | some value => cases once.repaired firstValid value secondValid
          | none => cases once.exhausted firstValid secondValid
        · obtain isValid | proper' := wellFormed.2
          · simp [firstValid] at isValid
          · exact absurd malformed proper'
      · simp only [read', resume, record']
        cases secondValid : second.valid? pydantic cls with
        | some value =>
          refine ⟨_, rfl, fun _ => ⟨proper, .inr proper'⟩, fun _ => ⟨?_, ?_, ?_, le_refl 2, nofun⟩⟩
          · exact fun _ valid => by cases firstValid.symm.trans valid
          · intro _ _ valid
            cases secondValid.symm.trans valid
            rw [usage']
          · exact fun _ invalid => by cases secondValid.symm.trans invalid
        | none =>
          refine ⟨_, rfl, fun _ => ⟨proper, .inr proper'⟩, fun _ => ⟨?_, ?_, ?_, le_refl 2, ?_⟩⟩
          · exact fun _ valid => by cases firstValid.symm.trans valid
          · exact fun _ _ valid => by cases secondValid.symm.trans valid
          · exact fun _ _ => rfl
          · exact fun _ raised => ⟨_, by cases raised; rfl⟩

end Runs

/-- Both operations repair once exactly when no malformed response is reached. -/
theorem repairs_once_iff (pydantic : Pydantic) (model : String) (first second : ModelResponse) :
    (∀ text, ∃ run,
      (classify pydantic model text).runWith (sdk pydantic first second) 0 = some run ∧
        (RepairsOnce pydantic .documentClassification classificationOutput
            (responseInvalid model "classify") first second run ↔
          WellFormed pydantic .documentClassification first second)) ∧
    ∀ text documentType, ∃ run,
      (extract pydantic model text documentType).runWith (sdk pydantic first second) 0 = some run ∧
        (RepairsOnce pydantic (schemaRegistry documentType) (extractionOutput model documentType)
            (responseInvalid model "extract") first second run ↔
          WellFormed pydantic (schemaRegistry documentType) first second) :=
  ⟨fun _ => parse_repairs _ _ _, fun _ _ => parse_repairs _ _ _⟩

def samplePydantic : Pydantic where
  validate _ _ := .error "Input should be a valid dictionary"
  validateJson cls text := match cls with
    | .documentClassification =>
      if text = "valid" then
        .ok ⟨.obj [("document_type", .str "generic"), ("confidence_score", .num 1)], by decide +kernel⟩
      else .error "Invalid JSON"
    | _ => .error "Invalid JSON"

/-- A malformed first answer is not repaired, although the second is valid. -/
theorem repair_skipped : ¬∃ run, (classify samplePydantic "m" []).runWith
    (sdk samplePydantic ⟨.content "\x7b" (by decide), none⟩ ⟨.content "valid" (by decide), none⟩) 0 =
      some run ∧ RepairsOnce samplePydantic .documentClassification classificationOutput
        (responseInvalid "m" "classify") ⟨.content "\x7b" (by decide), none⟩
        ⟨.content "valid" (by decide), none⟩ run := by
  rintro ⟨run, ran, once⟩
  have repaired := once.repaired (by decide +kernel) _ rfl
  rw [repaired] at ran
  cases ran

end DocumentPipeline.OpenaiProvider

import DocumentPipeline.OpenaiProvider
import DocumentPipeline.Lib.PyText

/-! The deterministic in-process provider. Its payloads pass through the same
schemas as the answers of the real one. -/

namespace DocumentPipeline.FakeProvider
open EffectProgram PyText

variable (pydantic : Pydantic) (lower : Text → Text)

def promptVersion : String := "fake-v1"

/-- `_maybe_fail`. -/
def maybeFail : ProviderProg Unit := Program.perform ProviderOp.maybeFail

def typeHints : List (DocumentType × List String) :=
  [(.invoice, ["invoice", "vendor", "amount due", "subtotal"]),
    (.resume, ["resume", "curriculum vitae", "work experience", "education"]),
    (.supportTicket, ["ticket", "support request", "customer reported"])]

def guessType (text : Text) : DocumentType :=
  let hinted := typeHints.find? fun entry =>
    entry.2.any fun hint => (find hint.toList (lower text)).isSome
  (hinted.map (·.1)).getD .generic

def indexError : Exn := .other "IndexError" "list index out of range"

/-- `_find_after`: nothing after the marker leaves no line to take. -/
def findAfter (text : Text) (marker : String) : Except Exn (Option String) :=
  match find (lower marker.toList) (lower text) with
  | none => .ok none
  | some index => match firstLine (text.drop (index + marker.length)) with
    | none => .error indexError
    | some line => .ok (if strip line = [] then none else some (String.ofList (strip line)))

/-- `" ".join(text.split())[:200] or None`. -/
def snippet (text : Text) : Json :=
  let joined := ((words text).intersperse [' ']).flatten.take 200
  if joined = [] then .null else .str (String.ofList joined)

/-- The dates are `date` objects; they are given as their ISO text. -/
def fakePayload (documentType : DocumentType) (text : Text) : Except Exn Json :=
  match documentType with
  | .invoice => do
    let vendor ← findAfter lower text "vendor:"
    return .obj [("vendor_name", .str (vendor.getD "Example Vendor")),
      ("invoice_number", .str "INV-1001"), ("invoice_date", .str "2026-01-15"),
      ("due_date", .str "2026-02-15"), ("currency", .str "USD"), ("subtotal", .num 100),
      ("tax", .num 8), ("total", .num 108),
      ("line_items", .arr [.obj [("description", .str "Professional services"),
        ("quantity", .num 1), ("unit_price", .num 100), ("amount", .num 100)]]),
      ("confidence_score", .num (3 / 4))]
  | .resume => .ok (.obj [("candidate_name", .str "Alex Example"), ("email", .str "alex@example.com"),
      ("phone", .null), ("location", .null), ("summary", snippet text),
      ("skills", .arr [.str "python", .str "sql"]),
      ("education", .arr [.obj [("institution", .str "Example University"), ("degree", .str "BSc"),
        ("field_of_study", .str "Computer Science"), ("start_date", .str "2018"),
        ("end_date", .str "2022")]]),
      ("experience", .arr [.obj [("company", .str "Example Corp"), ("title", .str "Engineer"),
        ("start_date", .str "2022"), ("end_date", .null), ("description", snippet text)]]),
      ("total_years_of_experience", .num 3), ("confidence_score", .num (3 / 4))])
  | .supportTicket => .ok (.obj [("subject", snippet text), ("customer_name", .str "Casey Customer"),
      ("customer_email", .str "casey@example.com"), ("category", .str "billing"),
      ("priority", .str "medium"), ("summary", snippet text),
      ("requested_action", .str "Investigate and reply"), ("sentiment", .str "neutral"),
      ("confidence_score", .num (3 / 4))])
  | .generic => .ok (.obj [("title", snippet text), ("document_type", .str "memo"),
      ("summary", snippet text), ("key_entities", .arr [.str "Example Org"]),
      ("important_dates", .arr []), ("action_items", .arr []), ("confidence_score", .num (3 / 4))])

def classify (text : Text) : ProviderProg ClassificationOutput := do
  maybeFail
  return { documentType := guessType lower text, confidenceScore := some (9 / 10) }

def extract (text : Text) (documentType : DocumentType) : ProviderProg ExtractionOutput := do
  maybeFail
  let payload ← Program.lift (fakePayload lower documentType text)
  match pydantic.validate (schemaRegistry documentType) (.value payload) with
  | .error message => throw (.other "ValidationError" message)
  | .ok answer =>
    return { documentType, data := answer.data, modelProvider := "fake"
             modelName := "fake-extractor-1", promptVersion
             inputTokens := some ((text.length : Int) / 4), outputTokens := some 32
             confidenceScore := answer.data.score? }

end DocumentPipeline.FakeProvider

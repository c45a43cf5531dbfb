import DocumentPipeline.Records

/-! The typed schemas of the model's answers. A model instance is kept as its
JSON dump together with the proof that the dump fits the schema, so that an
invalid instance cannot be built. -/

namespace DocumentPipeline

def DocumentType.value : DocumentType → String
  | .invoice => "invoice"
  | .resume => "resume"
  | .supportTicket => "support_ticket"
  | .generic => "generic"

def DocumentType.ofValue (value : String) : Option DocumentType :=
  [DocumentType.invoice, .resume, .supportTicket, .generic].find? (·.value = value)

def Json.field? (name : String) : Json → Option Json
  | .obj fields => fields.lookup name
  | _ => none

/-- `T | None` for the scalar types that occur. -/
inductive ScalarType
  | str | float | date
  deriving DecidableEq

/-- `entries` is a list of nested models, `score` is `Field(ge=0.0, le=1.0)`. -/
inductive FieldType
  | nullable (type : ScalarType)
  | texts
  | entries (fields : List (String × ScalarType))
  | documentType
  | score

def daysInMonth (year month : Nat) : Nat :=
  if month = 2 then if year % 4 = 0 ∧ (year % 100 ≠ 0 ∨ year % 400 = 0) then 29 else 28
  else if month ∈ [4, 6, 9, 11] then 30 else 31

def decimal (digits : List Char) : Nat := digits.foldl (fun n c => 10 * n + (c.toNat - 48)) 0

/-- `date.isoformat()`. -/
def isIsoDate (text : String) : Bool :=
  match text.toList with
  | [y₁, y₂, y₃, y₄, '-', m₁, m₂, '-', d₁, d₂] =>
    let year := decimal [y₁, y₂, y₃, y₄]
    let month := decimal [m₁, m₂]
    let day := decimal [d₁, d₂]
    [y₁, y₂, y₃, y₄, m₁, m₂, d₁, d₂].all Char.isDigit && 1 ≤ year && 1 ≤ month && month ≤ 12 &&
      1 ≤ day && day ≤ daysInMonth year month
  | _ => false

example : isIsoDate "2024-02-29" = true ∧ isIsoDate "2026-02-29" = false := by decide +kernel

def ScalarType.fits : ScalarType → Json → Bool
  | _, .null => true
  | .str, .str _ => true
  | .float, .num _ => true
  | .date, .str text => isIsoDate text
  | _, _ => false

/-- Every declared field is present and of its type. -/
def fieldsFit {T : Type} (fits : T → Json → Bool) (fields : List (String × T)) (data : Json) : Bool :=
  fields.all fun field => (data.field? field.1).any (fits field.2)

def FieldType.fits : FieldType → Json → Bool
  | .nullable type, data => type.fits data
  | .texts, .arr items => items.all (· matches .str _)
  | .entries fields, .arr items => items.all (fieldsFit ScalarType.fits fields)
  | .documentType, .str value => (DocumentType.ofValue value).isSome
  | .score, .num value => 0 ≤ value && value ≤ 1
  | _, _ => false

/-- The classes of `app.schemas.extraction` that are asked of the model. -/
inductive ModelClass
  | documentClassification
  | invoiceExtraction
  | resumeExtraction
  | supportTicketExtraction
  | genericDocumentExtraction
  deriving DecidableEq

def invoiceLineItem : List (String × ScalarType) :=
  [("description", .str), ("quantity", .float), ("unit_price", .float), ("amount", .float)]

def educationEntry : List (String × ScalarType) :=
  [("institution", .str), ("degree", .str), ("field_of_study", .str), ("start_date", .str),
    ("end_date", .str)]

def experienceEntry : List (String × ScalarType) :=
  [("company", .str), ("title", .str), ("start_date", .str), ("end_date", .str),
    ("description", .str)]

def ModelClass.fields : ModelClass → List (String × FieldType)
  | .documentClassification => [("document_type", .documentType), ("confidence_score", .score)]
  | .invoiceExtraction =>
    [("vendor_name", .nullable .str), ("invoice_number", .nullable .str),
      ("invoice_date", .nullable .date), ("due_date", .nullable .date), ("currency", .nullable .str),
      ("subtotal", .nullable .float), ("tax", .nullable .float), ("total", .nullable .float),
      ("line_items", .entries invoiceLineItem), ("confidence_score", .score)]
  | .resumeExtraction =>
    [("candidate_name", .nullable .str), ("email", .nullable .str), ("phone", .nullable .str),
      ("location", .nullable .str), ("summary", .nullable .str), ("skills", .texts),
      ("education", .entries educationEntry), ("experience", .entries experienceEntry),
      ("total_years_of_experience", .nullable .float), ("confidence_score", .score)]
  | .supportTicketExtraction =>
    [("subject", .nullable .str), ("customer_name", .nullable .str),
      ("customer_email", .nullable .str), ("category", .nullable .str), ("priority", .nullable .str),
      ("summary", .nullable .str), ("requested_action", .nullable .str),
      ("sentiment", .nullable .str), ("confidence_score", .score)]
  | .genericDocumentExtraction =>
    [("title", .nullable .str), ("document_type", .nullable .str), ("summary", .nullable .str),
      ("key_entities", .texts), ("important_dates", .texts), ("action_items", .texts),
      ("confidence_score", .score)]

def schemaRegistry : DocumentType → ModelClass
  | .invoice => .invoiceExtraction
  | .resume => .resumeExtraction
  | .supportTicket => .supportTicketExtraction
  | .generic => .genericDocumentExtraction

def ModelClass.Validates (cls : ModelClass) (data : Json) : Prop :=
  fieldsFit FieldType.fits cls.fields data = true

instance (cls : ModelClass) (data : Json) : Decidable (cls.Validates data) :=
  inferInstanceAs (Decidable (_ = true))

structure Instance (cls : ModelClass) where
  data : Json
  validates : cls.Validates data

theorem ModelClass.Validates.field {cls : ModelClass} {data : Json} (h : cls.Validates data)
    {name : String} {type : FieldType} (declared : (name, type) ∈ cls.fields) :
    ∃ value, data.field? name = some value ∧ type.fits value = true := by
  have fits := List.all_eq_true.mp h (name, type) declared
  cases found : data.field? name with
  | none => simp [found] at fits
  | some value => exact ⟨value, rfl, by simpa [found] using fits⟩

theorem FieldType.fits_score {data : Json} (h : score.fits data = true) :
    ∃ value, data = .num value ∧ 0 ≤ value ∧ value ≤ 1 := by
  cases data <;> first | cases h | skip
  rename_i value
  simp only [fits, Bool.and_eq_true, decide_eq_true_eq] at h
  exact ⟨value, rfl, h⟩

theorem ModelClass.score_mem (cls : ModelClass) : ("confidence_score", FieldType.score) ∈ cls.fields := by
  cases cls <;> simp [fields]

/-- `float(confidence) if isinstance(confidence, (int, float)) else None`. -/
def Json.score? (data : Json) : Option ℚ :=
  match data.field? "confidence_score" with
  | some (.num value) => some value
  | some (.bool value) => some (if value then 1 else 0)
  | _ => none

theorem ModelClass.Validates.score {cls : ModelClass} {data : Json} (h : cls.Validates data) :
    ∃ score, data.score? = some score ∧ 0 ≤ score ∧ score ≤ 1 := by
  obtain ⟨value, found, fits⟩ := h.field cls.score_mem
  obtain ⟨score, rfl, bounds⟩ := FieldType.fits_score fits
  exact ⟨score, by rw [Json.score?, found], bounds⟩

/-- The attribute of a `DocumentClassification`; the default is never taken. -/
def Instance.documentType (result : Instance .documentClassification) : DocumentType :=
  match result.data.field? "document_type" with
  | some (.str value) => (DocumentType.ofValue value).getD .generic
  | _ => .generic

end DocumentPipeline

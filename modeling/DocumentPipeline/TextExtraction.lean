import DocumentPipeline.Core
import DocumentPipeline.Lib.PyText

/-! Turning uploaded bytes into plain text. The PDF and DOCX parsers are the
interface; an exception of a class that the extractor names is translated, any
other leaves `extract_text` as it is. -/

namespace DocumentPipeline.TextExtraction
open PyText

/-- An exception of a class the extractor names, or any other. -/
inductive ParserFault
  | named
  | other (typeName text : String)

structure DocxDocument where
  paragraphs : List Text
  /-- Tables, their rows, and the cells of a row. -/
  tables : List (List (List Text))

structure Parsers where
  pdfPages : Bytes → Except ParserFault (List Text)
  docx : Bytes → Except ParserFault DocxDocument

def textExtraction (message : String) (details : List (String × String)) : AppError :=
  { kind := .textExtraction, message, details }

def translate {α : Type} (message format : String) : Except ParserFault α → Except Exn α
  | .ok value => .ok value
  | .error .named => .error (.app (textExtraction message [("format", format)]))
  | .error (.other typeName text) => .error (.other typeName text)

/-- `sep.join(parts)`. -/
def join (sep : Text) (parts : List Text) : Text := (parts.intersperse sep).flatten

def extractPdf (parsers : Parsers) (data : Bytes) : Except Exn Text := do
  let pages ← translate "The PDF could not be parsed." "pdf" (parsers.pdfPages data)
  return join ['\n', '\n'] pages

def extractDocx (parsers : Parsers) (data : Bytes) : Except Exn Text := do
  let document ← translate "The DOCX file could not be parsed." "docx" (parsers.docx data)
  return join ['\n'] (document.paragraphs ++ document.tables.flatten.flatten.filter (· ≠ []))

/-- `data.decode("utf-8-sig")`. -/
def decodeUtf8Sig (data : Bytes) : Option Text :=
  decodeUtf8 (if [0xEF, 0xBB, 0xBF] <+: data then data.drop 3 else data)

/-- The code points of 0x80 to 0x9F; five bytes are undefined. -/
def cp1252High : List (Option Nat) :=
  [some 0x20AC, none, some 0x201A, some 0x192, some 0x201E, some 0x2026, some 0x2020, some 0x2021,
    some 0x2C6, some 0x2030, some 0x160, some 0x2039, some 0x152, none, some 0x17D, none,
    none, some 0x2018, some 0x2019, some 0x201C, some 0x201D, some 0x2022, some 0x2013, some 0x2014,
    some 0x2DC, some 0x2122, some 0x161, some 0x203A, some 0x153, none, some 0x17E, some 0x178]

def cp1252Char (b : UInt8) : Option Char :=
  if 0x80 ≤ b && b ≤ 0x9F then ((cp1252High[b.toNat - 0x80]?).join).map Char.ofNat
  else some (Char.ofNat b.toNat)

def decodeCp1252 (data : Bytes) : Option Text := data.mapM cp1252Char

/-- TEXT_ENCODINGS, in order. -/
def extractTxt (data : Bytes) : Except Exn Text :=
  match decodeUtf8Sig data with
  | some text => .ok text
  | none => match decodeCp1252 data with
    | some text => .ok text
    | none => .error (.app (textExtraction "The text file is not in a supported encoding."
        [("tried", "utf-8-sig, cp1252")]))

/-- `text.replace("\r\n", "\n").replace("\r", "\n")`. -/
def unifyBreaks : Text → Text
  | [] => []
  | '\r' :: '\n' :: rest => '\n' :: unifyBreaks rest
  | '\r' :: rest => '\n' :: unifyBreaks rest
  | c :: rest => c :: unifyBreaks rest

theorem unifyBreaks_noReturn (text : Text) : '\r' ∉ unifyBreaks text := by
  fun_induction unifyBreaks text with
  | case1 => exact List.not_mem_nil
  | case2 rest ih => simpa using ih
  | case3 rest _ ih => simpa using ih
  | case4 c rest _ other ih =>
    intro among
    obtain same | later := List.mem_cons.mp among
    · exact other same.symm
    · exact ih later

def rstrip (text : Text) : Text := (text.reverse.dropWhile isSpace).reverse

/-- Keep the first line of every run of blank ones. -/
def collapseBlank (blankRun : Nat) : List Text → List Text
  | [] => []
  | line :: rest =>
    if line ≠ [] then line :: collapseBlank 0 rest
    else if blankRun = 0 then [] :: collapseBlank 1 rest
    else collapseBlank (blankRun + 1) rest

theorem collapseBlank_subset (blankRun : Nat) (lines : List Text) : collapseBlank blankRun lines ⊆ lines := by
  induction lines generalizing blankRun with
  | nil => exact List.Subset.refl _
  | cons line rest ih =>
    simp only [collapseBlank]
    split
    · exact List.cons_subset_cons _ (ih 0)
    · rename_i blank
      rw [not_not] at blank
      subst blank
      split
      · exact List.cons_subset_cons _ (ih 1)
      · exact fun other among => List.mem_cons_of_mem _ (ih _ among)

def normalise (text : Text) : Text :=
  strip (join ['\n'] (collapseBlank 0 (((unifyBreaks text).splitOn '\n').map rstrip)))

def extractor (parsers : Parsers) (extension : Text) : Option (Bytes → Except Exn Text) :=
  if extension = ".pdf".toList then some (extractPdf parsers)
  else if extension = ".docx".toList then some (extractDocx parsers)
  else if extension = ".txt".toList then some extractTxt
  else none

def emptyDocument (extension : String) : Exn :=
  .app { kind := .emptyDocument
         message := "The document contains no extractable text. Scanned or image-only documents " ++
           "require OCR, which this pipeline does not perform."
         details := [("extension", extension)] }

def extractText (parsers : Parsers) (lower : Text → Text) (data : Bytes) (extension : String) :
    Except Exn Text :=
  match extractor parsers (lower extension.toList) with
  | none => .error (.app { kind := .unsupportedFileType
                           message := s!"No text extractor is registered for {extension}."
                           details := [("extension", extension)] })
  | some extract => do
    let text := normalise (← extract data)
    if text = [] then throw (emptyDocument extension) else return text

theorem translate_app {α : Type} {message format : String} {r : Except ParserFault α}
    {raised : AppError} (h : translate message format r = .error (.app raised)) :
    raised = textExtraction message [("format", format)] := by
  cases r with
  | ok value => cases h
  | error fault =>
    cases fault with
    | named => exact (Exn.app.inj (Except.error.inj h)).symm
    | other typeName text => cases h

theorem extractor_app {parsers : Parsers} {extension : Text} {extract : Bytes → Except Exn Text}
    (registered : extractor parsers extension = some extract) : ∃ error : AppError,
      error.kind = .textExtraction ∧
        ∀ data raised, extract data = .error (.app raised) → raised = error := by
  simp only [extractor] at registered
  split at registered
  · cases registered
    refine ⟨textExtraction "The PDF could not be parsed." [("format", "pdf")], rfl,
      fun data raised failed => ?_⟩
    simp only [extractPdf] at failed
    cases parsed : translate "The PDF could not be parsed." "pdf" (parsers.pdfPages data) with
    | ok pages => rw [parsed] at failed; cases failed
    | error error =>
      rw [parsed] at failed
      cases failed
      exact translate_app parsed
  · split at registered
    · cases registered
      refine ⟨textExtraction "The DOCX file could not be parsed." [("format", "docx")], rfl,
        fun data raised failed => ?_⟩
      simp only [extractDocx] at failed
      cases parsed : translate "The DOCX file could not be parsed." "docx" (parsers.docx data) with
      | ok document => rw [parsed] at failed; cases failed
      | error error =>
        rw [parsed] at failed
        cases failed
        exact translate_app parsed
    · split at registered
      · cases registered
        refine ⟨textExtraction "The text file is not in a supported encoding."
          [("tried", "utf-8-sig, cp1252")], rfl, fun data raised failed => ?_⟩
        simp only [extractTxt] at failed
        split at failed
        · cases failed
        · split at failed
          · cases failed
          · exact (Exn.app.inj (Except.error.inj failed)).symm
      · cases registered

theorem extractText_app {parsers : Parsers} {lower : Text → Text} {data₁ data₂ : Bytes}
    {extension : String} {raised₁ raised₂ : AppError}
    (first : extractText parsers lower data₁ extension = .error (.app raised₁))
    (second : extractText parsers lower data₂ extension = .error (.app raised₂))
    (same : raised₁.kind = raised₂.kind) : raised₁ = raised₂ := by
  simp only [extractText] at first second
  cases registered : extractor parsers (lower extension.toList) with
  | none =>
    rw [registered] at first second
    exact Exn.app.inj (Except.error.inj (first.symm.trans second))
  | some extract =>
    rw [registered] at first second
    obtain ⟨error, kind, only⟩ := extractor_app registered
    have cases_ : ∀ data raised, (do
        let text := normalise (← extract data)
        if text = [] then throw (emptyDocument extension) else return text) =
          (.error (.app raised) : Except Exn Text) →
        raised = error ∨ Exn.app raised = emptyDocument extension := by
      intro data raised failed
      cases extracted : extract data with
      | error raised' =>
        rw [extracted] at failed
        cases failed
        exact .inl (only data raised extracted)
      | ok text =>
        rw [extracted] at failed
        simp only [bind, Except.bind] at failed
        split at failed
        · exact .inr (Except.error.inj failed).symm
        · cases failed
    obtain rfl | empty₁ := cases_ data₁ raised₁ first
    · obtain rfl | empty₂ := cases_ data₂ raised₂ second
      · rfl
      · rw [kind, congrArg AppError.kind (Exn.app.inj empty₂)] at same
        cases same
    · obtain rfl | empty₂ := cases_ data₂ raised₂ second
      · rw [kind, congrArg AppError.kind (Exn.app.inj empty₁)] at same
        cases same
      · exact Exn.app.inj (empty₁.trans empty₂.symm)

example : normalise "a  \r\n\r\n\n\nb\r".toList = "a\n\nb".toList := by decide

end DocumentPipeline.TextExtraction

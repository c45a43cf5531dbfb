import DocumentPipeline.FileStorage
import DocumentPipeline.Lib.PyText

/-! Upload validation: filename sanitization, extension, declared type, size and
leading bytes, in the order `validate_upload` runs them. -/

namespace DocumentPipeline.FileValidation
open PyText

/-- What Python's Unicode tables and number formatting answer. -/
structure Unicode where
  nfkd : Text → Text
  lower : Text → Text
  repr : Text → String
  megabytes : Int → String
  lower_eq_nil : ∀ text, lower text = [] → text = []

structure UploadSettings where
  maxUploadBytes : Int := 10 * 1024 * 1024
  allowedUploadExtensions : Text := ".pdf,.txt,.docx".toList

/-- `settings.allowed_extensions`: trimmed, lower-cased and dot-prefixed. -/
def UploadSettings.allowedExtensions (settings : UploadSettings) (unicode : Unicode) : List Text :=
  (((settings.allowedUploadExtensions.splitOn ',').map strip).filter (· ≠ [])).map fun ext =>
    if ext.head? = some '.' then unicode.lower ext else '.' :: unicode.lower ext

def extensionContentTypes (extension : Text) : List Text :=
  if extension = ".pdf".toList then ["application/pdf".toList, "application/x-pdf".toList]
  else if extension = ".txt".toList then
    ["text/markdown".toList, "text/plain".toList, "text/x-log".toList]
  else if extension = ".docx".toList then
    ["application/vnd.openxmlformats-officedocument.wordprocessingml.document".toList,
      "application/zip".toList]
  else []

def genericContentTypes : List Text := ["application/octet-stream".toList, []]

/-- `%PDF-` and `PK\x03\x04`. -/
def magicPrefixes (extension : Text) : Option Bytes :=
  if extension = ".pdf".toList then some [0x25, 0x50, 0x44, 0x46, 0x2D]
  else if extension = ".docx".toList then some [0x50, 0x4B, 0x03, 0x04]
  else none

def maxFilenameLength : Nat := 200

def fallbackFilename : Text := "document".toList

/-- `[A-Za-z0-9._ -]`. -/
def isSafeChar (c : Char) : Bool := c.isAlphanum || c ∈ ['.', '_', ' ', '-']

def isSeparator (c : Char) : Bool := c ∈ ['-', '_', ' ']

/-- A run of separators, newest first, as `[-_ ]{2,}` leaves it. -/
def separatorRun (run : Text) : Text := if run.length < 2 then run else ['_']

/-- `_REPEATED_SEPARATORS.sub("_", name)`, with the separators read so far. -/
def collapseSeparators (run : Text) : Text → Text
  | [] => separatorRun run
  | c :: rest =>
    if isSeparator c then collapseSeparators (c :: run) rest
    else separatorRun run ++ c :: collapseSeparators [] rest

def cleanFilename (unicode : Unicode) (filename : Text) : Text :=
  let name := windowsName (posixName filename)
  let name := (unicode.nfkd name).filter fun c => c.toNat < 128
  let name := name.map fun c => if isSafeChar c then c else '_'
  collapseSeparators [] (stripBy (· ∈ [' ', '.', '_']) name)

def shortenFilename (name : Text) : Text :=
  if name.length > maxFilenameLength then
    let (stem, extension) := rpartition '.' name
    if stem ≠ [] ∧ extension.length ≤ 10 then
      stem.take (maxFilenameLength - extension.length - 1) ++ '.' :: extension
    else name.take maxFilenameLength
  else name

def sanitizeFilename (unicode : Unicode) (filename : Option Text) : Text :=
  match filename with
  | none | some [] => fallbackFilename
  | some filename =>
    let name := cleanFilename unicode filename
    if name = [] then fallbackFilename else shortenFilename name

def extractExtension (unicode : Unicode) (filename : Text) : Text :=
  unicode.lower (FileStorage.suffix (String.ofList filename)).toList

def unsupportedFileType (message : String) (details : List (String × String)) : Exn :=
  .app { kind := .unsupportedFileType, message, details }

def fileTooLarge (unicode : Unicode) (settings : UploadSettings) (details : List (String × String)) :
    Exn :=
  .app { kind := .fileTooLarge
         message := s!"The file exceeds the {unicode.megabytes settings.maxUploadBytes} MB limit."
         details }

/-- `sorted(names)`, as it is shown in the details of an error. -/
def listing (names : List Text) : String :=
  ", ".intercalate ((names.dedup.map String.ofList).mergeSort)

section Checks
variable (unicode : Unicode) (settings : UploadSettings)

def validateExtension (filename : Text) : Except Exn Text :=
  let extension := extractExtension unicode filename
  let allowed := settings.allowedExtensions unicode
  if extension = [] then
    .error (unsupportedFileType "The uploaded file has no extension." [("allowed", listing allowed)])
  else if extension ∉ allowed then
    .error (unsupportedFileType s!"Files of type {String.ofList extension} are not supported."
      [("extension", String.ofList extension), ("allowed", listing allowed)])
  else .ok extension

def declaredType (contentType : Option Text) : Text :=
  unicode.lower (strip (before ';' (contentType.getD [])))

def validateContentType (extension : Text) (contentType : Option Text) : Except Exn Unit :=
  let declared := declaredType unicode contentType
  if declared ∈ genericContentTypes then .ok ()
  else
    let permitted := extensionContentTypes extension
    if declared ∉ permitted then
      .error (unsupportedFileType
        s!"Content type {unicode.repr declared} does not match the {String.ofList extension} extension."
        [("content_type", String.ofList declared), ("expected", listing permitted)])
    else .ok ()

def validateMagicBytes (extension : Text) (data : Bytes) : Except Exn Unit :=
  if extension = ".txt".toList then
    match decodeUtf8 data with
    | none => .error (unsupportedFileType "The .txt file is not valid UTF-8 text."
        [("extension", String.ofList extension)])
    | some _ => .ok ()
  else match magicPrefixes extension with
    | none => .ok ()
    | some start =>
      if start <+: data then .ok ()
      else .error (unsupportedFileType
        s!"The file content does not look like a valid {String.ofList extension} file."
        [("extension", String.ofList extension)])

def validateSize (size : Int) : Except Exn Unit :=
  if size ≤ 0 then .error (unsupportedFileType "The uploaded file is empty." [])
  else if size > settings.maxUploadBytes then
    .error (fileTooLarge unicode settings
      [("size_bytes", toString size), ("max_bytes", toString settings.maxUploadBytes)])
  else .ok ()

/-- The sanitized filename and the extension of an accepted upload. -/
def validateUpload (filename contentType : Option Text) (data : Bytes) :
    Except Exn (Text × Text) := do
  let safeName := sanitizeFilename unicode filename
  let extension ← validateExtension unicode settings safeName
  validateContentType unicode extension contentType
  validateSize unicode settings data.length
  validateMagicBytes extension data
  return (safeName, extension)

/-- `_read_within_limit`: an empty read ends the body. -/
def readWithinLimit (total : Int) : (read chunks : List Bytes) → Except Exn Bytes
  | read, [] => .ok read.flatten
  | read, chunk :: rest =>
    if chunk = [] then .ok read.flatten
    else if total + chunk.length > settings.maxUploadBytes then
      .error (fileTooLarge unicode settings [("max_bytes", toString settings.maxUploadBytes)])
    else readWithinLimit (total + chunk.length) (read ++ [chunk]) rest

/-- Both checks of `upload_document` before it stores anything. -/
def uploadGate (file : UploadFile) : Except Exn ValidatedUpload := do
  let data ← readWithinLimit unicode settings 0 [] file.chunks
  let (filename, extension) ← validateUpload unicode settings (file.filename.map String.toList)
    (file.contentType.map String.toList) data
  return { data, filename := String.ofList filename, extension := String.ofList extension }

end Checks
end DocumentPipeline.FileValidation

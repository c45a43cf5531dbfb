import DocumentPipeline.Operations

/-! Local file storage. Keys are resolved lexically against the root: paths
are segment lists without symlinks. Objects are laid out in `YYYY/MM/DD`. -/

namespace DocumentPipeline.FileStorage
open EffectProgram

/-- Python's `//` on days since the epoch, as the proleptic Gregorian date. -/
def civilDate (days : Int) : Int × Int × Int :=
  let shifted := days + 719468
  let era := shifted / 146097
  let dayOfEra := shifted - era * 146097
  let yearOfEra := (dayOfEra - dayOfEra / 1460 + dayOfEra / 36524 - dayOfEra / 146096) / 365
  let dayOfYear := dayOfEra - (365 * yearOfEra + yearOfEra / 4 - yearOfEra / 100)
  let marchMonth := (5 * dayOfYear + 2) / 153
  let day := dayOfYear - (153 * marchMonth + 2) / 5 + 1
  let month := if marchMonth < 10 then marchMonth + 3 else marchMonth - 9
  (yearOfEra + era * 400 + (if month ≤ 2 then 1 else 0), month, day)

def twoDigits (n : Int) : String := (if n < 10 then "0" else "") ++ toString n

/-- `f"{today:%Y/%m/%d}"`. -/
def dateDirectory (today : Time) : String :=
  let (year, month, day) := civilDate (today / 86400000000)
  s!"{year}/{twoDigits month}/{twoDigits day}"

example : civilDate 20454 = (2026, 1, 1) := by decide

def segments (path : String) : List String := (path.toList.splitOn '/').map String.ofList

def follow (start : List String) (path : List String) : List String :=
  path.foldl (fun here segment =>
    if segment = "" ∨ segment = "." then here
    else if segment = ".." then here.dropLast
    else here ++ [segment]) start

def storagePathError (message storagePath : String) : Exn :=
  .app { kind := .storagePath, message, details := [("storage_path", storagePath)] }

def storageError (message storagePath : String) : Exn :=
  .app { kind := .storage, message, details := [("storage_path", storagePath)] }

/-- Map a storage key to an absolute path, refusing to escape the root. -/
def resolve (root : List String) (storagePath : String) : Except Exn (List String) :=
  let start := if storagePath.toList.head? = some '/' then [] else root
  let candidate := follow start (segments storagePath)
  if root <+: candidate then .ok candidate
  else .error (storagePathError "Resolved storage path lies outside the storage root." storagePath)

def save (env : Env) (data : Bytes) (extension : String) : Prog StoredFile := do
  let uuid ← uuid4
  let storedFilename := uuidText uuid ++ extension
  let today ← utcnow
  let relative := dateDirectory today ++ "/" ++ storedFilename
  let destination ← Program.lift (resolve env.storageRoot relative)
  tryCatch (runtime (.writeBytes destination data)) fun error =>
    if error.isOSError then
      throw (storageError "Failed to write the uploaded file to storage." relative)
    else throw error
  return { storedFilename, storagePath := relative, size := data.length
           checksum := env.sha256Hex data }

def read (env : Env) (storagePath : String) : Prog Bytes := do
  let target ← Program.lift (resolve env.storageRoot storagePath)
  tryCatch (runtime (.readBytes target)) fun error =>
    match error with
    | .fileNotFound _ => throw (storagePathError "The stored file no longer exists." storagePath)
    | error =>
      if error.isOSError then throw (storageError "Failed to read the stored file." storagePath)
      else throw error

/-- `PurePosixPath(path).suffix`. -/
def suffix (path : String) : String :=
  let parts := (path.toList.splitOn '/').filter fun part => part ≠ [] ∧ part ≠ ['.']
  let name := parts.getLast?.getD []
  let tail := (name.reverse.takeWhile (· ≠ '.')).reverse
  if tail ≠ [] ∧ tail.length + 1 < name.length then String.ofList ('.' :: tail) else ""

example : suffix "a1b2.pdf" = ".pdf" ∧ suffix ".pdf" = "" ∧ suffix "a." = "" := by decide +kernel

end DocumentPipeline.FileStorage

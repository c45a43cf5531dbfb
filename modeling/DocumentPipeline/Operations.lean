import DocumentPipeline.Redis
import DocumentPipeline.Lib.Program

/-! The awaited calls of the pipeline: statements and commits of a database
session, Redis commands, and the calls to storage, the language model, the
clock and the random source. Code of the repository is a program over them. -/

namespace DocumentPipeline
open EffectProgram

/-- `enterRun` marks the entry of `_run` in the history and does nothing else. -/
inductive RuntimeOp
  | enterRun
  | utcnow
  | uuid4
  | uniform (low high : ℚ)
  | readBytes (path : List String)
  | writeBytes (path : List String) (data : Bytes)
  | classify (text : Text)
  | extract (text : Text) (documentType : DocumentType)

@[reducible] def RuntimeOp.Val : RuntimeOp → Type
  | .enterRun => Unit
  | .utcnow => Time
  | .uuid4 => Nat
  | .uniform .. => ℚ
  | .readBytes _ => Bytes
  | .writeBytes .. => Unit
  | .classify _ => ClassificationOutput
  | .extract .. => ExtractionOutput

inductive Op
  | db (o : DbOp)
  | redis (o : RedisOp)
  | runtime (o : RuntimeOp)

@[reducible] def Op.Val : Op → Type
  | .db o => o.Val
  | .redis o => o.Val
  | .runtime o => o.Val

abbrev Prog (α : Type) := Program Op Op.Val Exn α

abbrev sql (o : DbOp) : Prog o.Val := Program.perform (Op.db o)

abbrev redis (o : RedisOp) : Prog o.Val := Program.perform (Op.redis o)

abbrev runtime (o : RuntimeOp) : Prog o.Val := Program.perform (Op.runtime o)

/-- `client.command(...)` under `except (RedisError, OSError)`. -/
def redisCommand (o : RedisOp) (message : String) : Prog o.Val :=
  tryCatch (redis o) fun error =>
    if error.isRedisFault then throw (Exn.queueError message) else throw error

def utcnow : Prog Time := runtime .utcnow

def uuid4 : Prog Nat := runtime .uuid4

/-- `uuid.hex`: 32 digits, zeros in front. -/
def uuidHex (uuid : Nat) : List Char := (Nat.toDigits 16 uuid).leftpad 32 '0'

/-- `str(uuid)`: the digits in five groups. -/
def uuidText (uuid : Nat) : String :=
  let hex := uuidHex uuid
  String.ofList (hex.take 8 ++ '-' :: ((hex.drop 8).take 4 ++ '-' :: ((hex.drop 12).take 4 ++
    '-' :: ((hex.drop 16).take 4 ++ '-' :: hex.drop 20))))

example : uuidText (16 ^ 31 + 10) = "10000000-0000-0000-0000-00000000000a" := by decide +kernel

structure UploadFile where
  filename : Option String
  contentType : Option String
  chunks : List Bytes

/-- What the upload gate lets through: the bytes read, the sanitized filename
and the extension. -/
structure ValidatedUpload where
  data : Bytes
  filename : String
  extension : String
  deriving DecidableEq

/-- The deployment: settings, the offset of each process's clock, the storage
root, and the code the results do not depend on. `uploadGate` stands for
`_read_within_limit` followed by `validate_upload`, `extractText` for
`extract_text`; `retryBatch` is the default limit of `pop_due_retries`. -/
structure Env where
  settings : Settings
  skew : Nat → Time
  storageRoot : List String
  sha256Hex : Bytes → String
  uploadGate : UploadFile → Except Exn ValidatedUpload
  extractText : Bytes → String → Except Exn Text
  retryBatch : Nat := 50

end DocumentPipeline

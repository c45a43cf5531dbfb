import DocumentPipeline.Operations

/-! Deciding whether to retry, how long to wait, and what to record. -/

namespace DocumentPipeline.RetryPolicy
open EffectProgram

/-- Every class of RETRYABLE_EXCEPTIONS; all of SQLAlchemy's statement errors
are `DBAPIError`s. -/
def isRetryable : Exn → Bool
  | .app error => error.kind.retryable
  | .dbapi .. | .disconnection _ | .connection _ | .timeout _ => true
  | _ => false

/-- `float(2**exponent)`. -/
def floatOfPowTwo (exponent : Nat) : Except Exn ℚ :=
  if exponent < 1024 then .ok (2 ^ exponent)
  else .error (.overflow "int too large to convert to float")

def computeDelay (attempt : Int) (settings : Settings) : Prog ℚ := do
  let exponent := max 0 attempt
  let factor ← Program.lift (floatOfPowTwo exponent.toNat)
  let raw := settings.retryBaseDelaySeconds * factor
  let capped := min raw settings.retryMaxDelaySeconds
  if settings.retryJitterRatio ≤ 0 then
    return capped
  else do
    let spread := capped * settings.retryJitterRatio
    let drawn ← runtime (.uniform (-spread) spread)
    return max 0 (capped + drawn)

def shouldRetry (error : Exn) (retryCount maxRetries : Int) : Bool :=
  isRetryable error && retryCount < maxRetries

def describe : Exn → String
  | .app error => s!"{error.kind.code}: {error.message}"
  | error => s!"{error.typeName}: {error.text}"

end DocumentPipeline.RetryPolicy

import DocumentPipeline.FileValidation
import DocumentPipeline.System
import DocumentPipeline.Effects

/-! What the upload endpoint lets through. The streaming loop decides on the
size first and the checks of `validate_upload` follow; together they accept by
the bytes alone, and a refused upload issues no call that stores anything. -/

namespace DocumentPipeline
open EffectProgram PyText FileValidation Routes JobService

def readChunkBytes : Nat := 64 * 1024

/-- The reads of a body: the chunks before the empty one. -/
def UploadFile.Delivered (file : UploadFile) : Prop :=
  ∀ chunk ∈ file.chunks, chunk ≠ [] ∧ chunk.length ≤ readChunkBytes

namespace FileValidation
variable (unicode : Unicode) (settings : UploadSettings)

/-- Valid UTF-8 for `.txt`, the registered prefix where there is one. -/
def MatchesFormat (extension : Text) (data : Bytes) : Prop :=
  (extension = ".txt".toList → (decodeUtf8 data).isSome = true) ∧
  ∀ start, magicPrefixes extension = some start → start <+: data

def checkedExtension (filename : Option String) : Text :=
  extractExtension unicode (sanitizeFilename unicode (filename.map String.toList))

structure Acceptable (filename contentType : Option String) (data : Bytes) : Prop where
  size : 1 ≤ data.length ∧ (data.length : Int) ≤ settings.maxUploadBytes
  extension : checkedExtension unicode filename ∈ settings.allowedExtensions unicode
  declared : declaredType unicode (contentType.map String.toList) ∈ genericContentTypes ∨
    declaredType unicode (contentType.map String.toList) ∈
      extensionContentTypes (checkedExtension unicode filename)
  format : MatchesFormat (checkedExtension unicode filename) data

variable {unicode settings}

theorem nil_not_mem_allowedExtensions : [] ∉ settings.allowedExtensions unicode := by
  simp only [UploadSettings.allowedExtensions, List.mem_map, List.mem_filter, decide_eq_true_eq,
    not_exists, not_and]
  rintro ext ⟨-, some_⟩ same
  split at same
  · exact some_ (unicode.lower_eq_nil ext same)
  · cases same

theorem readWithinLimit_eq {chunks : List Bytes} (delivered : ∀ chunk ∈ chunks, chunk ≠ [])
    (total : Int) (read : List Bytes) : readWithinLimit unicode settings total read chunks =
      if chunks.flatten ≠ [] ∧ settings.maxUploadBytes < total + chunks.flatten.length then
        .error (fileTooLarge unicode settings [("max_bytes", toString settings.maxUploadBytes)])
      else .ok (read.flatten ++ chunks.flatten) := by
  induction chunks generalizing total read with
  | nil => simp [readWithinLimit]
  | cons chunk rest ih =>
    have some_ := delivered chunk List.mem_cons_self
    have shorter := ih fun chunk mem => delivered chunk (List.mem_cons_of_mem _ mem)
    have length : ((chunk :: rest).flatten.length : Int) = chunk.length + rest.flatten.length := by
      simp
    have nonempty : (chunk :: rest).flatten ≠ [] := by simp [some_]
    rw [readWithinLimit, if_neg some_]
    split
    · rename_i beyond
      rw [if_pos ⟨nonempty, by omega⟩]
    · rename_i under
      have test : (rest.flatten ≠ [] ∧
          settings.maxUploadBytes < total + chunk.length + rest.flatten.length) ↔
          ((chunk :: rest).flatten ≠ [] ∧
            settings.maxUploadBytes < total + (chunk :: rest).flatten.length) := by
        refine ⟨fun beyond => ⟨nonempty, by omega⟩, fun beyond => ⟨fun empty => ?_, by omega⟩⟩
        rw [empty] at length
        have none_ : (([] : Bytes).length : Int) = 0 := rfl
        omega
      simp only [shorter, test, List.flatten_append, List.flatten_cons, List.flatten_nil,
        List.append_nil, List.append_assoc]

/-- A check accepts with a value exactly under a condition, and refuses with an
`UnsupportedFileTypeError` otherwise. -/
def Decides {α : Type} (verdict : Except Exn α) (condition : Prop) (value : α) : Prop :=
  condition ∧ verdict = .ok value ∨
    ¬condition ∧ ∃ message details, verdict = .error (unsupportedFileType message details)

theorem Decides.bind {α β : Type} {verdict : Except Exn α} {next : α → Except Exn β} {P Q : Prop}
    {a : α} {b : β} (first : Decides verdict P a) (then_ : Decides (next a) Q b) :
    Decides (verdict >>= next) (P ∧ Q) b := by
  obtain ⟨holds, rfl⟩ | ⟨fails, message, details, rfl⟩ := first
  · obtain ⟨also, same⟩ | ⟨fails, message, details, same⟩ := then_
    · exact .inl ⟨⟨holds, also⟩, same⟩
    · exact .inr ⟨fun both => fails both.2, message, details, same⟩
  · exact .inr ⟨fun both => fails both.1, message, details, rfl⟩

theorem validateExtension_decides (filename : Text) :
    Decides (validateExtension unicode settings filename)
      (extractExtension unicode filename ∈ settings.allowedExtensions unicode)
      (extractExtension unicode filename) := by
  simp only [validateExtension]
  split
  · rename_i missing
    exact .inr ⟨by rw [missing]; exact nil_not_mem_allowedExtensions, _, _, rfl⟩
  · split
    · rename_i refused
      exact .inr ⟨refused, _, _, rfl⟩
    · rename_i allowed
      exact .inl ⟨not_not.mp allowed, rfl⟩

theorem validateContentType_decides (extension : Text) (contentType : Option Text) :
    Decides (validateContentType unicode extension contentType)
      (declaredType unicode contentType ∈ genericContentTypes ∨
        declaredType unicode contentType ∈ extensionContentTypes extension) () := by
  simp only [validateContentType]
  split
  · rename_i generic
    exact .inl ⟨.inl generic, rfl⟩
  · rename_i special
    split
    · rename_i refused
      exact .inr ⟨not_or.mpr ⟨special, refused⟩, _, _, rfl⟩
    · rename_i permitted
      exact .inl ⟨.inr (not_not.mp permitted), rfl⟩

theorem validateSize_decides {data : Bytes}
    (within : data = [] ∨ (data.length : Int) ≤ settings.maxUploadBytes) :
    Decides (validateSize unicode settings data.length)
      (1 ≤ data.length ∧ (data.length : Int) ≤ settings.maxUploadBytes) () := by
  simp only [validateSize]
  split
  · exact .inr ⟨by omega, _, _, rfl⟩
  · rename_i some_
    have fits : (data.length : Int) ≤ settings.maxUploadBytes := by
      obtain rfl | fits := within
      · exact absurd (le_refl 0) some_
      · exact fits
    rw [if_neg (by omega)]
    exact .inl ⟨⟨by omega, fits⟩, rfl⟩

theorem validateMagicBytes_decides (extension : Text) (data : Bytes) :
    Decides (validateMagicBytes extension data) (MatchesFormat extension data) () := by
  simp only [validateMagicBytes, MatchesFormat]
  split
  · rename_i isTxt
    subst isTxt
    split
    · rename_i invalid
      exact .inr ⟨fun matches_ => by simp [invalid] at matches_, _, _, rfl⟩
    · rename_i valid
      exact .inl ⟨⟨fun _ => by simp [valid], by simp [magicPrefixes]⟩, rfl⟩
  · rename_i other
    split
    · rename_i unregistered
      exact .inl ⟨⟨fun isTxt => absurd isTxt other, by simp [unregistered]⟩, rfl⟩
    · rename_i start registered
      split
      · rename_i starts
        exact .inl ⟨⟨fun isTxt => absurd isTxt other, by simpa [registered] using starts⟩, rfl⟩
      · rename_i differs
        exact .inr ⟨fun matches_ => differs (matches_.2 start registered), _, _, rfl⟩

/-- What `validate_upload` says of a body that the streaming loop let through. -/
theorem validateUpload_decides (filename contentType : Option String) {data : Bytes}
    (within : data = [] ∨ (data.length : Int) ≤ settings.maxUploadBytes) :
    Decides (validateUpload unicode settings (filename.map String.toList)
        (contentType.map String.toList) data) (Acceptable unicode settings filename contentType data)
      (sanitizeFilename unicode (filename.map String.toList), checkedExtension unicode filename) := by
  have conditions : Acceptable unicode settings filename contentType data ↔
      checkedExtension unicode filename ∈ settings.allowedExtensions unicode ∧
      (declaredType unicode (contentType.map String.toList) ∈ genericContentTypes ∨
        declaredType unicode (contentType.map String.toList) ∈
          extensionContentTypes (checkedExtension unicode filename)) ∧
      (1 ≤ data.length ∧ (data.length : Int) ≤ settings.maxUploadBytes) ∧
      MatchesFormat (checkedExtension unicode filename) data ∧ True :=
    ⟨fun ⟨size, extension, declared, format⟩ => ⟨extension, declared, size, format, trivial⟩,
      fun ⟨extension, declared, size, format, _⟩ => ⟨size, extension, declared, format⟩⟩
  rw [conditions]
  exact (validateExtension_decides _).bind ((validateContentType_decides _ _).bind
    ((validateSize_decides within).bind ((validateMagicBytes_decides _ data).bind
      (.inl ⟨trivial, rfl⟩))))

end FileValidation

/-- The deployment whose upload endpoint runs these checks. -/
def Env.withUploadGate (env : Env) (unicode : Unicode) (settings : UploadSettings) : Env :=
  { env with uploadGate := FileValidation.uploadGate unicode settings }

/-- `upload_document` from `storage.save` on. -/
def storeAndQueue (env : Env) (file : UploadFile) (documentType : Option DocumentType)
    (upload : ValidatedUpload) : Prog ApiResponse := do
  let stored ← FileStorage.save env upload.data upload.extension
  let job ← createDocumentAndJob stored upload.filename (contentTypeOf file) documentType
    env.settings.maxRetries
  publishOrFail job "The document could not be queued for processing."
  return .uploadAccepted job.row.documentId job.row.id job.row.status

/-- Calls that open and close a session and store nothing; the state says
whether every reply so far was a value. -/
def sessionOnly : Protocol Op Op.Val Exn Bool :=
  .tracking (fun _ o => o = .db .openSession ∨ o = .db .rollback ∨ o = .db .closeSession)
    (fun _ _ => True) fun sound _ reply => sound && reply.isOk

def World.stored (w : World) : (List String → Option Bytes) × Redis × (Nat → Option Document) ×
    (Nat → Option ProcessingJob) × (Nat → Option ExtractionResult) :=
  (w.files, w.redis, w.db.documents, w.db.jobs, w.db.results)

theorem sessionOnly_stored {env : Env} {ctx : Context} {w : World} {loc : Local} {choice : Choice}
    {o : Op} {reply : Reply o} {sound : Bool} (permitted : sessionOnly.permits sound o)
    (h : o.execute env ctx w loc choice = some reply) : reply.world.stored = w.stored := by
  obtain rfl | rfl | rfl := permitted
  all_goals
    obtain ⟨rfl, done, did, rfl⟩ | ⟨error, rfl, -, -, rfl⟩ := execute_db h (by nofun)
    · cases did
      rfl
    · rfl

section Verdict
variable {env : Env} {unicode : Unicode} {settings : UploadSettings} {file : UploadFile}

/-- The verdict on a body is the verdict on its bytes. -/
theorem uploadGate_eq (delivered : file.Delivered) : FileValidation.uploadGate unicode settings file =
    if file.chunks.flatten ≠ [] ∧ settings.maxUploadBytes < file.chunks.flatten.length then
      .error (fileTooLarge unicode settings [("max_bytes", toString settings.maxUploadBytes)])
    else do
      let (filename, extension) ← validateUpload unicode settings (file.filename.map String.toList)
        (file.contentType.map String.toList) file.chunks.flatten
      return { data := file.chunks.flatten, filename := String.ofList filename
               extension := String.ofList extension } := by
  have read : readWithinLimit unicode settings 0 [] file.chunks = _ :=
    readWithinLimit_eq (fun chunk mem => (delivered chunk mem).1) 0 []
  simp only [FileValidation.uploadGate, read, Int.zero_add, List.flatten_nil, List.nil_append]
  split <;> rfl

theorem uploadGate_spec (delivered : file.Delivered) :
    (Acceptable unicode settings file.filename file.contentType file.chunks.flatten ∧
      ∃ upload, upload.data = file.chunks.flatten ∧
        FileValidation.uploadGate unicode settings file = .ok upload) ∨
    (¬Acceptable unicode settings file.filename file.contentType file.chunks.flatten ∧
      ∃ error : AppError, (error.kind = .unsupportedFileType ∨ error.kind = .fileTooLarge) ∧
        (error.kind = .fileTooLarge ↔ file.chunks.flatten ≠ [] ∧
          settings.maxUploadBytes < file.chunks.flatten.length) ∧
        FileValidation.uploadGate unicode settings file = .error (.app error)) := by
  rw [uploadGate_eq delivered]
  split
  · rename_i beyond
    refine .inr ⟨fun accepted => ?_, _, .inr rfl, iff_of_true rfl beyond, rfl⟩
    exact absurd accepted.size.2 (not_le.mpr beyond.2)
  · rename_i under
    have within : file.chunks.flatten = [] ∨
        (file.chunks.flatten.length : Int) ≤ settings.maxUploadBytes := by
      by_cases empty : file.chunks.flatten = []
      · exact .inl empty
      · exact .inr (not_lt.mp fun beyond => under ⟨empty, beyond⟩)
    have decided : Decides (validateUpload unicode settings _ _ _) _ _ :=
      validateUpload_decides file.filename file.contentType within
    obtain ⟨accepted, isOk⟩ | ⟨refused, message, details, isError⟩ := decided
    · rw [isOk]
      exact .inl ⟨accepted, _, rfl, rfl⟩
    · rw [isError]
      exact .inr ⟨refused, _, .inl rfl, iff_of_false (fun same => by cases same) under, rfl⟩

theorem uploadDocument_accepted {documentType : Option DocumentType} {upload : ValidatedUpload}
    (accepted : env.uploadGate file = .ok upload) : uploadDocument env file documentType =
      providedSession (storeAndQueue env file documentType upload) := by
  rw [uploadDocument, accepted]
  rfl

theorem uploadDocument_refused {documentType : Option DocumentType} {error : Exn}
    (refused : env.uploadGate file = .error error) :
    uploadDocument env file documentType = providedSession (throw error) := by
  rw [uploadDocument, refused]
  rfl

theorem providedSession_throw_sessionOnly {α : Type} (error : Exn) :
    wp sessionOnly (providedSession (throw error) : Prog α)
      (fun r sound => sound = true → r = .error error) true := by
  refine wp_tracking_then (.inl rfl) (fun _ _ => ?_) fun _ _ unsound => by cases unsound
  simp only [wp_andFinally, wp_tryCatch, wp_throw]
  refine wp_tracking_then (.inr (.inl rfl)) (fun _ _ => ?_) fun _ _ => ?_
  · exact wp_tracking_perform (.inr (.inr rfl)) (fun _ _ _ => rfl) fun _ _ unsound => by cases unsound
  · exact wp_tracking_perform (.inr (.inr rfl)) (fun _ _ unsound => by cases unsound)
      fun _ _ unsound => by cases unsound

end Verdict

/-- Acceptance is exact, by the bytes and not by their chunks, and a refusal
leaves nothing behind. -/
theorem upload_exact (env : Env) (unicode : Unicode) (settings : UploadSettings) (file : UploadFile)
    (documentType : Option DocumentType) (delivered : file.Delivered) :
    let deployed := env.withUploadGate unicode settings
    let data := file.chunks.flatten
    (Acceptable unicode settings file.filename file.contentType data →
      ∃ upload, upload.data = data ∧ uploadDocument deployed file documentType =
        providedSession (storeAndQueue deployed file documentType upload)) ∧
    (¬Acceptable unicode settings file.filename file.contentType data →
      ∃ error : AppError, (error.kind = .unsupportedFileType ∨ error.kind = .fileTooLarge) ∧
        (error.kind = .fileTooLarge ↔ data ≠ [] ∧ settings.maxUploadBytes < data.length) ∧
        wp sessionOnly (uploadDocument deployed file documentType)
          (fun r sound => sound = true → r = .error (.app error)) true) ∧
    (∀ ctx w loc choice o sound (reply : Reply o), sessionOnly.permits sound o →
      o.execute deployed ctx w loc choice = some reply → reply.world.stored = w.stored) ∧
    ∀ other : UploadFile, other.Delivered → other.filename = file.filename →
      other.contentType = file.contentType → other.chunks.flatten = data →
      deployed.uploadGate other = deployed.uploadGate file := by
  intro deployed data
  refine ⟨fun acceptable => ?_, fun refused => ?_,
    fun _ _ _ _ _ _ _ => sessionOnly_stored, fun other whole name type same => ?_⟩
  · obtain ⟨-, upload, read, accepted⟩ | ⟨refused, -⟩ := uploadGate_spec delivered
    · exact ⟨upload, read, uploadDocument_accepted accepted⟩
    · exact absurd acceptable refused
  · obtain ⟨acceptable, -⟩ | ⟨-, error, kind, tooLarge, refusedWith⟩ := uploadGate_spec delivered
    · exact absurd acceptable refused
    · refine ⟨error, kind, tooLarge, ?_⟩
      rw [uploadDocument_refused refusedWith]
      exact providedSession_throw_sessionOnly _
  · change FileValidation.uploadGate unicode settings other = FileValidation.uploadGate unicode settings file
    rw [uploadGate_eq whole, uploadGate_eq delivered, name, type, same]

def asciiUnicode : Unicode where
  nfkd := id
  lower := List.map Char.toLower
  repr := String.ofList
  megabytes n := toString (n / 1048576)
  lower_eq_nil _ := List.map_eq_nil_iff.mp

theorem upload_exact_txt : ∃ upload : ValidatedUpload, upload.data = [104, 105] ∧
    uploadDocument (sampleEnv.withUploadGate asciiUnicode {})
        ⟨some "A b.TXT", some "text/plain; charset=utf-8", [[104], [105]]⟩ none =
      providedSession (storeAndQueue (sampleEnv.withUploadGate asciiUnicode {})
        ⟨some "A b.TXT", some "text/plain; charset=utf-8", [[104], [105]]⟩ none upload) := by
  refine (upload_exact sampleEnv asciiUnicode {}
    ⟨some "A b.TXT", some "text/plain; charset=utf-8", [[104], [105]]⟩ none ?_).1 ?_
  · rintro chunk mem
    simp only [List.mem_cons, List.not_mem_nil, or_false] at mem
    obtain rfl | rfl := mem <;> decide
  · refine ⟨by decide, by decide +kernel, .inr (by decide +kernel), by decide +kernel, fun start => ?_⟩
    rw [show magicPrefixes _ = none by decide +kernel]
    nofun

end DocumentPipeline

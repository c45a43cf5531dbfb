import DocumentPipeline.Filenames
import DocumentPipeline.FilingProtocol
import Mathlib.Data.Nat.Digits.Defs

/-! The columns of `documents` against what an accepted upload writes into them.
PostgreSQL rejects a value that is longer than its VARCHAR(n). -/

namespace DocumentPipeline
open EffectProgram PyText FileValidation FileStorage JobService Routes

/-- The `String(n)` columns of the table. -/
structure Document.FitsColumns (document : Document) : Prop where
  originalFilename : document.originalFilename.length ≤ 255
  storedFilename : document.storedFilename.length ≤ 255
  contentType : document.contentType.length ≤ 128
  storagePath : document.storagePath.length ≤ 1024
  checksum : document.checksum.length ≤ 64

/-- The days of the years 1 to 9999, which a `datetime` can express. -/
def Time.IsDatetime (t : Time) : Prop := -719162 ≤ t / 86400000000 ∧ t / 86400000000 ≤ 2932896

theorem epoch_isDatetime : Time.IsDatetime 0 := ⟨by decide, by decide⟩

/-- A UUID has 128 bits, and the clock answers with a `datetime`. -/
def inRange : (o : Op) → Except Exn o.Val → Prop
  | .runtime .uuid4, .ok uuid => uuid < 2 ^ 128
  | .runtime .utcnow, .ok now => now.IsDatetime
  | _, _ => True

abbrev insertsFit : Protocol Op Op.Val Exn Unit :=
  .tracking (fun _ o => ∀ id document, o = .db (.insertDocument id document) → document.FitsColumns)
    inRange fun _ _ _ => ()

/-- Every row the upload inserts fits, whatever its calls are answered. -/
def InsertsFit (env : Env) (file : UploadFile) (documentType : Option DocumentType) : Prop :=
  wp insertsFit (uploadDocument env file documentType) (fun _ _ => True) ()

def insertedDocument (env : Env) (file : UploadFile) (documentType : Option DocumentType)
    (upload : ValidatedUpload) (uuid : Nat) (today : Time) : Document where
  originalFilename := upload.filename
  storedFilename := (storedAs env upload uuid today).storedFilename
  contentType := contentTypeOf file
  fileSize := upload.data.length
  storagePath := (storedAs env upload uuid today).storagePath
  checksum := env.sha256Hex upload.data
  requestedDocumentType := documentType

section Lengths

theorem toString_length {n : Int} {k : Nat} (positive : 0 < k) (low : -10 ^ k < n) (high : n < 10 ^ k) :
    (toString n).length ≤ k + 1 := by
  have digits : ∀ m : Nat, (m : Int) < 10 ^ k → m.repr.length ≤ k := by
    intro m small
    rw [← String.length_toList, Nat.toList_repr]
    exact (Nat.length_toDigits_le_iff (by omega) positive).mpr (by exact_mod_cast small)
  rw [Int.toString_eq_repr, Int.repr_eq_if]
  split
  · rename_i nonneg
    exact (digits n.toNat (by rwa [Int.toNat_of_nonneg nonneg])).trans (Nat.le_succ k)
  · rename_i negative
    have size := digits (-n).toNat (by rw [Int.toNat_of_nonneg (by omega)]; linarith)
    have sign : ("-" : String).length = 1 := by decide
    rw [String.length_append]
    omega

theorem twoDigits_length {n : Int} (low : -1000 < n) (high : n < 1000) : (twoDigits n).length ≤ 5 := by
  have digits := toString_length (k := 3) (by omega) (by simpa using low) (by simpa using high)
  have zero : (if n < 10 then "0" else "" : String).length ≤ 1 := by split <;> decide
  rw [twoDigits, String.length_append]
  omega

/-- Generous bounds on the numbers of a date, within the years of a `datetime`. -/
theorem civilDate_bounds {days : Int} (low : -719162 ≤ days) (high : days ≤ 2932896) :
    (-100000 < (civilDate days).1 ∧ (civilDate days).1 < 100000) ∧
    (-1000 < (civilDate days).2.1 ∧ (civilDate days).2.1 < 1000) ∧
    -1000 < (civilDate days).2.2 ∧ (civilDate days).2.2 < 1000 := by
  simp only [civilDate]
  have era : 0 ≤ (days + 719468) / 146097 ∧ (days + 719468) / 146097 ≤ 25 := by omega
  have offset : 0 ≤ days + 719468 - (days + 719468) / 146097 * 146097 ∧
      days + 719468 - (days + 719468) / 146097 * 146097 < 146097 := by omega
  generalize (days + 719468) / 146097 = e at era offset
  generalize days + 719468 - e * 146097 = d at offset
  have year : 0 ≤ (d - d / 1460 + d / 36524 - d / 146096) / 365 ∧
      (d - d / 1460 + d / 36524 - d / 146096) / 365 ≤ 400 ∧
      -5 ≤ d - 365 * ((d - d / 1460 + d / 36524 - d / 146096) / 365) - d / 1460 ∧
      d - 365 * ((d - d / 1460 + d / 36524 - d / 146096) / 365) - d / 1460 ≤ 366 := by omega
  have leap : 0 ≤ d / 1460 ∧ d / 1460 ≤ 100 := by omega
  generalize d / 1460 = l at year leap
  generalize (d - l + d / 36524 - d / 146096) / 365 = y at year
  have ofYear : -200 ≤ d - (365 * y + y / 4 - y / 100) ∧ d - (365 * y + y / 4 - y / 100) ≤ 600 := by omega
  generalize d - (365 * y + y / 4 - y / 100) = n at ofYear
  have month : -10 ≤ (5 * n + 2) / 153 ∧ (5 * n + 2) / 153 ≤ 20 := by omega
  generalize (5 * n + 2) / 153 = m at month
  refine ⟨⟨?_, ?_⟩, ⟨?_, ?_⟩, ?_, ?_⟩
  · split <;> split <;> omega
  · split <;> split <;> omega
  · split <;> omega
  · split <;> omega
  · omega
  · omega

theorem dateDirectory_length {today : Time} (dated : today.IsDatetime) :
    (dateDirectory today).length ≤ 18 := by
  obtain ⟨year, month, day⟩ := civilDate_bounds dated.1 dated.2
  have yearText := toString_length (k := 5) (by omega) (by simpa using year.1) (by simpa using year.2)
  have monthText := twoDigits_length month.1 month.2
  have dayText := twoDigits_length day.1 day.2
  have spelled : dateDirectory today = toString (civilDate (today / 86400000000)).1 ++ "/" ++
      twoDigits (civilDate (today / 86400000000)).2.1 ++ "/" ++
      twoDigits (civilDate (today / 86400000000)).2.2 := rfl
  have slash : ("/" : String).length = 1 := by decide
  rw [spelled, String.length_append, String.length_append, String.length_append, String.length_append]
  omega

theorem suffix_length {name : Text} (plain : '/' ∉ name) :
    (suffix (String.ofList name)).toList.length ≤ name.length := by
  by_cases dot : name = ['.']
  · rw [dot]
    decide +kernel
  · rw [suffix_plain plain dot]
    split
    · rename_i named
      exact named.2.le
    · exact Nat.zero_le _

end Lengths

section Gate
variable {unicode : Unicode} {settings : UploadSettings} {file : UploadFile} {upload : ValidatedUpload}

theorem validateExtension_ok {name extension : Text}
    (valid : validateExtension unicode settings name = .ok extension) :
    extension = extractExtension unicode name := by
  obtain ⟨-, same⟩ | ⟨-, _, _, same⟩ := (validateExtension_decides name : Decides (validateExtension unicode settings name) _ _)
  · exact Except.ok.inj (valid.symm.trans same)
  · cases valid.symm.trans same

theorem uploadGate_named (accepted : FileValidation.uploadGate unicode settings file = .ok upload) :
    upload.filename = String.ofList (sanitizeFilename unicode (file.filename.map String.toList)) ∧
      upload.extension = String.ofList (checkedExtension unicode file.filename) := by
  simp only [FileValidation.uploadGate, validateUpload, bind, Except.bind, pure, Except.pure] at accepted
  split at accepted
  · cases accepted
  · split at accepted
    · cases accepted
    · rename_i checked
      cases accepted
      split at checked
      · cases checked
      · rename_i valid
        have extension := validateExtension_ok valid
        repeat' split at checked
        all_goals cases checked
        exact ⟨rfl, congrArg String.ofList extension⟩

theorem extension_length (ascii : unicode.LowersAscii)
    (accepted : FileValidation.uploadGate unicode settings file = .ok upload) :
    upload.extension.length ≤ maxFilenameLength := by
  have within := sanitizeFilename_length unicode (file.filename.map String.toList)
  have plain := sanitizeFilename_plain unicode (file.filename.map String.toList)
  have letters : IsAscii (suffix (String.ofList
      (sanitizeFilename unicode (file.filename.map String.toList)))).toList := by
    obtain none_ | ⟨tail, is, -, -, -, within⟩ := suffix_cases (String.ofList
      (sanitizeFilename unicode (file.filename.map String.toList)))
    · rw [none_]
      exact fun _ among => by cases among
    · rw [is]
      intro c among
      obtain rfl | later := List.mem_cons.mp among
      · decide
      · exact sanitizeFilename_ascii _ c (by simpa using within later)
  rw [(uploadGate_named accepted).2, String.length_ofList, checkedExtension, extractExtension,
    lower_length ascii letters]
  exact (suffix_length plain).trans within

theorem insertedDocument_fits {env : Env} {documentType : Option DocumentType} {uuid : Nat} {today : Time}
    (ascii : unicode.LowersAscii) (hex : ∀ data, (env.sha256Hex data).length = 64)
    (accepted : FileValidation.uploadGate unicode settings file = .ok upload) (bits : uuid < 2 ^ 128)
    (dated : today.IsDatetime) : (insertedDocument env file documentType upload uuid today).FitsColumns ↔
      (contentTypeOf file).length ≤ 128 := by
  refine ⟨fun fits => fits.contentType, fun short => ?_⟩
  have limit : maxFilenameLength = 200 := rfl
  have name := sanitizeFilename_length unicode (file.filename.map String.toList)
  have extension := extension_length ascii accepted
  have stored : (uuidText uuid ++ upload.extension).length ≤ 236 := by
    rw [String.length_append, uuidText_length bits]
    omega
  have directory := dateDirectory_length dated
  have slash : ("/" : String).length = 1 := by decide
  refine ⟨?_, stored.trans (by omega), short, ?_, (hex upload.data).le⟩
  · change upload.filename.length ≤ 255
    rw [(uploadGate_named accepted).1, String.length_ofList]
    omega
  · change (dateDirectory today ++ "/" ++ (uuidText uuid ++ upload.extension)).length ≤ 1024
    rw [String.length_append, String.length_append]
    omega

end Gate

section Upload
variable {env : Env} {file : UploadFile} {documentType : Option DocumentType} {upload : ValidatedUpload}

def Op.inserts : Op → Prop
  | .db (.insertDocument _ _) => True
  | _ => False

theorem insertsFit_of_avoids {α : Type} {p : Prog α} (avoids : p.Avoids Op.inserts) :
    wp insertsFit p (fun _ _ => True) () := by
  refine avoids.wp (I := fun _ => True) (fun _ o _ other id document is => ?_)
    (fun _ _ _ _ _ _ _ => trivial) trivial
  subst is
  exact absurd trivial other

theorem publishOrFail_inserts (job : JobObject) (message : String) :
    (publishOrFail job message).Avoids Op.inserts := by
  have marks : (markFailed job message).Avoids Op.inserts := by
    refine (markFailed_files job message).fewer fun o inserts => ?_
    unfold Op.inserts at inserts
    split at inserts
    · trivial
    · exact inserts.elim
  refine .tryCatch (.bind (.bind (.bind (.lift _) fun _ => .bind (.perform nofun) fun _ => trivial)
    fun event => .tryCatch (.perform nofun) fun error => ?_) fun _ => trivial) fun error => ?_
  · split <;> trivial
  · split
    · exact .bind marks fun _ => trivial
    · trivial

theorem providedSession_insertsFit {body : Prog ApiResponse}
    (h : wp insertsFit body (fun _ _ => True) ()) :
    wp insertsFit (providedSession body) (fun _ _ => True) () := by
  refine wp_tracking_then nofun (fun _ _ => ?_) fun _ _ => trivial
  refine (wp_andFinally _ _ _ _ _).mpr ((wp_tryCatch _ _ _ _ _).mpr (wp_mono _ ?_ h))
  rintro (error | response) _ -
  · refine wp_tracking_then nofun (fun _ _ => ?_) fun _ _ => ?_
    · exact wp_tracking_perform nofun (fun _ _ => trivial) fun _ _ => trivial
    · exact wp_tracking_perform nofun (fun _ _ => trivial) fun _ _ => trivial
  · exact wp_tracking_perform nofun (fun _ _ => trivial) fun _ _ => trivial

theorem createDocumentAndJob_insertsFit {stored : StoredFile} {originalFilename contentType : String}
    {maxRetries : Int} (fits : Document.FitsColumns
      { originalFilename, storedFilename := stored.storedFilename, contentType, fileSize := stored.size
        storagePath := stored.storagePath, checksum := stored.checksum
        requestedDocumentType := documentType }) :
    wp insertsFit (createDocumentAndJob stored originalFilename contentType documentType maxRetries)
      (fun _ _ => True) () := by
  refine wp_tracking_then nofun (fun documentId _ => ?_) fun _ _ => trivial
  refine wp_tracking_then nofun (fun jobId _ => ?_) fun _ _ => trivial
  refine wp_tracking_then ?_ (fun _ _ => ?_) fun _ _ => trivial
  · rintro id document inserted
    cases inserted
    exact fits
  · refine insertsFit_of_avoids (.bind (.perform nofun) fun _ => .bind (.perform nofun) fun _ =>
      .bind (.bind (.perform nofun) fun found => ?_) fun job => .bind (.perform nofun) fun found => ?_)
    all_goals split <;> trivial

theorem save_reaches {Q : Except Exn StoredFile → Unit → Prop} {uuid : Nat} {today : Time}
    (proper : IsExtension upload.extension)
    (h : wp insertsFit (FileStorage.save env upload.data upload.extension) Q ()) (bits : uuid < 2 ^ 128)
    (dated : today.IsDatetime) : Q (.ok (storedAs env upload uuid today)) () := by
  have resolved : FileStorage.resolve env.storageRoot
      (dateDirectory today ++ "/" ++ (uuidText uuid ++ upload.extension)) = .ok _ :=
    resolve_dated ⟨name_plain proper, name_proper proper⟩
  have named := h.2 (.ok uuid) () ⟨bits, rfl⟩
  have filed := (wp_bind _ _ _ _ _).mp (named.2 (.ok today) () ⟨dated, rfl⟩)
  rw [wp_lift] at filed
  dsimp only at filed
  rw [resolved] at filed
  exact ((wp_tryCatch _ _ _ _ _).mp ((wp_bind _ _ _ _ _).mp filed)).2 (.ok ()) () ⟨trivial, rfl⟩

theorem insertsFit_iff (accepted : env.uploadGate file = .ok upload)
    (proper : IsExtension upload.extension) : InsertsFit env file documentType ↔
      ∀ uuid today, uuid < 2 ^ 128 → today.IsDatetime →
        (insertedDocument env file documentType upload uuid today).FitsColumns := by
  have resolved : ∀ uuid today, FileStorage.resolve env.storageRoot
      (dateDirectory today ++ "/" ++ (uuidText uuid ++ upload.extension)) =
        .ok (env.storageRoot ++ dateParts today ++ [uuidText uuid ++ upload.extension]) :=
    fun uuid today => resolve_dated ⟨name_plain proper, name_proper proper⟩
  rw [InsertsFit, uploadDocument_accepted accepted]
  constructor
  · intro h uuid today bits dated
    have body := (wp_tryCatch _ _ _ _ _).mp ((wp_andFinally _ _ _ _ _).mp (h.2 (.ok ()) () ⟨trivial, rfl⟩))
    have filed := save_reaches proper ((wp_bind _ _ _ _ _).mp body) bits dated
    have drawn : inRange (.runtime .uuid4) (.ok (0 : Nat)) := Nat.two_pow_pos 128
    have rows := (filed.2 (.ok (0 : Nat)) () ⟨drawn, rfl⟩).2 (.ok (0 : Nat)) () ⟨drawn, rfl⟩
    exact rows.1 _ _ rfl
  · intro fits
    refine providedSession_insertsFit (wp_seq (R := fun r _ => ∀ stored, r = .ok stored →
      ∃ uuid today, uuid < 2 ^ 128 ∧ today.IsDatetime ∧ stored = storedAs env upload uuid today) _ ?_ ?_
      fun _ _ _ => trivial)
    · refine wp_tracking_then nofun (fun uuid bits => ?_) fun _ _ => nofun
      refine wp_tracking_then nofun (fun today dated => ?_) fun _ _ => nofun
      dsimp only
      rw [resolved]
      refine (wp_bind _ _ _ _ _).mpr ((wp_lift _ _ _ _).mpr ((wp_bind _ _ _ _ _).mpr
        ((wp_tryCatch _ _ _ _ _).mpr (wp_tracking_perform nofun (fun _ _ => ?_) fun error _ => ?_))))
      · rintro stored same
        cases same
        exact ⟨uuid, today, bits, dated, rfl⟩
      · dsimp only
        split <;> exact nofun
    · rintro stored _ saved
      obtain ⟨uuid, today, bits, dated, rfl⟩ := saved stored rfl
      refine wp_seq (R := fun _ _ => True) _ (createDocumentAndJob_insertsFit (fits uuid today bits dated)) ?_
        fun _ _ _ => trivial
      exact fun job _ _ => wp_seq (R := fun _ _ => True) _ (insertsFit_of_avoids (publishOrFail_inserts job _))
        (fun _ _ _ => trivial) fun _ _ _ => trivial

theorem insertsFit_short (accepted : env.uploadGate file = .ok upload)
    (proper : IsExtension upload.extension) (fits : InsertsFit env file documentType) :
    (contentTypeOf file).length ≤ 128 :=
  ((insertsFit_iff accepted proper).mp fits 0 0 (Nat.two_pow_pos 128) epoch_isDatetime).contentType

end Upload

/-- An accepted upload fits its columns exactly when the declared type does. -/
theorem columns_fit_iff (env : Env) (unicode : Unicode) (ascii : unicode.LowersAscii)
    (settings : UploadSettings) (hex : ∀ data, (env.sha256Hex data).length = 64) (file : UploadFile)
    (documentType : Option DocumentType) (upload : ValidatedUpload)
    (accepted : FileValidation.uploadGate unicode settings file = .ok upload) :
    InsertsFit (env.withUploadGate unicode settings) file documentType ↔
      (contentTypeOf file).length ≤ 128 := by
  have accepted' : (env.withUploadGate unicode settings).uploadGate file = .ok upload := accepted
  have proper := uploadGate_extension ascii accepted
  refine ⟨insertsFit_short accepted' proper, fun short => ?_⟩
  exact (insertsFit_iff accepted' proper).mpr fun uuid today bits dated =>
    (insertedDocument_fits ascii hex accepted bits dated).mpr short

/-- The digest of the file `hi`. -/
def sampleDigest : String := "8f434346648f6b96df89dda901c5176b10a6d83961dd3c1ac88b59b2dc327aa4"

def digestEnv : Env := { sampleEnv with sha256Hex := fun _ => sampleDigest }

def sampleDeclaration : UploadFile := ⟨some "A b.TXT", some "text/plain; charset=utf-8", [[104, 105]]⟩

theorem columns_fit_txt : InsertsFit (digestEnv.withUploadGate asciiUnicode {}) sampleDeclaration none := by
  have ok : (FileValidation.uploadGate asciiUnicode {} sampleDeclaration).isOk = true := by decide +kernel
  cases accepted : FileValidation.uploadGate asciiUnicode {} sampleDeclaration with
  | error error =>
    rw [accepted] at ok
    cases ok
  | ok upload =>
    exact (columns_fit_iff digestEnv asciiUnicode (fun _ _ => rfl) {}
      (fun _ => show sampleDigest.length = 64 by decide) sampleDeclaration none upload accepted).mpr (by decide)

def longDeclaration : UploadFile :=
  ⟨some "a.txt", some (String.ofList ("text/plain; name=".toList ++ List.replicate 112 'x')), [[104, 105]]⟩

theorem longDeclaration_stored : ¬InsertsFit (digestEnv.withUploadGate asciiUnicode {}) longDeclaration none := by
  have ok : (FileValidation.uploadGate asciiUnicode {} longDeclaration).isOk = true := by decide +kernel
  cases accepted : FileValidation.uploadGate asciiUnicode {} longDeclaration with
  | error error =>
    rw [accepted] at ok
    cases ok
  | ok upload =>
    intro fits
    have long : 128 < (contentTypeOf longDeclaration).length := by decide +kernel
    have accepted' : (digestEnv.withUploadGate asciiUnicode {}).uploadGate longDeclaration = .ok upload := accepted
    have short := insertsFit_short accepted' (uploadGate_extension (fun _ _ => rfl) accepted) fits
    exact absurd short long.not_ge

end DocumentPipeline

import DocumentPipeline.UploadGate
import DocumentPipeline.Normalisation

/-! The `.txt` gate against what becomes of the bytes behind it: the decoders of
the worker, and the column that stores the text. PostgreSQL's TEXT rejects
U+0000. -/

namespace DocumentPipeline.TextExtraction
open PyText FileValidation

def undefinedCp1252 : List UInt8 := [0x81, 0x8D, 0x8F, 0x90, 0x9D]

section Decoders

theorem cp1252Char_isSome (b : UInt8) : (cp1252Char b).isSome = true ↔ b ∉ undefinedCp1252 := by
  have all : ∀ n < 256, (cp1252Char (UInt8.ofNat n)).isSome = true ↔ UInt8.ofNat n ∉ undefinedCp1252 := by
    decide +kernel
  simpa only [UInt8.ofNat_toNat] using all b.toNat b.toNat_lt

theorem decodeCp1252_isSome (data : Bytes) :
    (decodeCp1252 data).isSome = true ↔ ∀ b ∈ data, b ∉ undefinedCp1252 := by
  induction data with
  | nil => simp [decodeCp1252]
  | cons b rest ih =>
    rw [List.forall_mem_cons, ← ih, ← cp1252Char_isSome, decodeCp1252, List.mapM_cons]
    cases cp1252Char b with
    | none => simp
    | some c =>
      cases same : decodeCp1252 rest with
      | none =>
        rw [decodeCp1252] at same
        simp [same]
      | some text =>
        rw [decodeCp1252] at same
        simp [same]

/-- A byte-order mark is itself valid UTF-8. -/
theorem decodeUtf8Sig_isSome (data : Bytes) :
    (decodeUtf8Sig data).isSome = (decodeUtf8 data).isSome := by
  rw [decodeUtf8Sig]
  split
  · rename_i marked
    obtain ⟨rest, rfl⟩ := marked
    have decoded : decodeUtf8 ([0xEF, 0xBB, 0xBF] ++ rest) = (scalar 0xFEFF :: ·) <$> decodeUtf8 rest := by
      change decodeUtf8 (0xEF :: 0xBB :: 0xBF :: rest) = _
      rw [decodeUtf8.eq_def]
      rfl
    rw [decoded]
    cases same : decodeUtf8 rest <;> simp [same]
  · rfl

theorem extractTxt_isOk (data : Bytes) : (extractTxt data).isOk = true ↔
    (decodeUtf8 data).isSome = true ∨ ∀ b ∈ data, b ∉ undefinedCp1252 := by
  rw [← decodeUtf8Sig_isSome, ← decodeCp1252_isSome, extractTxt]
  cases decodeUtf8Sig data with
  | some text => simp [Except.isOk, Except.toBool]
  | none => cases decodeCp1252 data <;> simp [Except.isOk, Except.toBool]

example : extractTxt [0xEF, 0xBB, 0xBF, 0x61] = .ok ['a'] ∧ extractTxt [0x52, 0xE9] = .ok ['R', 'é'] ∧
    (extractTxt [0x81]).isOk = false := by decide +kernel

end Decoders

section Gate
variable {unicode : Unicode} {settings : UploadSettings} {filename contentType : Option String} {data : Bytes}

/-- What the gate lets through with a `.txt` name and a `text/plain` type. -/
theorem validateUpload_txt (txt : checkedExtension unicode filename = ".txt".toList)
    (allowed : ".txt".toList ∈ settings.allowedExtensions unicode)
    (declared : declaredType unicode (contentType.map String.toList) = "text/plain".toList)
    (nonempty : data ≠ []) (within : (data.length : Int) ≤ settings.maxUploadBytes) :
    (validateUpload unicode settings (filename.map String.toList) (contentType.map String.toList)
      data).isOk = true ↔ (decodeUtf8 data).isSome = true := by
  have positive := List.length_pos_iff.mpr nonempty
  have decided : Decides _ (Acceptable unicode settings filename contentType data) _ :=
    validateUpload_decides filename contentType (.inr within)
  obtain ⟨acceptable, same⟩ | ⟨refused, _, _, same⟩ := decided
  · rw [same]
    exact iff_of_true rfl (acceptable.format.1 txt)
  · rw [same]
    refine iff_of_false nofun fun valid => refused ⟨⟨positive, within⟩, txt ▸ allowed, .inr ?_, ?_⟩
    · rw [declared, txt]
      decide
    · rw [txt]
      exact ⟨fun _ => valid, by simp [magicPrefixes]⟩

end Gate

/-- The gate accepts what the extractor decodes exactly on valid UTF-8 and on
bytes that no encoding decodes; what it accepts is always decoded. -/
theorem txt_agree_iff (unicode : Unicode) (settings : UploadSettings) (filename contentType : Option String)
    (data : Bytes) (txt : checkedExtension unicode filename = ".txt".toList)
    (allowed : ".txt".toList ∈ settings.allowedExtensions unicode)
    (declared : declaredType unicode (contentType.map String.toList) = "text/plain".toList)
    (nonempty : data ≠ []) (within : (data.length : Int) ≤ settings.maxUploadBytes) :
    (((validateUpload unicode settings (filename.map String.toList) (contentType.map String.toList)
        data).isOk = true ↔ (extractTxt data).isOk = true) ↔
      (decodeUtf8 data).isSome = true ∨ ∃ b ∈ data, b ∈ undefinedCp1252) ∧
    ((validateUpload unicode settings (filename.map String.toList) (contentType.map String.toList)
      data).isOk = true → (extractTxt data).isOk = true) := by
  rw [validateUpload_txt txt allowed declared nonempty within, extractTxt_isOk]
  refine ⟨⟨fun agree => ?_, ?_⟩, .inl⟩
  · by_contra neither
    rw [not_or] at neither
    refine neither.1 (agree.mpr (.inr fun b among undefined => neither.2 ⟨b, among, undefined⟩))
  · rintro (valid | ⟨b, among, undefined⟩)
    · exact iff_of_true valid (.inl valid)
    · exact ⟨.inl, fun decodes => decodes.resolve_right fun defined => defined b among undefined⟩

theorem txt_agree_utf8 : ((validateUpload asciiUnicode {} (some "a.txt".toList) (some "text/plain".toList)
      [0xC3, 0xA9]).isOk = true ↔ (extractTxt [0xC3, 0xA9]).isOk = true) :=
  (txt_agree_iff asciiUnicode {} (some "a.txt") (some "text/plain") [0xC3, 0xA9] (by decide +kernel)
    (by decide +kernel) (by decide +kernel) (by decide) (by decide)).1.mpr (.inl (by decide))

/-- Text of older Windows tooling: the extractor decodes it, the gate refuses it. -/
theorem cp1252_refused : ¬((validateUpload asciiUnicode {} (some "a.txt".toList) (some "text/plain".toList)
      [0x52, 0xE9, 0xE7, 0x75]).isOk = true ↔ (extractTxt [0x52, 0xE9, 0xE7, 0x75]).isOk = true) := by
  have refused : (validateUpload asciiUnicode {} (some "a.txt".toList) (some "text/plain".toList)
      [0x52, 0xE9, 0xE7, 0x75]).isOk = false := by decide +kernel
  have decoded : (extractTxt [0x52, 0xE9, 0xE7, 0x75]).isOk = true := by decide +kernel
  rw [refused, decoded]
  decide

def nul : Char := Char.ofNat 0

/-- How many characters `truncate` keeps of a text. -/
def keptChars (length : Nat) (limit : Int) : Int := if 0 ≤ limit then limit else length + limit

/-- The first attempt stores a text that the column takes, or fails the job for good. -/
def StoresClean (parsers : Parsers) (lower : Text → Text) (data : Bytes) (limit : Int) : Prop :=
  extractText parsers lower data ".txt" = .error (emptyDocument ".txt") ∨
    ∃ text, extractText parsers lower data ".txt" = .ok text ∧ nul ∉ (truncate text limit).1

/-- The text up to its first U+0000 is, once normalised, longer than what is kept. -/
def NulBeyond (text : Text) (limit : Int) : Prop :=
  nul ∈ text → keptChars (normalise text).length limit <
    (normalise (text.takeWhile (· ≠ nul) ++ [nul])).length

section Storing

theorem truncate_eq_take (text : Text) (limit : Int) :
    (truncate text limit).1 = text.take (keptChars text.length limit).toNat := by
  rw [truncate, keptChars]
  split
  · rename_i short
    have nonneg : 0 ≤ limit := by omega
    rw [if_pos nonneg, List.take_of_length_le (by omega)]
  · rw [pySlice]
    split <;> rfl

theorem mem_normalise_nul {text : Text} : nul ∈ normalise text ↔ nul ∈ text := by
  have shown (text : Text) : nul ∈ visible text ↔ nul ∈ text := by
    simp [visible, show isSpace nul = false by decide]
  rw [← shown, visible_normalise, shown]

example : normalise ['a', nul, ' ', '\r', '\n'] = ['a', nul] := by decide +kernel

theorem stored_clean_iff (text : Text) (limit : Int) :
    nul ∉ (truncate (normalise text) limit).1 ↔ NulBeyond text limit := by
  rw [truncate_eq_take]
  by_cases among : nul ∈ text
  · obtain ⟨front, back, whole, fresh⟩ := List.eq_append_cons_of_mem among
    have shown : isSpace nul = false := by decide
    obtain ⟨lead, rest, first, all⟩ := normalise_append shown front back
    have upTo : text.takeWhile (· ≠ nul) = front := by
      have before_ : ∀ c ∈ front, decide (c ≠ nul) = true := fun c here =>
        decide_eq_true fun same => fresh (same ▸ here)
      rw [whole, List.takeWhile_append_of_pos before_]
      simp
    have leadFresh : nul ∉ lead := by
      have kept := visible_normalise (front ++ [nul])
      rw [first, visible_append, visible_append, List.append_left_inj] at kept
      intro here
      have shownThere : nul ∈ visible lead := List.mem_filter.mpr ⟨here, by decide⟩
      rw [kept] at shownThere
      exact fresh (List.mem_of_mem_filter shownThere)
    rw [NulBeyond, upTo, first, whole, all]
    generalize keptChars _ limit = kept
    have within : nul ∈ (lead ++ nul :: rest).take kept.toNat ↔ lead.length < kept.toNat := by
      constructor
      · intro here
        by_contra short
        rw [List.take_append_of_le_length (not_lt.mp short)] at here
        exact leadFresh (List.mem_of_mem_take here)
      · intro long
        obtain ⟨n, is⟩ : ∃ n, kept.toNat - lead.length = n + 1 := ⟨kept.toNat - lead.length - 1, by omega⟩
        rw [List.take_append, is, List.take_succ_cons]
        exact List.mem_append_right _ List.mem_cons_self
    rw [within, List.length_append, List.length_singleton]
    constructor
    · intro clean _
      omega
    · intro beyond
      have bound := beyond (List.mem_append_right _ List.mem_cons_self)
      omega
  · refine iff_of_true (fun here => among ?_) fun impossible => absurd impossible among
    exact mem_normalise_nul.mp (List.mem_of_mem_take here)

theorem scalar_ne_nul {n : Nat} (positive : 0 < n) (valid : n.isValidChar) : scalar n ≠ nul := by
  intro same
  have code := congrArg Char.toNat same
  have zero : nul.toNat = 0 := by decide
  rw [scalar, Char.ofNat, dif_pos valid, zero] at code
  exact absurd code positive.ne'

theorem high_ne_zero {b : UInt8} (high : ¬b < 0x80) : b ≠ 0 := by
  rintro rfl
  exact high (by decide)

theorem continuation_ne_zero {b : UInt8} (is : continuation b = true) : b ≠ 0 := by
  rintro rfl
  cases is

theorem decodeUtf8_nul {data : Bytes} {text : Text} (decoded : decodeUtf8 data = some text) :
    nul ∈ text ↔ 0 ∈ data := by
  induction data using decodeUtf8.induct generalizing text with
  | case1 =>
    cases decoded
    simp
  | case2 b₀ rest ascii ih =>
    rw [decodeUtf8.eq_def] at decoded
    simp only [ascii, if_true, Option.map_eq_map, Option.map_eq_some_iff] at decoded
    obtain ⟨later, decodedRest, rfl⟩ := decoded
    have first : nul = scalar b₀.toNat ↔ 0 = b₀ := by
      have all : ∀ n < 128, nul = scalar n ↔ 0 = UInt8.ofNat n := by decide +kernel
      simpa only [UInt8.ofNat_toNat] using all b₀.toNat (UInt8.lt_iff_toNat_lt.mp ascii)
    rw [List.mem_cons, List.mem_cons, ih decodedRest, first]
  | case4 b₀ high b₁ rest two cont ih =>
    rw [decodeUtf8.eq_def] at decoded
    simp only [high, two, cont, if_true, if_false, Option.map_eq_map, Option.map_eq_some_iff] at decoded
    obtain ⟨later, decodedRest, rfl⟩ := decoded
    have zeros := high_ne_zero high
    have zeros₁ := continuation_ne_zero cont
    simp only [continuation, Bool.and_eq_true, decide_eq_true_eq, UInt8.le_iff_toNat_le,
      UInt8.reduceToNat] at two cont
    have shown : scalar ((b₀.toNat - 0xC0) * 64 + (b₁.toNat - 0x80)) ≠ nul :=
      scalar_ne_nul (by omega) (.inl (by omega))
    simp [shown.symm, zeros.symm, zeros₁.symm, ih decodedRest]
  | case7 b₀ high b₁ other b₂ rest three cont ih =>
    rw [decodeUtf8.eq_def] at decoded
    simp only [high, other, three, cont, if_true, if_false, Bool.false_eq_true, Option.map_eq_map,
      Option.map_eq_some_iff] at decoded
    obtain ⟨later, decodedRest, rfl⟩ := decoded
    simp only [Bool.and_eq_true, Bool.or_eq_true, decide_eq_true_eq] at cont
    have zeros := high_ne_zero high
    have zeros₁ := continuation_ne_zero cont.1.1.1
    have zeros₂ := continuation_ne_zero cont.1.1.2
    simp only [continuation, Bool.and_eq_true, decide_eq_true_eq, UInt8.le_iff_toNat_le, ne_eq,
      ← UInt8.toNat_inj, UInt8.reduceToNat] at three cont
    have shown : scalar ((b₀.toNat - 0xE0) * 4096 + (b₁.toNat - 0x80) * 64 + (b₂.toNat - 0x80)) ≠ nul := by
      refine scalar_ne_nul (by omega) ?_
      have range : (b₀.toNat - 0xE0) * 4096 + (b₁.toNat - 0x80) * 64 + (b₂.toNat - 0x80) < 0xD800 ∨
          0xDFFF < (b₀.toNat - 0xE0) * 4096 + (b₁.toNat - 0x80) * 64 + (b₂.toNat - 0x80) := by omega
      exact range.imp_right fun low => ⟨low, by omega⟩
    simp [shown.symm, zeros.symm, zeros₁.symm, zeros₂.symm, ih decodedRest]
  | case10 b₀ high b₁ other b₂ other' b₃ rest four ih =>
    rw [decodeUtf8.eq_def] at decoded
    simp only [high, other, other', four, if_true, if_false, Bool.false_eq_true, Option.map_eq_map,
      Option.map_eq_some_iff] at decoded
    obtain ⟨later, decodedRest, rfl⟩ := decoded
    simp only [Bool.and_eq_true, Bool.or_eq_true, decide_eq_true_eq] at four
    have zeros := high_ne_zero high
    have zeros₁ := continuation_ne_zero four.1.1.1.1.2
    have zeros₂ := continuation_ne_zero four.1.1.1.2
    have zeros₃ := continuation_ne_zero four.1.1.2
    simp only [continuation, Bool.and_eq_true, decide_eq_true_eq, UInt8.le_iff_toNat_le, ne_eq,
      ← UInt8.toNat_inj, UInt8.reduceToNat] at four
    have shown : scalar ((b₀.toNat - 0xF0) * 262144 + (b₁.toNat - 0x80) * 4096 +
        (b₂.toNat - 0x80) * 64 + (b₃.toNat - 0x80)) ≠ nul :=
      scalar_ne_nul (by omega) (.inr ⟨by omega, by omega⟩)
    simp [shown.symm, zeros.symm, zeros₁.symm, zeros₂.symm, zeros₃.symm, ih decodedRest]
  -- the bytes of the other cases do not decode
  | case3 b₀ high => simp [decodeUtf8.eq_def, high] at decoded
  | case5 b₀ high b₁ rest two cont =>
    rw [decodeUtf8.eq_def] at decoded
    simp [high, two, cont] at decoded
  | case6 b₀ high b₁ other =>
    rw [decodeUtf8.eq_def] at decoded
    simp only [high, other, if_false, Bool.false_eq_true] at decoded
    cases decoded
  | case8 b₀ high b₁ other b₂ rest three cont =>
    rw [decodeUtf8.eq_def] at decoded
    simp only [high, other, three, cont, if_true, if_false, Bool.false_eq_true] at decoded
    cases decoded
  | case9 b₀ high b₁ other b₂ other' =>
    rw [decodeUtf8.eq_def] at decoded
    simp only [high, other, other', if_false, Bool.false_eq_true] at decoded
    cases decoded
  | case11 b₀ high b₁ other b₂ other' b₃ rest four =>
    rw [decodeUtf8.eq_def] at decoded
    simp only [high, other, other', four, if_false, Bool.false_eq_true] at decoded
    cases decoded

theorem decodeUtf8Sig_nul {data : Bytes} {text : Text} (decoded : decodeUtf8Sig data = some text) :
    nul ∈ text ↔ 0 ∈ data := by
  rw [decodeUtf8Sig] at decoded
  split at decoded
  · rename_i marked
    obtain ⟨rest, rfl⟩ := marked
    have dropped : ([0xEF, 0xBB, 0xBF] ++ rest).drop 3 = rest := rfl
    rw [dropped] at decoded
    rw [decodeUtf8_nul decoded]
    simp
  · exact decodeUtf8_nul decoded

theorem validateUpload_utf8 {unicode : Unicode} {settings : UploadSettings} {filename contentType : Option Text}
    {data : Bytes} {name : Text}
    (accepted : validateUpload unicode settings filename contentType data = .ok (name, ".txt".toList)) :
    (decodeUtf8 data).isSome = true := by
  simp only [validateUpload, bind, Except.bind, pure, Except.pure] at accepted
  repeat' split at accepted
  all_goals cases accepted
  rename_i checked
  obtain ⟨matches_, -⟩ | ⟨-, _, _, refused⟩ := validateMagicBytes_decides ".txt".toList data
  · exact matches_.1 rfl
  · cases checked.symm.trans refused

end Storing

/-- An accepted document is stored without U+0000 exactly when none of its zero
bytes is within what is stored. -/
theorem stores_clean_iff (unicode : Unicode) (settings : UploadSettings) (filename contentType : Option Text)
    (data : Bytes) (name : Text)
    (accepted : validateUpload unicode settings filename contentType data = .ok (name, ".txt".toList))
    (parsers : Parsers) (lower : Text → Text) (isTxt : lower ".txt".toList = ".txt".toList) (limit : Int) :
    ∃ text, decodeUtf8Sig data = some text ∧ (nul ∈ text ↔ 0 ∈ data) ∧
      (StoresClean parsers lower data limit ↔ NulBeyond text limit) := by
  have valid := validateUpload_utf8 accepted
  rw [← decodeUtf8Sig_isSome] at valid
  obtain ⟨text, decoded⟩ := Option.isSome_iff_exists.mp valid
  refine ⟨text, decoded, decodeUtf8Sig_nul decoded, ?_⟩
  have extracted : extractText parsers lower data ".txt" =
      if normalise text = [] then .error (emptyDocument ".txt") else .ok (normalise text) := by
    have registered : extractor parsers ".txt".toList = some extractTxt := rfl
    rw [extractText, isTxt, registered]
    simp only [extractTxt, decoded, bind, Except.bind]
    split <;> rfl
  rw [StoresClean, extracted, ← stored_clean_iff]
  by_cases none_ : normalise text = []
  · rw [if_pos none_, none_]
    refine iff_of_true (.inl rfl) ?_
    rw [truncate_eq_take]
    simp
  · rw [if_neg none_]
    constructor
    · rintro (impossible | ⟨_, same, clean⟩)
      · cases impossible
      · cases same
        exact clean
    · exact fun clean => .inr ⟨_, rfl, clean⟩

def noParsers : Parsers where
  pdfPages _ := .error .named
  docx _ := .error .named

theorem stores_clean_cut : ∃ text, decodeUtf8Sig [97, 0, 98] = some text ∧
    (nul ∈ text ↔ 0 ∈ ([97, 0, 98] : Bytes)) ∧
    (StoresClean noParsers (List.map Char.toLower) [97, 0, 98] 1 ↔ NulBeyond text 1) :=
  stores_clean_iff asciiUnicode {} (some "a.txt".toList) (some "text/plain".toList) [97, 0, 98] "a.txt".toList
    (by decide +kernel) noParsers (List.map Char.toLower) (by decide) 1

/-- A zero byte passes the gate, the decoder and the normalisation. -/
theorem zero_byte_stored : ¬((validateUpload asciiUnicode {} (some "a.txt".toList) (some "text/plain".toList)
    [97, 0, 98]).isOk = true → StoresClean noParsers (List.map Char.toLower) [97, 0, 98] 20000) := by
  have accepted : (validateUpload asciiUnicode {} (some "a.txt".toList) (some "text/plain".toList)
      [97, 0, 98]).isOk = true := by decide +kernel
  have extracted : extractText noParsers (List.map Char.toLower) [97, 0, 98] ".txt" = .ok ['a', nul, 'b'] := by
    decide +kernel
  intro clean
  obtain empty_ | ⟨text, same, absent⟩ := clean accepted
  · cases extracted.symm.trans empty_
  · cases extracted.symm.trans same
    exact absent (by decide)

end DocumentPipeline.TextExtraction

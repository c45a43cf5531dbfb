import DocumentPipeline.UploadGate
import DocumentPipeline.StorageKeys
import Mathlib.Data.List.Chain

/-! Sanitized filenames. What is left of a client's name is plain ASCII without
separators of a path; a name over the limit is cut, and the cut keeps the file
type unless the part after the last dot is long. -/

namespace DocumentPipeline.FileValidation
open PyText

def Separated (name : Text) : Prop :=
  name.IsChain fun a b => ¬(isSeparator a = true ∧ isSeparator b = true)

structure SafeName (name : Text) : Prop where
  nonempty : name ≠ []
  within : name.length ≤ maxFilenameLength
  chars : ∀ c ∈ name, c.isAlphanum = true ∨ c ∈ ['.', '_', ' ', '-']
  noPathSeparator : '/' ∉ name ∧ '\\' ∉ name
  noControl : ∀ c ∈ name, 32 ≤ c.toNat ∧ c.toNat < 127
  visible : name.head? ≠ some '.'
  noDots : name ≠ ['.'] ∧ name ≠ ['.', '.']
  separated : Separated name

section Separators

theorem dot_not_separator : isSeparator '.' = false := by decide

theorem Separated.cons {c : Char} {name : Text} (other : isSeparator c = false) (h : Separated name) :
    Separated (c :: name) := by
  refine List.isChain_cons.mpr ⟨fun b _ both => ?_, h⟩
  rw [other] at both
  exact Bool.noConfusion both.1

theorem Separated.append_cons {c : Char} {stem rest : Text} (other : isSeparator c = false)
    (first : Separated stem) (later : Separated rest) : Separated (stem ++ c :: rest) := by
  refine List.IsChain.append first (later.cons other) fun a _ b head both => ?_
  obtain rfl : c = b := Option.some.inj head
  rw [other] at both
  exact Bool.noConfusion both.2

theorem short_cases {run : Text} (short : run.length < 2) : run = [] ∨ ∃ c, run = [c] := by
  cases run with
  | nil => exact .inl rfl
  | cons c rest =>
    refine .inr ⟨c, ?_⟩
    rw [List.length_cons] at short
    rw [List.length_eq_zero_iff.mp (by omega : rest.length = 0)]

theorem separatorRun_separated (run : Text) : Separated (separatorRun run) := by
  simp only [separatorRun]
  split
  · rename_i short
    obtain rfl | ⟨c, rfl⟩ := short_cases short
    · exact List.IsChain.nil
    · exact List.IsChain.singleton c
  · exact List.IsChain.singleton '_'

theorem collapseSeparators_separated (run text : Text) : Separated (collapseSeparators run text) := by
  induction text generalizing run with
  | nil => exact separatorRun_separated run
  | cons c rest ih =>
    simp only [collapseSeparators]
    split
    · exact ih (c :: run)
    · rename_i other
      exact .append_cons (Bool.not_eq_true _ ▸ other) (separatorRun_separated run) (ih [])

theorem separatorRun_safe {run : Text} (safe : ∀ c ∈ run, isSafeChar c = true) :
    ∀ c ∈ separatorRun run, isSafeChar c = true := by
  intro c among
  simp only [separatorRun] at among
  split at among
  · exact safe c among
  · rw [List.mem_singleton.mp among]
    decide

theorem collapseSeparators_safe {run text : Text} (hrun : ∀ c ∈ run, isSafeChar c = true)
    (htext : ∀ c ∈ text, isSafeChar c = true) : ∀ c ∈ collapseSeparators run text, isSafeChar c = true := by
  induction text generalizing run with
  | nil => exact separatorRun_safe hrun
  | cons c rest ih =>
    have first := htext c List.mem_cons_self
    have later : ∀ c ∈ rest, isSafeChar c = true := fun c among => htext c (List.mem_cons_of_mem _ among)
    simp only [collapseSeparators]
    split
    · refine ih (fun c' among => ?_) later
      obtain rfl | earlier := List.mem_cons.mp among
      · exact first
      · exact hrun c' earlier
    · intro c' among
      obtain separators | rfl | after := by simpa only [List.mem_append, List.mem_cons] using among
      · exact separatorRun_safe hrun c' separators
      · exact first
      · exact ih (fun _ among => by cases among) later c' after

theorem separatorRun_head {run : Text} (separators : ∀ c ∈ run, isSeparator c = true) (rest : Text)
    (head : run = [] → rest.head? ≠ some '.') : (separatorRun run ++ rest).head? ≠ some '.' := by
  simp only [separatorRun]
  split
  · rename_i short
    obtain rfl | ⟨c, rfl⟩ := short_cases short
    · exact head rfl
    · intro dot
      obtain rfl : c = '.' := Option.some.inj dot
      have impossible := separators '.' List.mem_cons_self
      rw [dot_not_separator] at impossible
      cases impossible
  · exact fun dot => by cases dot

theorem collapseSeparators_head {run text : Text} (separators : ∀ c ∈ run, isSeparator c = true)
    (head : run = [] → text.head? ≠ some '.') : (collapseSeparators run text).head? ≠ some '.' := by
  induction text generalizing run with
  | nil =>
    have alone := separatorRun_head separators [] (fun _ dot => by cases dot)
    rwa [List.append_nil] at alone
  | cons c rest ih =>
    simp only [collapseSeparators]
    split
    · rename_i separator
      refine ih (fun c' among => ?_) (fun impossible => by cases impossible)
      obtain rfl | earlier := List.mem_cons.mp among
      · exact separator
      · exact separators c' earlier
    · exact separatorRun_head separators _ fun none_ => head none_

end Separators

section Cleaning
variable (unicode : Unicode)

def replaceUnsafe (name : Text) : Text := name.map fun c => if isSafeChar c then c else '_'

theorem replaceUnsafe_safe (name : Text) : ∀ c ∈ replaceUnsafe name, isSafeChar c = true := by
  intro c among
  obtain ⟨c', -, rfl⟩ := List.mem_map.mp among
  split
  · assumption
  · decide

theorem cleanFilename_safe (filename : Text) : ∀ c ∈ cleanFilename unicode filename, isSafeChar c = true :=
  collapseSeparators_safe (fun _ among => by cases among) fun c among =>
    replaceUnsafe_safe _ c (stripBy_subset _ _ among)

theorem cleanFilename_separated (filename : Text) : Separated (cleanFilename unicode filename) :=
  collapseSeparators_separated [] _

theorem cleanFilename_head (filename : Text) : (cleanFilename unicode filename).head? ≠ some '.' := by
  refine collapseSeparators_head (fun _ among => by cases among) fun _ dot => ?_
  have stripped := stripBy_head dot
  simp at stripped

theorem shortenFilename_cases (name : Text) :
    (name.length ≤ maxFilenameLength ∧ shortenFilename name = name) ∨
    (∃ stem last, name = stem ++ '.' :: last ∧ '.' ∉ last ∧ stem ≠ [] ∧ last.length ≤ 10 ∧
      maxFilenameLength < name.length ∧
      shortenFilename name = stem.take (maxFilenameLength - last.length - 1) ++ '.' :: last) ∨
    (maxFilenameLength < name.length ∧ shortenFilename name = name.take maxFilenameLength ∧
      ('.' ∈ name → ∃ stem last, name = stem ++ '.' :: last ∧ '.' ∉ last ∧ (stem = [] ∨ 10 < last.length))) := by
  by_cases long : maxFilenameLength < name.length
  · by_cases dotted : '.' ∈ name
    · obtain ⟨stem, last, is, absent⟩ := exists_rpartition dotted
      have parts : rpartition '.' name = (stem, last) := by rw [is, rpartition_append absent]
      by_cases short : stem ≠ [] ∧ last.length ≤ 10
      · refine .inr (.inl ⟨stem, last, is, absent, short.1, short.2, long, ?_⟩)
        rw [shortenFilename, if_pos long, parts]
        exact if_pos short
      · refine .inr (.inr ⟨long, ?_, fun _ => ⟨stem, last, is, absent, ?_⟩⟩)
        · rw [shortenFilename, if_pos long, parts]
          exact if_neg short
        · by_cases none_ : stem = []
          · exact .inl none_
          · exact .inr (not_le.mp fun small => short ⟨none_, small⟩)
    · refine .inr (.inr ⟨long, ?_, fun among => absurd among dotted⟩)
      rw [shortenFilename, if_pos long, rpartition_absent dotted]
      rfl
  · refine .inl ⟨not_lt.mp long, ?_⟩
    rw [shortenFilename, if_neg long]

theorem shortenFilename_length (name : Text) : (shortenFilename name).length ≤ maxFilenameLength := by
  obtain ⟨short, same⟩ | ⟨stem, last, -, -, -, small, -, same⟩ | ⟨-, same, -⟩ := shortenFilename_cases name
  · rwa [same]
  · rw [same, List.length_append, List.length_take, List.length_cons]
    have limit : maxFilenameLength = 200 := rfl
    omega
  · rw [same, List.length_take]
    exact min_le_left _ _

theorem shortenFilename_subset (name : Text) : shortenFilename name ⊆ name := by
  obtain ⟨-, same⟩ | ⟨stem, last, is, -, -, -, -, same⟩ | ⟨-, same, -⟩ := shortenFilename_cases name
  · rw [same]
    exact List.Subset.refl name
  · rw [same, is]
    exact List.append_subset.mpr ⟨fun c among => List.mem_append_left _ (List.mem_of_mem_take among),
      List.subset_append_right _ _⟩
  · rw [same]
    exact List.take_subset _ name

theorem shortenFilename_separated {name : Text} (h : Separated name) : Separated (shortenFilename name) := by
  obtain ⟨-, same⟩ | ⟨stem, last, rfl, -, -, -, -, same⟩ | ⟨-, same, -⟩ := shortenFilename_cases name
  · rwa [same]
  · rw [same]
    have first : Separated stem := List.IsChain.left_of_append h
    have later : Separated ('.' :: last) := List.IsChain.right_of_append h
    refine .append_cons dot_not_separator ?_ (List.isChain_cons.mp later).2
    exact List.IsChain.left_of_append (List.take_append_drop _ stem ▸ first)
  · rw [same]
    exact List.IsChain.left_of_append (List.take_append_drop _ name ▸ h)

theorem shortenFilename_head {name : Text} (some_ : name ≠ []) :
    (shortenFilename name).head? = name.head? := by
  obtain ⟨-, same⟩ | ⟨stem, last, rfl, -, nonempty, small, -, same⟩ | ⟨-, same, -⟩ :=
    shortenFilename_cases name
  · rw [same]
  · have limit : maxFilenameLength = 200 := rfl
    have positive : maxFilenameLength - last.length - 1 ≠ 0 := by omega
    rw [same, List.head?_append, List.head?_append, List.head?_take, if_neg positive]
  · rw [same, List.head?_take, if_neg (by decide)]

theorem safeChar_printable {c : Char} (safe : isSafeChar c = true) :
    c ≠ '/' ∧ c ≠ '\\' ∧ 32 ≤ c.toNat ∧ c.toNat < 127 := by
  have ascii : c.toNat < 128 := by
    have spelled : isSafeChar c = ((decide (c.val ≥ 65 ∧ c.val ≤ 90) ||
        decide (c.val ≥ 97) && decide (c.val ≤ 122)) || decide (c.val ≥ 48) && decide (c.val ≤ 57) ||
        decide (c ∈ ['.', '_', ' ', '-'])) := rfl
    simp only [spelled, Bool.or_eq_true, decide_eq_true_eq, List.mem_cons, List.not_mem_nil, or_false,
      Bool.and_eq_true, UInt32.le_iff_toNat_le, ge_iff_le] at safe
    obtain ((⟨-, upper⟩ | ⟨-, upper⟩) | ⟨-, upper⟩) | (rfl | rfl | rfl | rfl) := safe
    all_goals first | decide | exact lt_of_le_of_lt upper (by decide)
  have all : ∀ n < 128, isSafeChar (Char.ofNat n) = true → Char.ofNat n ≠ '/' ∧ Char.ofNat n ≠ '\\' ∧
      32 ≤ (Char.ofNat n).toNat ∧ (Char.ofNat n).toNat < 127 := by decide +kernel
  simpa only [Char.ofNat_toNat] using all c.toNat ascii (by rwa [Char.ofNat_toNat])

theorem SafeName.of_cleaned {name : Text} (nonempty : name ≠ []) (within : name.length ≤ maxFilenameLength)
    (safe : ∀ c ∈ name, isSafeChar c = true) (visible : name.head? ≠ some '.')
    (separated : Separated name) : SafeName name where
  nonempty := nonempty
  within := within
  chars c among := by simpa [isSafeChar] using safe c among
  noPathSeparator := ⟨fun among => (safeChar_printable (safe _ among)).1 rfl,
    fun among => (safeChar_printable (safe _ among)).2.1 rfl⟩
  noControl c among := (safeChar_printable (safe c among)).2.2
  visible := visible
  noDots := ⟨fun dot => visible (by rw [dot]; rfl), fun dots => visible (by rw [dots]; rfl)⟩
  separated := separated

theorem sanitizeFilename_cases (filename : Option Text) : sanitizeFilename unicode filename = fallbackFilename ∨
    ∃ given, cleanFilename unicode given ≠ [] ∧
      sanitizeFilename unicode filename = shortenFilename (cleanFilename unicode given) := by
  unfold sanitizeFilename
  split
  · exact .inl rfl
  · exact .inl rfl
  · rename_i given _
    dsimp only
    split
    · exact .inl rfl
    · rename_i some_
      exact .inr ⟨given, some_, rfl⟩

theorem sanitizeFilename_length (filename : Option Text) :
    (sanitizeFilename unicode filename).length ≤ maxFilenameLength := by
  obtain fallback | ⟨given, -, same⟩ := sanitizeFilename_cases unicode filename
  · rw [fallback]
    decide
  · rw [same]
    exact shortenFilename_length _

theorem sanitizeFilename_plain (filename : Option Text) : '/' ∉ sanitizeFilename unicode filename := by
  obtain fallback | ⟨given, -, same⟩ := sanitizeFilename_cases unicode filename
  · rw [fallback]
    decide
  · rw [same]
    exact fun among => (safeChar_printable
      (cleanFilename_safe unicode given _ (shortenFilename_subset _ among))).1 rfl

theorem fallbackFilename_safe : SafeName fallbackFilename := by
  have nonempty : fallbackFilename ≠ [] := by decide
  have within : fallbackFilename.length ≤ maxFilenameLength := by decide
  have safe : fallbackFilename.all isSafeChar = true := by decide
  have visible : fallbackFilename.head? ≠ some '.' := by decide
  have separated : Separated fallbackFilename := by
    unfold Separated
    decide
  exact .of_cleaned nonempty within (List.all_eq_true.mp safe) visible separated

end Cleaning

/-- Every name that leaves the sanitizer is safe, whatever NFKD does to a name. -/
theorem sanitizeFilename_safe (unicode : Unicode) (filename : Option Text) :
    SafeName (sanitizeFilename unicode filename) := by
  obtain fallback | ⟨given, some_, same⟩ := sanitizeFilename_cases unicode filename
  · rw [fallback]
    exact fallbackFilename_safe
  · rw [same]
    have head := shortenFilename_head some_
    refine .of_cleaned ?_ (shortenFilename_length _)
      (fun c among => cleanFilename_safe unicode given c (shortenFilename_subset _ among)) ?_
      (shortenFilename_separated (cleanFilename_separated unicode given))
    · intro none_
      rw [none_, List.head?_nil] at head
      exact some_ (List.head?_eq_none_iff.mp head.symm)
    · rw [head]
      exact cleanFilename_head unicode given

example : sanitizeFilename asciiUnicode (some "../in;rm -rf $(pwd).pdf".toList) =
    "in_rm_rf_pwd_.pdf".toList := by decide +kernel

def lastPart (name : Text) : Text := (rpartition '.' name).2

/-- A result that is taken for the type of file the name is taken for. -/
def KeepsFileType (unicode : Unicode) (name result : Text) : Prop :=
  extractExtension unicode result = extractExtension unicode name ∧
    ∀ settings, (validateExtension unicode settings result).isOk =
      (validateExtension unicode settings name).isOk

/-- The last part is whole after the cut, or the cut ends in a part that reads like it. -/
def CutKeeps (unicode : Unicode) (name : Text) : Prop :=
  name.length ≤ maxFilenameLength ∨ '.' ∉ name ∨ (lastPart name).length ≤ 10 ∨
    (maxFilenameLength + (lastPart name).length < name.length ∧ '.' ∈ name.take maxFilenameLength ∧
      unicode.lower (lastPart (name.take maxFilenameLength)) = unicode.lower (lastPart name))

section FileType
variable {unicode : Unicode}

theorem lastPart_append {stem last : Text} (absent : '.' ∉ last) : lastPart (stem ++ '.' :: last) = last := by
  rw [lastPart, rpartition_append absent]

theorem suffix_plain {name : Text} (plain : '/' ∉ name) (proper : name ≠ ['.']) :
    (FileStorage.suffix (String.ofList name)).toList =
      if lastPart name ≠ [] ∧ (lastPart name).length + 1 < name.length then '.' :: lastPart name else [] := by
  have tail : (name.reverse.takeWhile (· ≠ '.')).reverse = lastPart name := by
    rw [lastPart, rpartition]
    split
    · rfl
    · rename_i absent
      have all : ∀ c ∈ name.reverse, decide (c ≠ '.') = true := fun c among =>
        decide_eq_true fun same => absent (List.mem_reverse.mp (same ▸ among))
      rw [List.takeWhile_eq_self_iff.mpr all, List.reverse_reverse]
  have only : (((name.splitOn '/').filter fun part => part ≠ [] ∧ part ≠ ['.']).getLast?).getD [] = name := by
    rw [List.splitOn_eq_singleton plain]
    by_cases some_ : name = []
    · rw [some_]
      rfl
    · simp [some_, proper]
  simp only [FileStorage.suffix, String.toList_ofList, only, tail]
  split <;> simp

theorem extractExtension_undotted {name : Text} (plain : '/' ∉ name) (undotted : '.' ∉ name) :
    extractExtension unicode name = unicode.lower [] := by
  have proper : name ≠ ['.'] := fun dot => undotted (by rw [dot]; exact List.mem_cons_self)
  have whole : lastPart name = name := by rw [lastPart, rpartition_absent undotted]
  rw [extractExtension, suffix_plain plain proper, whole, if_neg (by omega)]

theorem extractExtension_dotted {stem last : Text} (plain : '/' ∉ stem ++ '.' :: last)
    (absent : '.' ∉ last) (some_ : stem ≠ []) : extractExtension unicode (stem ++ '.' :: last) =
      unicode.lower (if last = [] then [] else '.' :: last) := by
  have positive := List.length_pos_iff.mpr some_
  have proper : stem ++ '.' :: last ≠ ['.'] := by
    intro dot
    have length := congrArg List.length dot
    simp only [List.length_append, List.length_cons, List.length_nil] at length
    omega
  rw [extractExtension, suffix_plain plain proper, lastPart_append absent]
  have longer : last.length + 1 < (stem ++ '.' :: last).length := by
    rw [List.length_append, List.length_cons]
    omega
  by_cases none_ : last = []
  · rw [if_pos none_, if_neg fun both => both.1 none_]
  · rw [if_neg none_, if_pos ⟨none_, longer⟩]

theorem KeepsFileType.of_extension {name result : Text}
    (same : extractExtension unicode result = extractExtension unicode name) :
    KeepsFileType unicode name result :=
  ⟨same, fun settings => by simp only [validateExtension, same]⟩

theorem lower_dotted (ascii : unicode.LowersAscii) {part : Text} (plain : IsAscii part) :
    unicode.lower ('.' :: part) = '.' :: unicode.lower part := by
  have dotted : IsAscii ('.' :: part) := fun c among => by
    obtain rfl | later := List.mem_cons.mp among
    · decide
    · exact plain c later
  rw [ascii _ dotted, ascii _ plain]
  rfl

theorem lower_length (ascii : unicode.LowersAscii) {part : Text} (plain : IsAscii part) :
    (unicode.lower part).length = part.length := by
  rw [ascii _ plain, List.length_map]

theorem cut_keeps_iff (ascii : unicode.LowersAscii) {stem last : Text} (absent : '.' ∉ last)
    (visible : stem ≠ []) (head : (stem ++ '.' :: last).head? ≠ some '.')
    (plain : '/' ∉ stem ++ '.' :: last) (plainAscii : IsAscii (stem ++ '.' :: last))
    (long : maxFilenameLength < (stem ++ '.' :: last).length) (ext : 10 < last.length) :
    extractExtension unicode ((stem ++ '.' :: last).take maxFilenameLength) =
        extractExtension unicode (stem ++ '.' :: last) ↔
      maxFilenameLength + last.length < (stem ++ '.' :: last).length ∧
        '.' ∈ (stem ++ '.' :: last).take maxFilenameLength ∧
        unicode.lower (lastPart ((stem ++ '.' :: last).take maxFilenameLength)) = unicode.lower last := by
  have lastAscii : IsAscii last := fun c among =>
    plainAscii c (List.mem_append_right _ (List.mem_cons_of_mem _ among))
  have nonempty : last ≠ [] := fun none_ => by rw [none_] at ext; cases ext
  have whole : extractExtension unicode (stem ++ '.' :: last) = '.' :: unicode.lower last := by
    rw [extractExtension_dotted plain absent visible, if_neg nonempty, lower_dotted ascii lastAscii]
  have nothing : unicode.lower [] = [] := ascii [] fun _ among => by cases among
  have cutPlain : '/' ∉ (stem ++ '.' :: last).take maxFilenameLength := fun among =>
    plain (List.mem_of_mem_take among)
  by_cases dotted : '.' ∈ (stem ++ '.' :: last).take maxFilenameLength
  · obtain ⟨stem', part, is, absent'⟩ := exists_rpartition dotted
    have partAscii : IsAscii part := fun c among => plainAscii c (List.mem_of_mem_take
      (is ▸ List.mem_append_right _ (List.mem_cons_of_mem _ among)))
    have visible' : stem' ≠ [] := by
      rintro rfl
      have first : ((stem ++ '.' :: last).take maxFilenameLength).head? = some '.' := by rw [is]; rfl
      rw [List.head?_take, if_neg (by decide)] at first
      exact head first
    rw [is] at cutPlain
    rw [whole, is, lastPart_append absent', extractExtension_dotted cutPlain absent' visible']
    constructor
    · intro same
      have partLower : unicode.lower part = unicode.lower last := by
        split at same
        · rw [nothing] at same
          cases same
        · rw [lower_dotted ascii partAscii] at same
          exact (List.cons.inj same).2
      refine ⟨?_, by simp, partLower⟩
      -- a dot before the cut would leave the cut part shorter than the whole
      by_contra short
      have before_ : stem.length < maxFilenameLength := by
        rw [List.length_append, List.length_cons] at short
        omega
      have cutPart : part = last.take (maxFilenameLength - stem.length - 1) := by
        have parts := congrArg lastPart is
        obtain ⟨n, more⟩ : ∃ n, maxFilenameLength - stem.length = n + 1 :=
          ⟨maxFilenameLength - stem.length - 1, by omega⟩
        rw [lastPart_append absent', List.take_append, List.take_of_length_le before_.le, more,
          List.take_succ_cons, lastPart_append fun among => absent (List.mem_of_mem_take among)] at parts
        rw [more, Nat.add_sub_cancel]
        exact parts.symm
      have lengths := congrArg List.length partLower
      rw [lower_length ascii partAscii, lower_length ascii lastAscii, cutPart, List.length_take] at lengths
      rw [List.length_append, List.length_cons] at long
      omega
    · rintro ⟨-, -, same⟩
      have some_ : part ≠ [] := by
        rintro rfl
        have lengths := congrArg List.length same
        rw [nothing, lower_length ascii lastAscii, List.length_nil] at lengths
        omega
      rw [if_neg some_, lower_dotted ascii partAscii, same]
  · refine iff_of_false (fun same => ?_) fun both => dotted both.2.1
    rw [whole, extractExtension_undotted cutPlain dotted, nothing] at same
    cases same

end FileType

/-- The cut keeps the file type of a cleaned name exactly when it keeps its last part. -/
theorem keepsFileType_iff (unicode : Unicode) (ascii : unicode.LowersAscii) (filename : Text)
    (given : filename ≠ []) :
    KeepsFileType unicode (cleanFilename unicode filename) (sanitizeFilename unicode (some filename)) ↔
      CutKeeps unicode (cleanFilename unicode filename) := by
  have safe := cleanFilename_safe unicode filename
  have plainAscii : IsAscii (cleanFilename unicode filename) := cleanFilename_ascii filename
  have head := cleanFilename_head unicode filename
  have sanitized : sanitizeFilename unicode (some filename) =
      if cleanFilename unicode filename = [] then fallbackFilename
      else shortenFilename (cleanFilename unicode filename) := by
    cases filename with
    | nil => exact absurd rfl given
    | cons c rest => rfl
  rw [sanitized]
  generalize cleanFilename unicode filename = name at safe plainAscii head
  have plain : '/' ∉ name := fun among => (safeChar_printable (safe _ among)).1 rfl
  split
  · rename_i none_
    subst none_
    refine iff_of_true (.of_extension ?_) (.inl (Nat.zero_le _))
    rw [extractExtension_undotted (by decide) (by decide), extractExtension_undotted plain List.not_mem_nil]
  · obtain ⟨short, same⟩ | ⟨stem, last, rfl, absent, visible, small, long, same⟩ | ⟨long, same, parts⟩ :=
      shortenFilename_cases name
    · rw [same]
      exact iff_of_true (.of_extension rfl) (.inl short)
    · rw [same]
      refine iff_of_true (.of_extension ?_) (.inr (.inr (.inl (by rwa [lastPart_append absent]))))
      have limit : maxFilenameLength = 200 := rfl
      have kept : stem.take (maxFilenameLength - last.length - 1) ≠ [] := by
        rw [Ne, List.take_eq_nil_iff, not_or]
        exact ⟨by omega, visible⟩
      have plain' : '/' ∉ stem.take (maxFilenameLength - last.length - 1) ++ '.' :: last := fun among =>
        plain ((List.append_subset.mpr ⟨fun c among => List.mem_append_left _ (List.mem_of_mem_take among),
          List.subset_append_right _ _⟩) among)
      rw [extractExtension_dotted plain' absent kept, extractExtension_dotted plain absent visible]
    · rw [same]
      by_cases dotted : '.' ∈ name
      · obtain ⟨stem, last, rfl, absent, which⟩ := parts dotted
        have visible : stem ≠ [] := by
          rintro rfl
          exact head rfl
        have ext : 10 < last.length := which.resolve_left visible
        have cut := cut_keeps_iff ascii absent visible head plain plainAscii long ext
        refine ⟨fun keeps => ?_, fun keeps => .of_extension (cut.mpr ?_)⟩
        · refine .inr (.inr (.inr ?_))
          rw [lastPart_append absent]
          exact cut.mp keeps.1
        · rw [CutKeeps, lastPart_append absent] at keeps
          obtain short | undotted | small | kept := keeps
          · omega
          · exact absurd dotted undotted
          · omega
          · exact kept
      · refine iff_of_true (.of_extension ?_) (.inr (.inl dotted))
        have undotted : '.' ∉ name.take maxFilenameLength := fun among =>
          dotted (List.mem_of_mem_take among)
        rw [extractExtension_undotted (fun among => plain (List.mem_of_mem_take among)) undotted,
          extractExtension_undotted plain dotted]

theorem keepsFileType_iff_pdf : KeepsFileType asciiUnicode
    (cleanFilename asciiUnicode (List.replicate 500 'a' ++ ".pdf".toList))
    (sanitizeFilename asciiUnicode (some (List.replicate 500 'a' ++ ".pdf".toList))) := by
  refine (keepsFileType_iff asciiUnicode (fun _ _ => rfl) (List.replicate 500 'a' ++ ".pdf".toList)
    (by decide)).mpr (.inr (.inr (.inl ?_)))
  decide +kernel

def renamedBinary : Text := List.replicate 196 'a' ++ '.' :: "pdf_renamed_binary".toList

theorem renamedBinary_accepted : ¬KeepsFileType asciiUnicode (cleanFilename asciiUnicode renamedBinary)
    (sanitizeFilename asciiUnicode (some renamedBinary)) := by
  have cleaned : cleanFilename asciiUnicode renamedBinary = renamedBinary := by decide +kernel
  have cut : sanitizeFilename asciiUnicode (some renamedBinary) =
      List.replicate 196 'a' ++ '.' :: "pdf".toList := by decide +kernel
  have refused : extractExtension asciiUnicode renamedBinary = ".pdf_renamed_binary".toList :=
    extractExtension_dotted (by decide) (by decide) (by decide)
  have accepted : extractExtension asciiUnicode (List.replicate 196 'a' ++ '.' :: "pdf".toList) =
      ".pdf".toList := extractExtension_dotted (by decide) (by decide) (by decide)
  intro keeps
  have same := keeps.2 {}
  rw [cleaned, cut] at same
  simp only [validateExtension, refused, accepted] at same
  revert same
  decide +kernel

end DocumentPipeline.FileValidation

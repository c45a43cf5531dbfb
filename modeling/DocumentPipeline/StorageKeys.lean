import DocumentPipeline.FileValidation
import Mathlib.Data.Bool.AllAny
import Mathlib.Data.List.TakeWhile

/-! Storage keys name their file: the last segment of a resolved key gives back
the UUID it was made from, and its suffix is the extension. -/

namespace DocumentPipeline
open PyText

section Digits

theorem mem_toDigits {n : Nat} {c : Char} (h : c ∈ Nat.toDigits 16 n) : ∃ d < 16, c = Nat.digitChar d := by
  induction n using Nat.strong_induction_on with
  | h n ih =>
    rw [Nat.toDigits_eq_if (by omega)] at h
    split at h
    · rename_i small
      exact ⟨n, small, List.mem_singleton.mp h⟩
    · obtain earlier | last := List.mem_append.mp h
      · exact ih (n / 16) (Nat.div_lt_self (by omega) (by omega)) earlier
      · exact ⟨n % 16, Nat.mod_lt n (by omega), List.mem_singleton.mp last⟩

def hexDigit (c : Char) : Nat := ((List.range 16).find? (Nat.digitChar · = c)).getD 0

def ofHexDigits (digits : List Char) : Nat := digits.foldl (fun n c => 16 * n + hexDigit c) 0

theorem hexDigit_digitChar : ∀ d < 16, hexDigit (Nat.digitChar d) = d := by decide

theorem ofHexDigits_toDigits (n : Nat) : ofHexDigits (Nat.toDigits 16 n) = n := by
  induction n using Nat.strong_induction_on with
  | h n ih =>
    rw [Nat.toDigits_eq_if (by omega)]
    split
    · rename_i small
      simpa [ofHexDigits] using hexDigit_digitChar n small
    · have earlier := ih (n / 16) (Nat.div_lt_self (by omega) (by omega))
      simp only [ofHexDigits] at earlier
      simp only [ofHexDigits, List.foldl_append, List.foldl_cons, List.foldl_nil, earlier,
        hexDigit_digitChar (n % 16) (Nat.mod_lt n (by omega))]
      exact Nat.div_add_mod n 16

theorem ofHexDigits_uuidHex (u : Nat) : ofHexDigits (uuidHex u) = u := by
  have zeros : ∀ n, (List.replicate n '0').foldl (fun n c => 16 * n + hexDigit c) 0 = 0 := by
    intro n
    induction n with
    | zero => rfl
    | succ n ih =>
      have zero : hexDigit '0' = 0 := by decide
      simpa [List.replicate_succ, zero] using ih
  rw [uuidHex, List.leftpad, ofHexDigits, List.foldl_append, zeros]
  exact ofHexDigits_toDigits u

theorem mem_uuidHex {u : Nat} {c : Char} (h : c ∈ uuidHex u) : ∃ d < 16, c = Nat.digitChar d := by
  obtain padding | digit := List.mem_append.mp h
  · exact ⟨0, by decide, List.eq_of_mem_replicate padding⟩
  · exact mem_toDigits digit

theorem mem_uuidText {u : Nat} {c : Char} (h : c ∈ (uuidText u).toList) : c = '-' ∨ c ∈ uuidHex u := by
  simp only [uuidText, String.toList_ofList, List.mem_append, List.mem_cons] at h
  rcases h with h | h | h | h | h | h | h | h | h
  · exact .inr (List.mem_of_mem_take h)
  · exact .inl h
  · exact .inr (List.mem_of_mem_drop (List.mem_of_mem_take h))
  · exact .inl h
  · exact .inr (List.mem_of_mem_drop (List.mem_of_mem_take h))
  · exact .inl h
  · exact .inr (List.mem_of_mem_drop (List.mem_of_mem_take h))
  · exact .inl h
  · exact .inr (List.mem_of_mem_drop h)

theorem digitChar_plain : ∀ d < 16,
    Nat.digitChar d ≠ '-' ∧ Nat.digitChar d ≠ '.' ∧ Nat.digitChar d ≠ '/' := by decide

theorem uuidText_digits (u : Nat) : (uuidText u).toList.filter (· ≠ '-') = uuidHex u := by
  have whole : ∀ digits : List Char, digits ⊆ uuidHex u → digits.filter (· ≠ '-') = digits := by
    refine fun digits within => List.filter_eq_self.mpr fun c among => ?_
    obtain ⟨d, small, rfl⟩ := mem_uuidHex (within among)
    exact decide_eq_true (digitChar_plain d small).1
  have first := whole _ (List.take_subset 8 (uuidHex u))
  have group : ∀ n, (((uuidHex u).drop n).take 4).filter (· ≠ '-') = ((uuidHex u).drop n).take 4 :=
    fun n => whole _ fun _ among => List.mem_of_mem_drop (List.mem_of_mem_take among)
  have last := whole _ (List.drop_subset 20 (uuidHex u))
  have parts : ∀ n, ((uuidHex u).drop n).take 4 ++ (uuidHex u).drop (n + 4) = (uuidHex u).drop n := by
    intro n
    rw [← List.drop_drop, List.take_append_drop]
  have dash : ∀ rest : List Char, ('-' :: rest).filter (· ≠ '-') = rest.filter (· ≠ '-') := fun _ => rfl
  simp only [uuidText, String.toList_ofList, List.filter_append, dash, first, group, last, parts,
    List.take_append_drop]

theorem uuidText_inj {u u' : Nat} (same : uuidText u = uuidText u') : u = u' := by
  have digits := uuidText_digits u
  rw [same, uuidText_digits] at digits
  rw [← ofHexDigits_uuidHex u, ← digits, ofHexDigits_uuidHex]

theorem uuidText_length {uuid : Nat} (bits : uuid < 2 ^ 128) : (uuidText uuid).length = 36 := by
  have digits : (Nat.toDigits 16 uuid).length ≤ 32 :=
    (Nat.length_toDigits_le_iff (by omega) (by omega)).mpr (by omega)
  have hex : (uuidHex uuid).length = 32 := by
    rw [uuidHex, List.length_leftpad]
    omega
  simp only [uuidText, String.length_ofList, List.length_append, List.length_cons, List.length_take,
    List.length_drop, hex]
  omega

theorem uuidText_plain (u : Nat) : '.' ∉ (uuidText u).toList ∧ '/' ∉ (uuidText u).toList := by
  constructor
  · intro among
    obtain dash | digit := mem_uuidText among
    · cases dash
    · obtain ⟨d, small, is⟩ := mem_uuidHex digit
      exact (digitChar_plain d small).2.1 is.symm
  · intro among
    obtain dash | digit := mem_uuidText among
    · cases dash
    · obtain ⟨d, small, is⟩ := mem_uuidHex digit
      exact (digitChar_plain d small).2.2 is.symm

end Digits

/-- A dot and a part without dots and separators. -/
def IsExtension (extension : String) : Prop :=
  ∃ tail, extension.toList = '.' :: tail ∧ tail ≠ [] ∧ '.' ∉ tail ∧ '/' ∉ tail

namespace FileStorage

def NamedBy (uuid : Nat) (path : List String) : Prop :=
  ∃ extension, IsExtension extension ∧ path.getLast? = some (uuidText uuid ++ extension)

section Names
variable {uuid uuid' : Nat} {extension : String} (proper : IsExtension extension)
include proper

theorem name_plain : '/' ∉ (uuidText uuid ++ extension).toList := by
  obtain ⟨tail, is, -, -, noSeparator⟩ := proper
  simp [is, (uuidText_plain uuid).2, noSeparator]

theorem name_stem : (uuidText uuid ++ extension).toList.takeWhile (· ≠ '.') = (uuidText uuid).toList := by
  obtain ⟨tail, is, -⟩ := proper
  have plain : ∀ c ∈ (uuidText uuid).toList, (c ≠ '.') := fun c among same =>
    (uuidText_plain uuid).1 (same ▸ among)
  rw [String.toList_append, is, List.takeWhile_append_of_pos (by simpa using plain)]
  simp

theorem name_proper : uuidText uuid ++ extension ≠ "" ∧ uuidText uuid ++ extension ≠ "." ∧
    uuidText uuid ++ extension ≠ ".." := by
  have stem : (uuidText uuid ++ extension).toList.takeWhile (· ≠ '.') = (uuidText uuid).toList :=
    name_stem proper
  have some_ : (uuidText uuid).toList ≠ [] := by simp [uuidText]
  refine ⟨?_, ?_, ?_⟩
  all_goals
    intro same
    rw [same] at stem
    exact some_ stem.symm

theorem suffix_name : suffix (uuidText uuid ++ extension) = extension := by
  have plain : '/' ∉ (uuidText uuid ++ extension).toList := name_plain proper
  have named : uuidText uuid ++ extension ≠ "" ∧ uuidText uuid ++ extension ≠ "." ∧
      uuidText uuid ++ extension ≠ ".." := name_proper proper
  have some_ : 0 < (uuidText uuid).toList.length := List.length_pos_iff.mpr (by simp [uuidText])
  obtain ⟨tail, is, nonempty, noDot, -⟩ := proper
  have chars : (uuidText uuid ++ extension).toList = (uuidText uuid).toList ++ '.' :: tail := by
    rw [String.toList_append, is]
  have last : ((uuidText uuid ++ extension).toList.reverse.takeWhile (· ≠ '.')).reverse = tail := by
    have noDot' : ∀ c ∈ tail.reverse, c ≠ '.' := fun c among same =>
      noDot (List.mem_reverse.mp (same ▸ among))
    rw [chars, List.reverse_append, List.reverse_cons, List.append_assoc,
      List.takeWhile_append_of_pos (by simpa using noDot')]
    simp
  have kept : (uuidText uuid ++ extension).toList ≠ [] ∧ (uuidText uuid ++ extension).toList ≠ ['.'] := by
    refine ⟨fun same => named.1 (String.toList_inj.mp same), fun same => named.2.1 (String.toList_inj.mp same)⟩
  have only : [(uuidText uuid ++ extension).toList].filter (fun part => part ≠ [] ∧ part ≠ ['.']) =
      [(uuidText uuid ++ extension).toList] := by
    refine List.filter_eq_self.mpr fun part among => ?_
    obtain rfl := List.mem_singleton.mp among
    exact decide_eq_true kept
  simp only [suffix, List.splitOn_eq_singleton plain]
  rw [only, List.getLast?_singleton, Option.getD_some, last,
    if_pos ⟨nonempty, by rw [chars]; simp; omega⟩, ← is, String.ofList_toList]

end Names

theorem NamedBy.unique {path : List String} {uuid uuid' : Nat} (h : NamedBy uuid path)
    (h' : NamedBy uuid' path) : uuid = uuid' := by
  obtain ⟨extension, proper, last⟩ := h
  obtain ⟨extension', proper', last'⟩ := h'
  have same := Option.some.inj (last.symm.trans last')
  have stem : (uuidText uuid ++ extension).toList.takeWhile (· ≠ '.') = (uuidText uuid).toList :=
    name_stem proper
  rw [same, name_stem proper'] at stem
  exact uuidText_inj (String.toList_inj.mp stem.symm)

theorem resolve_last {root path : List String} {directory name : String} (plain : '/' ∉ name.toList)
    (proper : name ≠ "" ∧ name ≠ "." ∧ name ≠ "..")
    (resolved : resolve root (directory ++ "/" ++ name) = .ok path) : path.getLast? = some name := by
  have parts : segments (directory ++ "/" ++ name) = segments directory ++ [name] := by
    have apart : (directory ++ "/" ++ name).toList = directory.toList ++ '/' :: name.toList := by
      simp
    rw [segments, apart, List.splitOn_append_cons_self, List.splitOn_eq_singleton plain]
    simp [segments]
  simp only [resolve, parts, follow, List.foldl_append, List.foldl_cons, List.foldl_nil, proper.1,
    proper.2.1, proper.2.2, or_self, if_false] at resolved
  split at resolved
  all_goals
    split at resolved <;> cases resolved
    exact List.getLast?_concat

def dateParts (today : Time) : List String :=
  let (year, month, day) := civilDate (today / 86400000000)
  [toString year, twoDigits month, twoDigits day]

/-- A segment that a path keeps. -/
def IsProper (segment : String) : Prop :=
  '/' ∉ segment.toList ∧ segment ≠ "" ∧ segment ≠ "." ∧ segment ≠ ".."

def IsNumeral (text : String) : Prop :=
  text ≠ "" ∧ ∀ c ∈ text.toList, c.isDigit = true ∨ c = '-'

theorem isNumeral_toString (n : Int) : IsNumeral (toString n) := by
  have digits : ∀ n : Nat, IsNumeral n.repr := by
    refine fun n => ⟨Nat.repr_ne_empty, fun c among => .inl ?_⟩
    rw [Nat.toList_repr] at among
    exact Nat.isDigit_of_mem_toDigits (by omega) (by omega) among
  rw [Int.toString_eq_repr, Int.repr_eq_if]
  split
  · exact digits n.toNat
  · refine ⟨fun none_ => ?_, fun c among => ?_⟩
    · have chars := congrArg String.toList none_
      simp at chars
    · rw [String.toList_append] at among
      obtain sign | digit := List.mem_append.mp among
      · exact .inr (List.mem_singleton.mp sign)
      · exact (digits (-n).toNat).2 c digit

theorem isNumeral_twoDigits (n : Int) : IsNumeral (twoDigits n) := by
  obtain ⟨some_, chars⟩ := isNumeral_toString n
  simp only [twoDigits]
  split
  · refine ⟨fun none_ => some_ ?_, fun c among => ?_⟩
    · rw [String.append_eq_empty_iff] at none_
      exact none_.2
    · rw [String.toList_append] at among
      obtain zero | digit := List.mem_append.mp among
      · obtain rfl := List.mem_singleton.mp zero
        exact .inl (by decide)
      · exact chars c digit
  · simpa using ⟨some_, chars⟩

theorem IsNumeral.proper {text : String} (h : IsNumeral text) : IsProper text := by
  refine ⟨fun among => ?_, h.1, ?_, ?_⟩
  · exact absurd (h.2 '/' among) (by decide)
  · rintro rfl
    exact absurd (h.2 '.' (by simp)) (by decide)
  · rintro rfl
    exact absurd (h.2 '.' (by simp)) (by decide)

theorem dateParts_proper (today : Time) : ∀ part ∈ dateParts today, IsProper part := by
  intro part among
  simp only [dateParts, List.mem_cons, List.not_mem_nil, or_false] at among
  obtain rfl | rfl | rfl := among
  · exact (isNumeral_toString _).proper
  · exact (isNumeral_twoDigits _).proper
  · exact (isNumeral_twoDigits _).proper

theorem segments_append (path rest : String) : segments (path ++ "/" ++ rest) = segments path ++ segments rest := by
  have apart : (path ++ "/" ++ rest).toList = path.toList ++ '/' :: rest.toList := by simp
  simp only [segments, apart, List.splitOn_append_cons_self, List.map_append]

theorem segments_plain {segment : String} (plain : '/' ∉ segment.toList) : segments segment = [segment] := by
  simp [segments, List.splitOn_eq_singleton plain]

theorem segments_dateDirectory (today : Time) : segments (dateDirectory today) = dateParts today := by
  have spelled : dateDirectory today = toString (civilDate (today / 86400000000)).1 ++ "/" ++
      twoDigits (civilDate (today / 86400000000)).2.1 ++ "/" ++
      twoDigits (civilDate (today / 86400000000)).2.2 := rfl
  rw [spelled, segments_append, segments_append, segments_plain (isNumeral_toString _).proper.1,
    segments_plain (isNumeral_twoDigits _).proper.1, segments_plain (isNumeral_twoDigits _).proper.1]
  rfl

theorem follow_proper {parts : List String} (proper : ∀ part ∈ parts, IsProper part)
    (start : List String) : follow start parts = start ++ parts := by
  induction parts generalizing start with
  | nil => exact (List.append_nil start).symm
  | cons part rest ih =>
    obtain ⟨-, some_, notDot, notUp⟩ := proper part List.mem_cons_self
    have later := ih (fun part among => proper part (List.mem_cons_of_mem _ among)) (start ++ [part])
    rw [follow, List.foldl_cons, if_neg (by simp [some_, notDot]), if_neg notUp]
    simpa [follow] using later

/-- A key that `save` makes up stays below the root. -/
theorem resolve_dated {root : List String} {today : Time} {name : String} (proper : IsProper name) :
    resolve root (dateDirectory today ++ "/" ++ name) = .ok (root ++ dateParts today ++ [name]) := by
  have parts : segments (dateDirectory today ++ "/" ++ name) = dateParts today ++ [name] := by
    rw [segments_append, segments_dateDirectory, segments_plain proper.1]
  have relative : (dateDirectory today ++ "/" ++ name).toList.head? ≠ some '/' := by
    obtain ⟨some_, chars⟩ := isNumeral_toString (civilDate (today / 86400000000)).1
    have spelled : (dateDirectory today ++ "/" ++ name).toList =
        (toString (civilDate (today / 86400000000)).1).toList ++ ('/' ::
          (twoDigits (civilDate (today / 86400000000)).2.1 ++ "/" ++
            twoDigits (civilDate (today / 86400000000)).2.2 ++ "/" ++ name).toList) := by
      have whole : dateDirectory today = toString (civilDate (today / 86400000000)).1 ++ "/" ++
          twoDigits (civilDate (today / 86400000000)).2.1 ++ "/" ++
          twoDigits (civilDate (today / 86400000000)).2.2 := rfl
      rw [whole]
      simp
    rw [spelled, List.head?_append]
    cases first : (toString (civilDate (today / 86400000000)).1).toList with
    | nil => exact absurd (String.toList_eq_nil_iff.mp first) some_
    | cons c rest =>
      rintro same
      obtain rfl : c = '/' := Option.some.inj same
      exact absurd (chars '/' (by rw [first]; exact List.mem_cons_self)) (by decide)
  have all : ∀ part ∈ dateParts today ++ [name], IsProper part := by
    intro part among
    obtain dated | named := List.mem_append.mp among
    · exact dateParts_proper today part dated
    · rwa [List.mem_singleton.mp named]
  simp only [resolve, if_neg relative, parts, follow_proper all]
  rw [if_pos (List.prefix_append _ _), List.append_assoc]

end FileStorage

namespace FileValidation

/-- `str.lower` maps ASCII text letter by letter. -/
def Unicode.LowersAscii (unicode : Unicode) : Prop :=
  ∀ text : Text, (∀ c ∈ text, c.toNat < 128) → unicode.lower text = text.map Char.toLower

section Ascii
variable {unicode : Unicode}

def IsAscii (text : Text) : Prop := ∀ c ∈ text, c.toNat < 128

theorem separatorRun_ascii {run : Text} (h : IsAscii run) : IsAscii (separatorRun run) := by
  simp only [separatorRun]
  split
  · exact h
  · intro c among
    rw [List.mem_singleton.mp among]
    decide

theorem collapseSeparators_ascii {run text : Text} (hrun : IsAscii run) (htext : IsAscii text) :
    IsAscii (collapseSeparators run text) := by
  induction text generalizing run with
  | nil => exact separatorRun_ascii hrun
  | cons c rest ih =>
    have first := htext c List.mem_cons_self
    have later : IsAscii rest := fun c among => htext c (List.mem_cons_of_mem _ among)
    simp only [collapseSeparators]
    split
    · refine ih (fun c' among => ?_) later
      obtain rfl | earlier := List.mem_cons.mp among
      · exact first
      · exact hrun c' earlier
    · intro c' among
      obtain separators | rfl | after := by simpa only [List.mem_append, List.mem_cons] using among
      · exact separatorRun_ascii hrun c' separators
      · exact first
      · exact ih (fun _ among => by cases among) later c' after

theorem cleanFilename_ascii (filename : Text) : IsAscii (cleanFilename unicode filename) := by
  refine collapseSeparators_ascii (fun _ among => by cases among) fun c among => ?_
  have among := (List.dropWhile_sublist _).subset (List.mem_reverse.mp
    ((List.dropWhile_sublist _).subset (List.mem_reverse.mp among)))
  obtain ⟨c', kept, rfl⟩ := List.mem_map.mp among
  split
  · simpa using (List.mem_filter.mp kept).2
  · decide

theorem rpartition_subset (sep : Char) (text : Text) :
    (rpartition sep text).1 ⊆ text ∧ (rpartition sep text).2 ⊆ text := by
  simp only [rpartition]
  split
  · refine ⟨fun c among => ?_, fun c among => ?_⟩
    · exact List.mem_reverse.mp ((List.dropWhile_sublist _).subset
        (List.mem_of_mem_tail (List.mem_reverse.mp among)))
    · exact List.mem_reverse.mp ((List.takeWhile_sublist _).subset (List.mem_reverse.mp among))
  · exact ⟨List.nil_subset _, List.Subset.refl _⟩

theorem shortenFilename_ascii {name : Text} (h : IsAscii name) : IsAscii (shortenFilename name) := by
  obtain ⟨stem, extension⟩ := rpartition_subset '.' name
  simp only [shortenFilename]
  split
  · split
    · intro c among
      obtain before | rfl | after := by simpa only [List.mem_append, List.mem_cons] using among
      · exact h c (stem (List.mem_of_mem_take before))
      · decide
      · exact h c (extension after)
    · exact fun c among => h c (List.mem_of_mem_take among)
  · exact h

theorem sanitizeFilename_ascii (filename : Option Text) : IsAscii (sanitizeFilename unicode filename) := by
  have fallback : IsAscii fallbackFilename := List.all_iff_forall_prop.mp (by decide)
  unfold sanitizeFilename
  split
  · exact fallback
  · exact fallback
  · dsimp only
    split
    · exact fallback
    · exact shortenFilename_ascii (cleanFilename_ascii _)

theorem suffix_cases (path : String) : FileStorage.suffix path = "" ∨
    ∃ tail, (FileStorage.suffix path).toList = '.' :: tail ∧ tail ≠ [] ∧ '.' ∉ tail ∧ '/' ∉ tail ∧
      tail ⊆ path.toList := by
  simp only [FileStorage.suffix]
  split
  · rename_i named
    refine .inr ⟨_, String.toList_ofList, named.1, fun among => ?_, ?_⟩
    · simpa using List.mem_takeWhile_imp (List.mem_reverse.mp among)
    · cases last : ((path.toList.splitOn '/').filter fun part => part ≠ [] ∧ part ≠ ['.']).getLast? with
      | none =>
        rw [last] at named
        exact absurd rfl named.1
      | some name =>
        obtain ⟨plain, within⟩ := mem_splitOn (List.mem_of_mem_filter (List.mem_of_getLast? last))
        have tail : ((name.reverse.takeWhile (· ≠ '.')).reverse) ⊆ name := fun c among =>
          List.mem_reverse.mp ((List.takeWhile_sublist _).subset (List.mem_reverse.mp among))
        exact ⟨fun among => plain (tail among), fun c among => within (tail among)⟩
  · exact .inl rfl

theorem toLower_separator {c : Char} (plain : c.toNat < 128) :
    (c.toLower = '.' → c = '.') ∧ (c.toLower = '/' → c = '/') := by
  have all : ∀ n < 128, ((Char.ofNat n).toLower = '.' → Char.ofNat n = '.') ∧
      ((Char.ofNat n).toLower = '/' → Char.ofNat n = '/') := by decide +kernel
  simpa only [Char.ofNat_toNat] using all c.toNat plain

theorem validateExtension_proper (ascii : unicode.LowersAscii) {settings : UploadSettings}
    {name extension : Text} (plain : IsAscii name)
    (valid : validateExtension unicode settings name = .ok extension) :
    IsExtension (String.ofList extension) := by
  simp only [validateExtension] at valid
  split at valid
  · cases valid
  · rename_i some_
    split at valid <;> cases valid
    simp only [extractExtension] at some_ ⊢
    obtain none_ | ⟨tail, is, nonempty, noDot, noSeparator, within⟩ := suffix_cases (String.ofList name)
    · rw [none_] at some_
      exact absurd (by simpa using ascii [] (fun _ among => by cases among)) some_
    · have asciiTail : IsAscii tail := fun c among => plain c (by simpa using within among)
      have lowered := ascii ('.' :: tail) fun c among => by
        obtain rfl | later := List.mem_cons.mp among
        · decide
        · exact asciiTail c later
      rw [is, lowered]
      refine ⟨tail.map Char.toLower, by simp, by simpa using nonempty, ?_, ?_⟩
      · intro among
        obtain ⟨c, here, low⟩ := List.mem_map.mp among
        exact noDot ((toLower_separator (asciiTail c here)).1 low ▸ here)
      · intro among
        obtain ⟨c, here, low⟩ := List.mem_map.mp among
        exact noSeparator ((toLower_separator (asciiTail c here)).2 low ▸ here)

theorem uploadGate_extension (ascii : unicode.LowersAscii) {settings : UploadSettings}
    {file : UploadFile} {upload : ValidatedUpload}
    (accepted : uploadGate unicode settings file = .ok upload) : IsExtension upload.extension := by
  simp only [uploadGate, validateUpload, bind, Except.bind, pure, Except.pure] at accepted
  split at accepted
  · cases accepted
  · split at accepted
    · cases accepted
    · rename_i checked
      cases accepted
      split at checked
      · cases checked
      · rename_i valid
        have proper := validateExtension_proper ascii (sanitizeFilename_ascii _) valid
        repeat' split at checked
        all_goals cases checked
        exact proper

end Ascii
end FileValidation
end DocumentPipeline

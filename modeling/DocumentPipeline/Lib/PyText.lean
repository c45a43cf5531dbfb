import Mathlib.Data.List.Infix
import Mathlib.Data.List.DropRight
import Mathlib.Data.List.TakeWhile

/-! Python's `str`, `bytes.decode` and pure paths on lists of code points: white
space and stripping, strict UTF-8, and the final component of a path under both
path flavours. -/

namespace PyText

abbrev Text := List Char

/-- `str.isspace` of one character. -/
def isSpace (c : Char) : Bool :=
  let n := c.toNat
  (9 ≤ n && n ≤ 13) || (28 ≤ n && n ≤ 32) || n = 133 || n = 160 || n = 5760 ||
    (8192 ≤ n && n ≤ 8202) || n = 8232 || n = 8233 || n = 8239 || n = 8287 || n = 12288

/-- `text.strip(chars)`, the characters given as a test. -/
def stripBy (p : Char → Bool) (text : Text) : Text :=
  ((text.dropWhile p).reverse.dropWhile p).reverse

section Strip
variable {p : Char → Bool} {text : Text}

theorem stripBy_eq (p : Char → Bool) (text : Text) : stripBy p text = (text.dropWhile p).rdropWhile p := rfl

theorem stripBy_spec (p : Char → Bool) (text : Text) : ∃ lead trail,
    text = lead ++ (stripBy p text ++ trail) ∧ (∀ c ∈ lead, p c = true) ∧ ∀ c ∈ trail, p c = true := by
  refine ⟨text.takeWhile p, (text.dropWhile p).rtakeWhile p, ?_, fun _ => List.mem_takeWhile_imp,
    fun _ => List.mem_rtakeWhile_imp⟩
  rw [stripBy_eq, List.rdropWhile_append_rtakeWhile, List.takeWhile_append_dropWhile]

theorem stripBy_subset (p : Char → Bool) (text : Text) : stripBy p text ⊆ text := by
  obtain ⟨lead, trail, whole, -⟩ := stripBy_spec p text
  intro c among
  rw [whole]
  exact List.mem_append_right _ (List.mem_append_left _ among)

theorem stripBy_head {c : Char} (head : (stripBy p text).head? = some c) : p c = false := by
  have first := List.head?_dropWhile_not p text
  have whole : stripBy p text ++ (text.dropWhile p).rtakeWhile p = text.dropWhile p :=
    List.rdropWhile_append_rtakeWhile
  rw [← whole, List.head?_append, head] at first
  exact first

theorem stripBy_getLast {c : Char} (last : (stripBy p text).getLast? = some c) : p c = false := by
  have some_ : (text.dropWhile p).rdropWhile p ≠ [] := by
    rw [← stripBy_eq]
    intro none_
    rw [none_] at last
    cases last
  have other := List.rdropWhile_last_not p (text.dropWhile p) some_
  rw [stripBy_eq, List.getLast?_eq_some_getLast some_, Option.some.injEq] at last
  rw [last] at other
  exact Bool.not_eq_true _ ▸ other

end Strip

def strip (text : Text) : Text := stripBy isSpace text

/-- The part of `text.split(sep, 1)` before the first separator. -/
def before (sep : Char) (text : Text) : Text := text.takeWhile (· ≠ sep)

/-- `text.rpartition(sep)` without the separator. -/
def rpartition (sep : Char) (text : Text) : Text × Text :=
  if sep ∈ text then
    ((text.reverse.dropWhile (· ≠ sep)).tail.reverse, (text.reverse.takeWhile (· ≠ sep)).reverse)
  else ([], text)

theorem rpartition_absent {sep : Char} {text : Text} (absent : sep ∉ text) :
    rpartition sep text = ([], text) := by
  rw [rpartition, if_neg absent]

theorem rpartition_append {sep : Char} {stem last : Text} (absent : sep ∉ last) :
    rpartition sep (stem ++ sep :: last) = (stem, last) := by
  have before_ : ∀ c ∈ last.reverse, decide (c ≠ sep) = true := fun c among =>
    decide_eq_true fun same => absent (List.mem_reverse.mp (same ▸ among))
  have reversed : (stem ++ sep :: last).reverse = last.reverse ++ sep :: stem.reverse := by simp
  rw [rpartition, if_pos (by simp), reversed, List.dropWhile_append_of_pos before_,
    List.takeWhile_append_of_pos before_]
  simp

theorem exists_rpartition {sep : Char} {text : Text} (among : sep ∈ text) :
    ∃ stem last, text = stem ++ sep :: last ∧ sep ∉ last := by
  induction text with
  | nil => cases among
  | cons c rest ih =>
    by_cases later : sep ∈ rest
    · obtain ⟨stem, last, rfl, absent⟩ := ih later
      exact ⟨c :: stem, last, rfl, absent⟩
    · obtain rfl | later' := List.mem_cons.mp among
      · exact ⟨[], rest, rfl, later⟩
      · exact absurd later' later

/-- `text.find(needle)`, `none` for -1. -/
def find (needle : Text) : Text → Option Nat
  | [] => if needle = [] then some 0 else none
  | c :: rest => if needle <+: c :: rest then some 0 else (find needle rest).map (· + 1)

theorem find_eq_some {needle text : Text} {index : Nat} (something : needle ≠ [])
    (found : find needle text = some index) :
    ∃ lead rest, text = lead ++ (needle ++ rest) ∧ lead.length = index ∧ ¬needle <:+: lead := by
  induction text generalizing index with
  | nil =>
    rw [find, if_neg something] at found
    cases found
  | cons c later ih =>
    rw [find] at found
    split at found
    · rename_i here
      obtain ⟨rest, whole⟩ := here
      cases found
      exact ⟨[], rest, whole.symm, rfl, fun within => something (List.infix_nil.mp within)⟩
    · rename_i elsewhere
      obtain ⟨index', found', rfl⟩ := Option.map_eq_some_iff.mp found
      obtain ⟨lead, rest, rfl, rfl, absent⟩ := ih found'
      refine ⟨c :: lead, rest, rfl, rfl, fun within => ?_⟩
      obtain here | within := List.infix_cons_iff.mp within
      · exact elsewhere (here.trans (List.prefix_append (c :: lead) _))
      · exact absent within

/-- A needle whose first character does not recur in it cannot start in front of
an occurrence and run into it. -/
theorem find_append {first : Char} {needle lead rest : Text} (once : first ∉ needle)
    (absent : ¬first :: needle <:+: lead) :
    find (first :: needle) (lead ++ (first :: needle ++ rest)) = some lead.length := by
  induction lead with
  | nil =>
    have here : first :: needle <+: first :: (needle ++ rest) := List.prefix_append (first :: needle) rest
    rw [List.nil_append, List.cons_append, find, if_pos here]
    rfl
  | cons c lead ih =>
    have later : ¬first :: needle <:+: lead := fun within => absent (within.trans (List.infix_cons List.infix_rfl))
    have elsewhere : ¬first :: needle <+: c :: lead ++ (first :: needle ++ rest) := by
      intro here
      obtain within | ⟨remaining, whole⟩ :=
        List.prefix_or_prefix_of_prefix here (List.prefix_append (c :: lead) _)
      · exact absent within.isInfix
      · -- what is left of the needle starts where the occurrence starts
        rw [← whole, List.prefix_append_right_inj] at here
        cases remaining with
        | nil => exact absent (by rw [← whole, List.append_nil])
        | cons d remaining =>
          obtain ⟨rfl, -⟩ := List.cons_prefix_cons.mp here
          rw [List.cons_append, List.cons.injEq] at whole
          obtain ⟨rfl, rfl⟩ := whole
          exact once (List.mem_append_right lead List.mem_cons_self)
    rw [List.cons_append] at elsewhere ⊢
    rw [find, if_neg elsewhere, ih later]
    rfl

/-- `text.partition(sep)`; the separator is empty when it does not occur. -/
def partition (sep text : Text) : Text × Text × Text :=
  match find sep text with
  | none => (text, [], [])
  | some index => (text.take index, sep, text.drop (index + sep.length))

theorem partition_append {first : Char} {others lead rest : Text} (once : first ∉ others)
    (absent : ¬first :: others <:+: lead) :
    partition (first :: others) (lead ++ (first :: others ++ rest)) = (lead, first :: others, rest) := by
  unfold partition
  rw [find_append once absent]
  simp only [List.take_left, ← List.drop_drop, List.drop_left]

theorem partition_found {sep text lead found rest : Text} (something : sep ≠ [])
    (parts : partition sep text = (lead, found, rest)) (occurs : found ≠ []) :
    text = lead ++ (sep ++ rest) ∧ ¬sep <:+: lead := by
  unfold partition at parts
  split at parts
  · cases parts
    exact absurd rfl occurs
  · rename_i index at_
    obtain ⟨lead', rest', rfl, rfl, absent⟩ := find_eq_some something at_
    simp only [List.take_left, ← List.drop_drop, List.drop_left, Prod.mk.injEq] at parts
    obtain ⟨rfl, -, rfl⟩ := parts
    exact ⟨rfl, absent⟩

/-- `text.split()`. -/
def words (text : Text) : List Text := (text.splitOnP isSpace).filter (· ≠ [])

theorem mem_splitOn {sep : Char} {text part : Text} (h : part ∈ text.splitOn sep) :
    sep ∉ part ∧ part ⊆ text := by
  induction text generalizing part with
  | nil =>
    rw [List.splitOn_nil] at h
    obtain rfl := List.mem_singleton.mp h
    exact ⟨List.not_mem_nil, List.Subset.refl _⟩
  | cons c rest ih =>
    rw [List.splitOn_cons_eq_if_modifyHead] at h
    have further : ∀ {part}, part ∈ rest.splitOn sep → sep ∉ part ∧ part ⊆ c :: rest :=
      fun among => ⟨(ih among).1, fun c' here => List.mem_cons_of_mem _ ((ih among).2 here)⟩
    split at h
    · obtain rfl | later := List.mem_cons.mp h
      · exact ⟨List.not_mem_nil, List.nil_subset _⟩
      · exact further later
    · rename_i other
      cases pieces : rest.splitOn sep with
      | nil => exact absurd pieces (List.splitOn_ne_nil _ _)
      | cons first others =>
        rw [pieces, List.modifyHead_cons] at h
        obtain rfl | later := List.mem_cons.mp h
        · have kept := @ih first (by rw [pieces]; exact List.mem_cons_self)
          refine ⟨fun among => ?_, List.cons_subset_cons c kept.2⟩
          obtain rfl | within := List.mem_cons.mp among
          · simp at other
          · exact kept.1 within
        · exact further (by rw [pieces]; exact List.mem_cons_of_mem _ later)

/-- The line boundaries of `str.splitlines`. -/
def isLineBreak (c : Char) : Bool :=
  let n := c.toNat
  (10 ≤ n && n ≤ 13) || (28 ≤ n && n ≤ 30) || n = 133 || n = 8232 || n = 8233

/-- `text.splitlines()[0]`, which the empty text does not have. -/
def firstLine (text : Text) : Option Text :=
  if text = [] then none else some (text.takeWhile fun c => !isLineBreak c)

def continuation (b : UInt8) : Bool := 0x80 ≤ b && b ≤ 0xBF

def scalar (n : Nat) : Char := Char.ofNat n

/-- `data.decode("utf-8")`, or `none` where it raises `UnicodeDecodeError`:
overlong forms, surrogates and code points above U+10FFFF are rejected. -/
def decodeUtf8 : List UInt8 → Option Text
  | [] => some []
  | b₀ :: rest =>
    if b₀ < 0x80 then (scalar b₀.toNat :: ·) <$> decodeUtf8 rest
    else match rest with
      | [] => none
      | b₁ :: rest =>
        if 0xC2 ≤ b₀ && b₀ ≤ 0xDF then
          if continuation b₁ then
            (scalar ((b₀.toNat - 0xC0) * 64 + (b₁.toNat - 0x80)) :: ·) <$> decodeUtf8 rest
          else none
        else match rest with
          | [] => none
          | b₂ :: rest =>
            if 0xE0 ≤ b₀ && b₀ ≤ 0xEF then
              if continuation b₁ && continuation b₂ && (b₀ ≠ 0xE0 || 0xA0 ≤ b₁) &&
                  (b₀ ≠ 0xED || b₁ ≤ 0x9F) then
                (scalar ((b₀.toNat - 0xE0) * 4096 + (b₁.toNat - 0x80) * 64 + (b₂.toNat - 0x80)) :: ·)
                  <$> decodeUtf8 rest
              else none
            else match rest with
              | [] => none
              | b₃ :: rest =>
                if 0xF0 ≤ b₀ && b₀ ≤ 0xF4 && continuation b₁ && continuation b₂ &&
                    continuation b₃ && (b₀ ≠ 0xF0 || 0x90 ≤ b₁) && (b₀ ≠ 0xF4 || b₁ ≤ 0x8F) then
                  (scalar ((b₀.toNat - 0xF0) * 262144 + (b₁.toNat - 0x80) * 4096 +
                    (b₂.toNat - 0x80) * 64 + (b₃.toNat - 0x80)) :: ·) <$> decodeUtf8 rest
                else none

example : decodeUtf8 [0x61, 0xC3, 0xA9, 0xE2, 0x82, 0xAC] = some ['a', 'é', '€'] ∧
    decodeUtf8 [0xC0, 0xAF] = none ∧ decodeUtf8 [0xED, 0xA0, 0x80] = none := by decide

/-- The components of a path: empty and `.` segments are dropped. -/
def components (sep : Char) (path : Text) : List Text :=
  (path.splitOn sep).filter fun part => part ≠ [] ∧ part ≠ ['.']

def lastComponent (sep : Char) (path : Text) : Text :=
  (components sep path).getLast?.getD []

/-- `PurePosixPath(path).name`. -/
def posixName (path : Text) : Text := lastComponent '/' path

/-- What follows the drive and the root under `ntpath.splitroot`. -/
def windowsTail (path : Text) : Text :=
  match path with
  | '\\' :: '\\' :: rest =>
    -- `\\server\share` and `\\?\UNC\server\share` name a drive
    let after := if ['?', '\\', 'U', 'N', 'C', '\\'] <+: rest.map Char.toUpper then rest.drop 6
      else rest
    match after.dropWhile (· ≠ '\\') with
    | [] => []
    | _ :: share => (share.dropWhile (· ≠ '\\')).tail
  | '\\' :: rest => rest
  | _ :: ':' :: '\\' :: rest => rest
  | _ :: ':' :: rest => rest
  | path => path

/-- `PureWindowsPath(path).name`, where `/` separates as well. -/
def windowsName (path : Text) : Text :=
  lastComponent '\\' (windowsTail (path.map fun c => if c = '/' then '\\' else c))

example : windowsName "C:evil.pdf".toList = "evil.pdf".toList ∧
    windowsName "\\\\server\\share".toList = [] ∧
    windowsName "..\\..\\evil.pdf".toList = "evil.pdf".toList := by decide

end PyText

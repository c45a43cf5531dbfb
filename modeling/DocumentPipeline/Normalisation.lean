import DocumentPipeline.TextExtraction
import Mathlib.Data.Bool.AllAny
import Mathlib.Data.List.Chain

/-! Normalised text. The lines of a text are trimmed on the right, runs of blank
ones are cut to one, and what is left is stripped; the text is then in a form
that normalising does not change, with the characters and the breaks it had. -/

namespace DocumentPipeline.TextExtraction
open PyText

def isBreak (c : Char) : Bool := c = '\r' ∨ c = '\n'

def visible (text : Text) : Text := text.filter fun c => !isSpace c

def EndsVisible (text : Text) : Prop := ∀ c, text.getLast? = some c → isSpace c = false

structure Canonical (text : Text) : Prop where
  noReturn : '\r' ∉ text
  trimmed : ∀ line ∈ text.splitOn '\n', EndsVisible line
  noBlankRun : (text.splitOn '\n').IsChain fun a b => ¬(a = [] ∧ b = [])
  first : ∀ c, text.head? = some c → isSpace c = false
  last : EndsVisible text

/-- A line break stands between two of the visible characters, counted from 0. -/
def Separates (text : Text) (i j : Nat) : Prop :=
  ∃ front c back, text = front ++ c :: back ∧ isBreak c = true ∧ i < (visible front).length ∧
    (visible front).length ≤ j

section Lines

/-- Lines of a text that are trimmed and not blank twice in a row. -/
structure Tidy (lines : List Text) : Prop where
  plain : ∀ line ∈ lines, '\n' ∉ line
  trimmed : ∀ line ∈ lines, EndsVisible line
  noBlankRun : lines.IsChain fun a b => ¬(a = [] ∧ b = [])

theorem Tidy.nil : Tidy [] := ⟨nofun, nofun, List.IsChain.nil⟩

theorem Tidy.tail {line : Text} {lines : List Text} (h : Tidy (line :: lines)) : Tidy lines where
  plain other among := h.plain other (List.mem_cons_of_mem _ among)
  trimmed other among := h.trimmed other (List.mem_cons_of_mem _ among)
  noBlankRun := (List.isChain_cons.mp h.noBlankRun).2

theorem Tidy.init {lines rest : List Text} (h : Tidy (lines ++ rest)) : Tidy lines where
  plain other among := h.plain other (List.mem_append_left _ among)
  trimmed other among := h.trimmed other (List.mem_append_left _ among)
  noBlankRun := List.IsChain.left_of_append h.noBlankRun

@[simp] theorem join_nil (sep : Text) : join sep [] = [] := rfl

@[simp] theorem join_singleton (sep line : Text) : join sep [line] = line := by
  simp [join]

theorem join_cons {sep line : Text} {lines : List Text} (some_ : lines ≠ []) :
    join sep (line :: lines) = line ++ sep ++ join sep lines :=
  List.intercalate_cons_of_ne_nil some_

theorem join_concat {sep line : Text} {lines : List Text} (some_ : lines ≠ []) :
    join sep (lines ++ [line]) = join sep lines ++ sep ++ line := by
  induction lines with
  | nil => exact absurd rfl some_
  | cons first rest ih =>
    by_cases none_ : rest = []
    · rw [none_, List.singleton_append, join_cons (List.cons_ne_nil _ _), join_singleton, join_singleton]
    · rw [List.cons_append, join_cons (by simp), join_cons none_, ih none_]
      simp only [List.append_assoc]

theorem join_splitOn (text : Text) : join ['\n'] (text.splitOn '\n') = text :=
  List.intercalate_splitOn '\n'

theorem splitOn_join {lines : List Text} (plain : ∀ line ∈ lines, '\n' ∉ line) (some_ : lines ≠ []) :
    (join ['\n'] lines).splitOn '\n' = lines :=
  List.splitOn_intercalate '\n' plain some_

theorem rstrip_eq (text : Text) : rstrip text = text.rdropWhile isSpace := rfl

theorem rstrip_endsVisible (line : Text) : EndsVisible (rstrip line) := by
  intro c last
  rw [rstrip_eq] at last
  have some_ : line.rdropWhile isSpace ≠ [] := by
    intro none_
    rw [none_] at last
    cases last
  rw [List.getLast?_eq_some_getLast some_, Option.some.injEq] at last
  have other := List.rdropWhile_last_not isSpace line some_
  rw [last] at other
  exact Bool.not_eq_true _ ▸ other

theorem rstrip_eq_self {line : Text} (trimmed : EndsVisible line) : rstrip line = line := by
  refine List.rdropWhile_eq_self_iff.mpr fun some_ space => ?_
  have shown := trimmed _ (List.getLast?_eq_some_getLast some_)
  rw [shown] at space
  cases space

theorem rstrip_subset (line : Text) : rstrip line ⊆ line := by
  intro c among
  have whole : line.rdropWhile isSpace ++ line.rtakeWhile isSpace = line := List.rdropWhile_append_rtakeWhile
  rw [← whole]
  exact List.mem_append_left _ among

theorem collapseBlank_chain (blankRun : Nat) (lines : List Text) :
    (collapseBlank blankRun lines).IsChain (fun a b => ¬(a = [] ∧ b = [])) ∧
      (blankRun ≠ 0 → (collapseBlank blankRun lines).head? ≠ some []) := by
  induction lines generalizing blankRun with
  | nil => exact ⟨List.IsChain.nil, fun _ => nofun⟩
  | cons line rest ih =>
    simp only [collapseBlank]
    split
    · rename_i some_
      exact ⟨List.isChain_cons.mpr ⟨fun _ _ both => some_ both.1, (ih 0).1⟩,
        fun _ head => some_ (Option.some.inj head)⟩
    · split
      · rename_i fresh
        refine ⟨List.isChain_cons.mpr ⟨fun b head both => ?_, (ih 1).1⟩, fun run => absurd fresh run⟩
        exact (ih 1).2 one_ne_zero (both.2 ▸ head)
      · rename_i run
        exact ⟨(ih _).1, fun _ => (ih (blankRun + 1)).2 (Nat.succ_ne_zero _)⟩

theorem collapseBlank_eq_self {blankRun : Nat} {lines : List Text}
    (chain : lines.IsChain fun a b => ¬(a = [] ∧ b = []))
    (head : blankRun ≠ 0 → lines.head? ≠ some []) : collapseBlank blankRun lines = lines := by
  induction lines generalizing blankRun with
  | nil => rfl
  | cons line rest ih =>
    obtain ⟨next, later⟩ := List.isChain_cons.mp chain
    simp only [collapseBlank]
    split
    · rw [ih later fun impossible => absurd rfl impossible]
    · rename_i blank
      rw [not_not] at blank
      subst blank
      split
      · rw [ih later fun _ first => next [] first ⟨rfl, rfl⟩]
      · rename_i run
        exact absurd rfl (head run)

theorem collapsed_tidy {lines : List Text} (plain : ∀ line ∈ lines, '\n' ∉ line) :
    Tidy (collapseBlank 0 (lines.map rstrip)) where
  plain line among := by
    obtain ⟨whole, here, rfl⟩ := List.mem_map.mp (collapseBlank_subset 0 _ among)
    exact fun newline => plain whole here (rstrip_subset whole newline)
  trimmed line among := by
    obtain ⟨whole, -, rfl⟩ := List.mem_map.mp (collapseBlank_subset 0 _ among)
    exact rstrip_endsVisible whole
  noBlankRun := (collapseBlank_chain 0 _).1

theorem Tidy.dropWhile {lines : List Text} (h : Tidy lines) :
    ∃ kept, Tidy kept ∧ join ['\n'] kept = (join ['\n'] lines).dropWhile isSpace := by
  induction lines with
  | nil => exact ⟨[], .nil, rfl⟩
  | cons line rest ih =>
    by_cases blank : line.dropWhile isSpace = []
    · have spaces := List.dropWhile_eq_nil_iff.mp blank
      by_cases none_ : rest = []
      · refine ⟨[], .nil, ?_⟩
        rw [none_, join_singleton, blank, join_nil]
      · obtain ⟨kept, tidy, same⟩ := ih h.tail
        refine ⟨kept, tidy, ?_⟩
        have newline : ['\n'].dropWhile isSpace = [] := by decide
        rw [join_cons none_, List.append_assoc, List.dropWhile_append_of_pos spaces, same,
          List.dropWhile_append, newline]
        rfl
    · refine ⟨line.dropWhile isSpace :: rest, ⟨?_, ?_, ?_⟩, ?_⟩
      · intro other among newline
        obtain rfl | later := List.mem_cons.mp among
        · exact h.plain line List.mem_cons_self ((List.dropWhile_sublist _).subset newline)
        · exact h.plain other (List.mem_cons_of_mem _ later) newline
      · intro other among c last
        obtain rfl | later := List.mem_cons.mp among
        · refine h.trimmed line List.mem_cons_self c ?_
          rw [← List.takeWhile_append_dropWhile (p := isSpace) (l := line), List.getLast?_append, last]
          rfl
        · exact h.trimmed other (List.mem_cons_of_mem _ later) c last
      · exact List.isChain_cons.mpr ⟨fun _ _ both => blank both.1, h.tail.noBlankRun⟩
      · by_cases none_ : rest = []
        · rw [none_, join_singleton, join_singleton]
        · rw [join_cons none_, join_cons none_, List.append_assoc, List.append_assoc,
            List.dropWhile_append, if_neg (by simpa using blank)]

theorem Tidy.rdropWhile {lines : List Text} (h : Tidy lines) :
    ∃ kept, Tidy kept ∧ join ['\n'] kept = (join ['\n'] lines).rdropWhile isSpace := by
  induction lines using List.reverseRecOn with
  | nil => exact ⟨[], .nil, rfl⟩
  | append_singleton first line ih =>
    by_cases blank : line = []
    · subst blank
      by_cases none_ : first = []
      · exact ⟨[], .nil, by rw [none_]; rfl⟩
      · obtain ⟨kept, tidy, same⟩ := ih h.init
        refine ⟨kept, tidy, ?_⟩
        have newline : isSpace '\n' = true := by decide
        rw [join_concat none_, List.append_nil, List.rdropWhile_concat_pos _ _ _ newline, same]
    · refine ⟨first ++ [line], h, ?_⟩
      have trimmed := h.trimmed line (List.mem_append_right _ List.mem_cons_self)
      symm
      refine rstrip_eq_self fun c last => trimmed c ?_
      by_cases none_ : first = []
      · rwa [none_, List.nil_append, join_singleton] at last
      · rw [join_concat none_, List.getLast?_append_of_ne_nil _ blank] at last
        exact last

end Lines

section Visible

theorem visible_append (a b : Text) : visible (a ++ b) = visible a ++ visible b := List.filter_append a b

theorem visible_eq_nil {text : Text} : visible text = [] ↔ ∀ c ∈ text, isSpace c = true := by
  simp [visible, List.filter_eq_nil_iff]

theorem isSpace_of_isBreak {c : Char} (h : isBreak c = true) : isSpace c = true := by
  obtain rfl | rfl : c = '\r' ∨ c = '\n' := by simpa [isBreak] using h
  · decide
  · decide

theorem visible_strip (text : Text) : visible (strip text) = visible text := by
  obtain ⟨lead, trail, whole, leading, trailing⟩ := stripBy_spec isSpace text
  have whole : text = lead ++ (strip text ++ trail) := whole
  rw [whole, visible_append, visible_append, visible_eq_nil.mpr leading, visible_eq_nil.mpr trailing,
    List.nil_append, List.append_nil, ← whole]

theorem visible_rstrip (line : Text) : visible (rstrip line) = visible line := by
  have whole : line.rdropWhile isSpace ++ line.rtakeWhile isSpace = line := List.rdropWhile_append_rtakeWhile
  have spaces : visible (line.rtakeWhile isSpace) = [] :=
    visible_eq_nil.mpr fun c among => List.mem_rtakeWhile_imp among
  rw [rstrip_eq, ← List.append_nil (visible _), ← spaces, ← visible_append, whole]

theorem visible_unifyBreaks (text : Text) : visible (unifyBreaks text) = visible text := by
  fun_induction unifyBreaks text with
  | case1 => rfl
  | case2 rest ih => exact ih
  | case3 rest _ ih => exact ih
  | case4 c rest _ _ ih =>
    have head : visible [c] ++ visible (unifyBreaks rest) = visible [c] ++ visible rest := by rw [ih]
    rwa [← visible_append, ← visible_append] at head

theorem unifyBreaks_eq_self {text : Text} (noReturn : '\r' ∉ text) : unifyBreaks text = text := by
  fun_induction unifyBreaks text with
  | case1 => rfl
  | case2 rest ih => exact absurd List.mem_cons_self noReturn
  | case3 rest _ ih => exact absurd List.mem_cons_self noReturn
  | case4 c rest _ _ ih => rw [ih fun later => noReturn (List.mem_cons_of_mem _ later)]

def terminated (lines : List Text) : Text := lines.flatMap (· ++ ['\n'])

theorem terminated_cons (line : Text) (lines : List Text) :
    terminated (line :: lines) = line ++ '\n' :: terminated lines := by
  simp [terminated]

theorem join_terminated {lines : List Text} (some_ : lines ≠ []) :
    join ['\n'] lines ++ ['\n'] = terminated lines := by
  induction lines with
  | nil => exact absurd rfl some_
  | cons line rest ih =>
    by_cases none_ : rest = []
    · rw [none_, join_singleton, terminated_cons]
      rfl
    · rw [join_cons none_, terminated_cons, ← ih none_]
      simp

theorem visible_terminated_rstrip (lines : List Text) :
    visible (terminated (lines.map rstrip)) = visible (terminated lines) := by
  induction lines with
  | nil => rfl
  | cons line rest ih =>
    have newline (text : Text) : visible ('\n' :: text) = visible text := rfl
    rw [List.map_cons, terminated_cons, terminated_cons, visible_append, visible_append, newline, newline,
      visible_rstrip, ih]

theorem visible_terminated_collapse (blankRun : Nat) (lines : List Text) :
    visible (terminated (collapseBlank blankRun lines)) = visible (terminated lines) := by
  have newline (text : Text) : visible ('\n' :: text) = visible text := rfl
  induction lines generalizing blankRun with
  | nil => rfl
  | cons line rest ih =>
    simp only [collapseBlank]
    split
    · rw [terminated_cons, terminated_cons, visible_append, visible_append, newline, newline, ih]
    · rename_i blank
      rw [not_not] at blank
      subst blank
      split
      · rw [terminated_cons, terminated_cons, visible_append, visible_append, newline, newline, ih]
      · rw [terminated_cons, ih, visible_append, newline]
        rfl

theorem collapseBlank_ne_nil {lines : List Text} (some_ : lines ≠ []) : collapseBlank 0 lines ≠ [] := by
  cases lines with
  | nil => exact absurd rfl some_
  | cons line rest =>
    simp only [collapseBlank]
    split
    · exact List.cons_ne_nil _ _
    · exact List.cons_ne_nil _ _

/-- The lines that `normalise` joins. -/
def normalLines (text : Text) : List Text :=
  collapseBlank 0 (((unifyBreaks text).splitOn '\n').map rstrip)

theorem normalise_eq (text : Text) : normalise text = strip (join ['\n'] (normalLines text)) := rfl

theorem normalLines_ne_nil (text : Text) : normalLines text ≠ [] :=
  collapseBlank_ne_nil (by simp)

theorem normalLines_tidy (text : Text) : Tidy (normalLines text) :=
  collapsed_tidy fun _ among => (mem_splitOn among).1

theorem visible_normalise (text : Text) : visible (normalise text) = visible text := by
  have newline (text : Text) : visible (text ++ ['\n']) = visible text := by
    rw [visible_append]
    exact List.append_nil _
  rw [normalise_eq, visible_strip, ← newline, join_terminated (normalLines_ne_nil text), normalLines,
    visible_terminated_collapse, visible_terminated_rstrip, ← join_terminated (List.splitOn_ne_nil _ _),
    newline, join_splitOn, visible_unifyBreaks]

end Visible

/-- For every line break the number of visible characters before it, from `n` on. -/
def breakCounts (n : Nat) : Text → List Nat
  | [] => []
  | c :: rest =>
    if isBreak c then n :: breakCounts n rest
    else breakCounts (n + (visible [c]).length) rest

section Breaks

theorem breakCounts_cons_break {c : Char} (is : isBreak c = true) (n : Nat) (rest : Text) :
    breakCounts n (c :: rest) = n :: breakCounts n rest := if_pos is

theorem breakCounts_append (n : Nat) (front back : Text) :
    breakCounts n (front ++ back) = breakCounts n front ++ breakCounts (n + (visible front).length) back := by
  induction front generalizing n with
  | nil => rfl
  | cons c rest ih =>
    have split_ : visible (c :: rest) = visible [c] ++ visible rest := visible_append [c] rest
    simp only [List.cons_append, breakCounts]
    split
    · rename_i is
      have none_ : visible [c] = [] := visible_eq_nil.mpr fun other among => by
        rw [List.mem_singleton.mp among]
        exact isSpace_of_isBreak is
      rw [ih, split_, none_]
      rfl
    · rw [ih, split_, List.length_append, Nat.add_assoc]

theorem mem_breakCounts {n k : Nat} {text : Text} : k ∈ breakCounts n text ↔
    ∃ front c back, text = front ++ c :: back ∧ isBreak c = true ∧ k = n + (visible front).length := by
  constructor
  · intro among
    induction text generalizing n with
    | nil => cases among
    | cons c rest ih =>
      simp only [breakCounts] at among
      split at among
      · rename_i is
        obtain rfl | later := List.mem_cons.mp among
        · exact ⟨[], c, rest, rfl, is, rfl⟩
        · obtain ⟨front, c', back, rfl, is', rfl⟩ := ih later
          have none_ : visible [c] = [] := visible_eq_nil.mpr fun other here => by
            rw [List.mem_singleton.mp here]
            exact isSpace_of_isBreak is
          refine ⟨c :: front, c', back, rfl, is', ?_⟩
          rw [← List.singleton_append, visible_append, none_, List.nil_append]
      · obtain ⟨front, c', back, rfl, is', rfl⟩ := ih among
        refine ⟨c :: front, c', back, rfl, is', ?_⟩
        have split_ : visible (c :: front) = visible [c] ++ visible front := visible_append [c] front
        rw [split_, List.length_append, Nat.add_assoc]
  · rintro ⟨front, c, back, rfl, is, rfl⟩
    rw [breakCounts_append, breakCounts_cons_break is]
    exact List.mem_append_right _ List.mem_cons_self

theorem separates_iff {text : Text} {i j : Nat} :
    Separates text i j ↔ ∃ k ∈ breakCounts 0 text, i < k ∧ k ≤ j := by
  constructor
  · rintro ⟨front, c, back, whole, is, low, high⟩
    exact ⟨(visible front).length, mem_breakCounts.mpr ⟨front, c, back, whole, is, (Nat.zero_add _).symm⟩,
      low, high⟩
  · rintro ⟨k, among, low, high⟩
    obtain ⟨front, c, back, whole, is, rfl⟩ := mem_breakCounts.mp among
    rw [Nat.zero_add] at low high
    exact ⟨front, c, back, whole, is, low, high⟩

theorem breakCounts_unbroken {line : Text} (n : Nat) (plain : ∀ c ∈ line, isBreak c = false) :
    breakCounts n line = [] := by
  refine List.eq_nil_iff_forall_not_mem.mpr fun k among => ?_
  obtain ⟨front, c, back, rfl, is, -⟩ := mem_breakCounts.mp among
  have other := plain c (by simp)
  rw [is] at other
  cases other

theorem breakCounts_spaces {text : Text} {n k : Nat} (spaces : ∀ c ∈ text, isSpace c = true)
    (among : k ∈ breakCounts n text) : k = n := by
  obtain ⟨front, c, back, rfl, -, rfl⟩ := mem_breakCounts.mp among
  rw [visible_eq_nil.mpr fun c here => spaces c (List.mem_append_left _ here)]
  rfl

theorem mem_breakCounts_unifyBreaks {n k : Nat} {text : Text} :
    k ∈ breakCounts n (unifyBreaks text) ↔ k ∈ breakCounts n text := by
  have newline (n : Nat) (text : Text) : breakCounts n ('\n' :: text) = n :: breakCounts n text :=
    breakCounts_cons_break (by decide) n text
  have return_ (n : Nat) (text : Text) : breakCounts n ('\r' :: text) = n :: breakCounts n text :=
    breakCounts_cons_break (by decide) n text
  fun_induction unifyBreaks text generalizing n with
  | case1 => exact Iff.rfl
  | case2 rest ih => simp only [newline, return_, List.mem_cons, ih, or_self_left]
  | case3 rest _ ih => simp only [newline, return_, List.mem_cons, ih]
  | case4 c rest _ _ ih =>
    have cons_ (text : Text) : breakCounts n (c :: text) =
        breakCounts n [c] ++ breakCounts (n + (visible [c]).length) text := breakCounts_append n [c] text
    rw [cons_ (unifyBreaks rest), cons_ rest, List.mem_append, List.mem_append]
    exact or_congr_right ih

theorem breakCounts_terminated_cons {line : Text} (n : Nat) (lines : List Text)
    (plain : ∀ c ∈ line, isBreak c = false) : breakCounts n (terminated (line :: lines)) =
      (n + (visible line).length) :: breakCounts (n + (visible line).length) (terminated lines) := by
  rw [terminated_cons, breakCounts_append, breakCounts_unbroken n plain, List.nil_append,
    breakCounts_cons_break (by decide)]

theorem breakCounts_terminated_rstrip {lines : List Text} (n : Nat)
    (plain : ∀ line ∈ lines, ∀ c ∈ line, isBreak c = false) :
    breakCounts n (terminated (lines.map rstrip)) = breakCounts n (terminated lines) := by
  induction lines generalizing n with
  | nil => rfl
  | cons line rest ih =>
    have first := plain line List.mem_cons_self
    rw [List.map_cons, breakCounts_terminated_cons n rest first,
      breakCounts_terminated_cons n _ fun c among => first c (rstrip_subset line among), visible_rstrip,
      ih _ fun other among => plain other (List.mem_cons_of_mem _ among)]

theorem mem_breakCounts_collapse {lines : List Text} {n k blankRun : Nat}
    (plain : ∀ line ∈ lines, ∀ c ∈ line, isBreak c = false)
    (among : k ∈ breakCounts n (terminated lines)) :
    k = n ∧ blankRun ≠ 0 ∨ k ∈ breakCounts n (terminated (collapseBlank blankRun lines)) := by
  induction lines generalizing n blankRun with
  | nil => cases among
  | cons line rest ih =>
    have first := plain line List.mem_cons_self
    have later : ∀ line ∈ rest, ∀ c ∈ line, isBreak c = false := fun other here =>
      plain other (List.mem_cons_of_mem _ here)
    rw [breakCounts_terminated_cons n rest first] at among
    simp only [collapseBlank]
    split
    · refine .inr ?_
      rw [breakCounts_terminated_cons n _ first]
      obtain rfl | after := List.mem_cons.mp among
      · exact List.mem_cons_self
      · obtain ⟨-, impossible⟩ | kept := ih later after
        · exact absurd rfl impossible
        · exact List.mem_cons_of_mem _ kept
    · rename_i blank
      rw [not_not] at blank
      subst blank
      split
      · refine .inr ?_
        rw [breakCounts_terminated_cons n _ first]
        obtain rfl | after := List.mem_cons.mp among
        · exact List.mem_cons_self
        · obtain ⟨rfl, -⟩ | kept := @ih _ 1 later after
          · exact List.mem_cons_self
          · exact List.mem_cons_of_mem _ kept
      · rename_i run
        obtain rfl | after := List.mem_cons.mp among
        · exact .inl ⟨rfl, run⟩
        · obtain ⟨rfl, -⟩ | kept := @ih _ (blankRun + 1) later after
          · exact .inl ⟨rfl, run⟩
          · exact .inr kept

theorem lines_unbroken {text line : Text} (among : line ∈ (unifyBreaks text).splitOn '\n') :
    ∀ c ∈ line, isBreak c = false := by
  intro c here
  obtain ⟨plain, within⟩ := mem_splitOn among
  have noReturn : c ≠ '\r' := fun same => unifyBreaks_noReturn text (same ▸ within here)
  have noNewline : c ≠ '\n' := fun same => plain (same ▸ here)
  simp [isBreak, noReturn, noNewline]

theorem separates_normalise {text : Text} {i j : Nat} (bound : j < (visible text).length)
    (h : Separates text i j) : Separates (normalise text) i j := by
  obtain ⟨k, among, low, high⟩ := separates_iff.mp h
  refine separates_iff.mpr ⟨k, ?_, low, high⟩
  -- the break ends a line, and the line is kept or stood after a blank one
  have unified := mem_breakCounts_unifyBreaks.mpr among
  have split_ : k ∈ breakCounts 0 (terminated ((unifyBreaks text).splitOn '\n')) := by
    rw [← join_terminated (List.splitOn_ne_nil _ _), join_splitOn, breakCounts_append]
    exact List.mem_append_left _ unified
  rw [← breakCounts_terminated_rstrip 0 fun _ => lines_unbroken] at split_
  have plain : ∀ line ∈ ((unifyBreaks text).splitOn '\n').map rstrip, ∀ c ∈ line, isBreak c = false := by
    intro line here c within
    obtain ⟨whole, found, rfl⟩ := List.mem_map.mp here
    exact lines_unbroken found c (rstrip_subset whole within)
  obtain ⟨-, impossible⟩ | collapsed := @mem_breakCounts_collapse _ _ _ 0 plain split_
  · exact absurd rfl impossible
  · -- it is neither the final break nor one that stripping takes away
    have total : (visible (join ['\n'] (normalLines text))).length = (visible text).length := by
      have shown := visible_normalise text
      rw [normalise_eq, visible_strip] at shown
      rw [shown]
    have joined : k ∈ breakCounts 0 (join ['\n'] (normalLines text)) := by
      have ended : k ∈ breakCounts 0 (join ['\n'] (normalLines text) ++ ['\n']) := by
        rwa [join_terminated (normalLines_ne_nil text)]
      rw [breakCounts_append, List.mem_append] at ended
      obtain within | final := ended
      · exact within
      · have last := breakCounts_spaces (List.all_iff_forall_prop.mp (by decide)) final
        omega
    obtain ⟨lead, trail, whole, leading, trailing⟩ := stripBy_spec isSpace (join ['\n'] (normalLines text))
    have whole : join ['\n'] (normalLines text) = lead ++ (normalise text ++ trail) := whole
    rw [whole, breakCounts_append, visible_eq_nil.mpr leading, breakCounts_append, List.mem_append,
      List.mem_append, visible_normalise] at joined
    obtain before_ | within | after := joined
    · have first := breakCounts_spaces leading before_
      omega
    · exact within
    · have last := breakCounts_spaces trailing after
      simp only [List.length_nil] at last
      omega

end Breaks

section Normal

theorem Canonical.normalise_eq_self {text : Text} (h : Canonical text) : normalise text = text := by
  have trimmed : (text.splitOn '\n').map rstrip = text.splitOn '\n' :=
    (List.map_congr_left fun line among => rstrip_eq_self (h.trimmed line among)).trans (List.map_id _)
  have left : text.dropWhile isSpace = text := by
    cases text with
    | nil => rfl
    | cons c rest => rw [List.dropWhile_cons, h.first c rfl]; rfl
  rw [normalise_eq, normalLines, unifyBreaks_eq_self h.noReturn, trimmed,
    collapseBlank_eq_self h.noBlankRun (fun impossible => absurd rfl impossible), join_splitOn]
  change (text.dropWhile isSpace).rdropWhile isSpace = text
  rw [left]
  exact rstrip_eq_self h.last

theorem canonical_normalise (text : Text) : Canonical (normalise text) := by
  obtain ⟨dropped, tidy', same'⟩ := (normalLines_tidy text).dropWhile
  obtain ⟨kept, tidy, same⟩ := tidy'.rdropWhile
  rw [same'] at same
  have lines : (normalise text).splitOn '\n' = kept ∨ (normalise text).splitOn '\n' = [[]] := by
    rw [normalise_eq, strip, stripBy_eq, ← same]
    by_cases none_ : kept = []
    · exact .inr (by rw [none_]; rfl)
    · exact .inl (splitOn_join tidy.plain none_)
  refine ⟨fun among => ?_, fun line among => ?_, ?_, fun c => stripBy_head, fun c => stripBy_getLast⟩
  · have joined : '\r' ∈ terminated (normalLines text) := by
      rw [← join_terminated (normalLines_ne_nil text)]
      exact List.mem_append_left _ (stripBy_subset _ _ among)
    obtain ⟨line, here, within⟩ := List.mem_flatMap.mp joined
    obtain ⟨whole, found, rfl⟩ := List.mem_map.mp (collapseBlank_subset 0 _ here)
    obtain inside | ends := List.mem_append.mp within
    · have plain := lines_unbroken found '\r' (rstrip_subset whole inside)
      cases plain
    · cases List.mem_singleton.mp ends
  · obtain is | is := lines
    · exact tidy.trimmed line (is ▸ among)
    · rw [is] at among
      rw [List.mem_singleton.mp among]
      exact nofun
  · obtain is | is := lines
    · rw [is]
      exact tidy.noBlankRun
    · rw [is]
      exact List.IsChain.singleton _

theorem normalise_eq_nil {text : Text} : normalise text = [] ↔ ∀ c ∈ text, isSpace c = true := by
  rw [← visible_eq_nil, ← visible_normalise]
  constructor
  · intro none_
    rw [none_]
    rfl
  · intro none_
    cases same : normalise text with
    | nil => rfl
    | cons c rest =>
      have first := (canonical_normalise text).first c (by rw [same]; rfl)
      have spaces := visible_eq_nil.mp none_ c (by rw [same]; exact List.mem_cons_self)
      rw [first] at spaces
      cases spaces

end Normal

section Front
variable {x : Char}

theorem unifyBreaks_append (shown : isSpace x = false) (front back : Text) :
    unifyBreaks (front ++ x :: back) = unifyBreaks front ++ x :: unifyBreaks back := by
  have notReturn : x ≠ '\r' := by rintro rfl; cases shown
  have notNewline : x ≠ '\n' := by rintro rfl; cases shown
  fun_induction unifyBreaks front with
  | case1 => rw [List.nil_append, List.nil_append, unifyBreaks] <;> simp [notReturn]
  | case2 rest ih => exact congrArg ('\n' :: ·) ih
  | case3 rest other ih =>
    rw [List.cons_append, unifyBreaks, ih]
    · rfl
    · intro rest' same
      cases rest with
      | nil => exact notNewline (List.cons.inj same).1
      | cons c rest'' => exact other rest'' (by rw [(List.cons.inj same).1])
  | case4 c rest others other ih =>
    rw [List.cons_append, unifyBreaks, ih]
    · rfl
    · exact fun rest' is => absurd is other
    · exact other

theorem rstrip_append (shown : isSpace x = false) (front back : Text) :
    rstrip (front ++ x :: back) = front ++ x :: rstrip back := by
  simp only [rstrip, List.reverse_append, List.reverse_cons, List.append_assoc, List.singleton_append]
  rw [List.dropWhile_append]
  split
  · rename_i none_
    rw [List.isEmpty_iff] at none_
    rw [none_, List.dropWhile_cons, shown]
    simp
  · simp

theorem collapseBlank_append {line : Text} (some_ : line ≠ []) (blankRun : Nat) (front back : List Text) :
    collapseBlank blankRun (front ++ line :: back) =
      collapseBlank blankRun front ++ line :: collapseBlank 0 back := by
  induction front generalizing blankRun with
  | nil =>
    simp only [List.nil_append, collapseBlank]
    rw [if_pos some_]
  | cons first rest ih =>
    simp only [List.cons_append, collapseBlank, ih]
    split
    · rfl
    · split <;> rfl

theorem join_append_line (front : List Text) (line more : Text) (back : List Text) :
    ∃ rest, join ['\n'] (front ++ (line ++ more) :: back) = join ['\n'] (front ++ [line]) ++ rest := by
  induction front with
  | nil =>
    by_cases none_ : back = []
    · exact ⟨more, by rw [none_]; simp⟩
    · refine ⟨more ++ ['\n'] ++ join ['\n'] back, ?_⟩
      rw [List.nil_append, List.nil_append, join_cons none_, join_singleton]
      simp
  | cons first rest ih =>
    obtain ⟨later, same⟩ := ih
    refine ⟨later, ?_⟩
    rw [List.cons_append, List.cons_append, join_cons (by simp), join_cons (by simp), same]
    simp

theorem splitOn_append_line (front back : Text) (plain : x ≠ '\n') : ∃ lines line more others,
    (front ++ x :: back).splitOn '\n' = lines ++ (line ++ x :: more) :: others ∧
      (front ++ [x]).splitOn '\n' = lines ++ [line ++ [x]] := by
  induction front with
  | nil =>
    obtain ⟨more, others, same⟩ := List.exists_cons_of_ne_nil (List.splitOn_ne_nil '\n' back)
    refine ⟨[], [], more, others, ?_, ?_⟩
    · rw [List.nil_append, List.splitOn_cons_eq_if_modifyHead, if_neg (by simpa using plain), same]
      rfl
    · rw [List.nil_append, List.splitOn_eq_singleton (by simpa using plain.symm)]
      rfl
  | cons c rest ih =>
    obtain ⟨lines, line, more, others, whole, cut⟩ := ih
    rw [List.cons_append, List.cons_append, List.splitOn_cons_eq_if_modifyHead,
      List.splitOn_cons_eq_if_modifyHead, whole, cut]
    split
    · exact ⟨[] :: lines, line, more, others, rfl, rfl⟩
    · cases lines with
      | nil => exact ⟨[], c :: line, more, others, rfl, rfl⟩
      | cons first lines => exact ⟨(c :: first) :: lines, line, more, others, rfl, rfl⟩

/-- What comes before a visible character is normalised without what comes after it. -/
theorem normalise_append (shown : isSpace x = false) (front back : Text) :
    ∃ lead rest, normalise (front ++ [x]) = lead ++ [x] ∧ normalise (front ++ x :: back) = lead ++ x :: rest := by
  have plain : x ≠ '\n' := by rintro rfl; cases shown
  obtain ⟨lines, line, more, others, whole, cut⟩ :=
    splitOn_append_line (unifyBreaks front) (unifyBreaks back) plain
  have some_ (more : Text) : line ++ x :: more ≠ [] := by simp
  have wholeLines : normalLines (front ++ x :: back) = collapseBlank 0 (lines.map rstrip) ++
      ((line ++ [x]) ++ rstrip more) :: collapseBlank 0 (others.map rstrip) := by
    rw [normalLines, unifyBreaks_append shown, whole, List.map_append, List.map_cons, rstrip_append shown,
      collapseBlank_append (some_ _), List.append_assoc, List.singleton_append]
  have cutLines : normalLines (front ++ [x]) = collapseBlank 0 (lines.map rstrip) ++ [line ++ [x]] := by
    have nothing : unifyBreaks (front ++ [x]) = unifyBreaks front ++ [x] := unifyBreaks_append shown front []
    rw [normalLines, nothing, cut, List.map_append, List.map_singleton, rstrip_append shown,
      collapseBlank_append (some_ _)]
    rfl
  obtain ⟨rest, joined⟩ := join_append_line (collapseBlank 0 (lines.map rstrip)) (line ++ [x])
    (rstrip more) (collapseBlank 0 (others.map rstrip))
  rw [← wholeLines, ← cutLines] at joined
  -- the character ends the shorter text, so that stripping both stops at it
  have ends : ∃ init, join ['\n'] (normalLines (front ++ [x])) = init ++ [x] := by
    rw [cutLines]
    by_cases none_ : collapseBlank 0 (lines.map rstrip) = []
    · exact ⟨line, by rw [none_]; simp⟩
    · refine ⟨join ['\n'] (collapseBlank 0 (lines.map rstrip)) ++ ['\n'] ++ line, ?_⟩
      rw [join_concat none_]
      simp
  obtain ⟨init, ends⟩ := ends
  have kept : ∃ lead, ∀ rest, (init ++ x :: rest).dropWhile isSpace = lead ++ x :: rest := by
    by_cases spaces : init.dropWhile isSpace = []
    · refine ⟨[], fun rest => ?_⟩
      rw [List.dropWhile_append, spaces, List.dropWhile_cons, shown]
      rfl
    · refine ⟨init.dropWhile isSpace, fun rest => ?_⟩
      rw [List.dropWhile_append, if_neg (by simpa using spaces)]
  obtain ⟨lead, kept⟩ := kept
  refine ⟨lead, rstrip rest, ?_, ?_⟩
  · rw [normalise_eq, ends]
    change rstrip ((init ++ [x]).dropWhile isSpace) = _
    rw [kept, rstrip_append shown]
    rfl
  · rw [normalise_eq, joined, ends]
    change rstrip ((init ++ [x] ++ rest).dropWhile isSpace) = _
    rw [List.append_assoc, List.singleton_append, kept, rstrip_append shown]

end Front

/-- Normalising is canonical, keeps every visible character and every break
between two of them, and changes nothing the second time; what is left is empty
exactly for white space. -/
theorem normalise_canonical (text : Text) :
    Canonical (normalise text) ∧ visible (normalise text) = visible text ∧
    (∀ i j, j < (visible text).length → Separates text i j → Separates (normalise text) i j) ∧
    normalise (normalise text) = normalise text ∧
    ∀ (parsers : Parsers) (lower : Text → Text) (data : Bytes) (extension : String),
      lower extension.toList = ".txt".toList → extractTxt data = .ok text →
      (extractText parsers lower data extension = .error (emptyDocument extension) ↔
        ∀ c ∈ text, isSpace c = true) := by
  refine ⟨canonical_normalise text, visible_normalise text, fun i j => separates_normalise,
    (canonical_normalise text).normalise_eq_self, fun parsers lower data extension isTxt decoded => ?_⟩
  have registered : extractor parsers ".txt".toList = some extractTxt := rfl
  rw [← normalise_eq_nil, extractText, isTxt, registered]
  simp only [decoded, bind, Except.bind]
  constructor
  · intro failed
    by_contra some_
    rw [if_neg some_] at failed
    cases failed
  · intro none_
    rw [if_pos none_]
    rfl

end DocumentPipeline.TextExtraction

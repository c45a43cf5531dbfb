import Mathlib.Data.List.Sort

/-! `SELECT` with `WHERE`, `ORDER BY`, `LIMIT` and `OFFSET` over a table of rows.
A database may arrange the wanted rows in any way that the `ORDER BY` allows, and
in another way for every statement. Where the `ORDER BY` tells any two rows
apart there is one such arrangement, and consecutive pages partition it. -/

namespace Select
variable {α : Type}

/-- An `ORDER BY` column, descending. -/
def desc {κ : Type} [Ord κ] (key : α → κ) (a b : α) : Ordering := compare (key b) (key a)

structure Query (α : Type) where
  filters : List (α → Bool)
  orderBy : List (α → α → Ordering)
  limit : Nat
  offset : Nat

def wanted (filters : List (α → Bool)) (row : α) : Bool := filters.all fun holds => holds row

def Precedes (orderBy : List (α → α → Ordering)) (a b : α) : Prop :=
  orderBy.foldr (fun key later => (key a b).then later) .eq ≠ .gt

instance (orderBy : List (α → α → Ordering)) : DecidableRel (Precedes orderBy) :=
  fun _ _ => inferInstanceAs (Decidable (_ ≠ _))

/-- No two rows of the table tie. -/
def Separates (orderBy : List (α → α → Ordering)) (rows : List α) : Prop :=
  ∀ a b, a ∈ rows → b ∈ rows → Precedes orderBy a b → Precedes orderBy b a → a = b

namespace Query

/-- The wanted rows in an order that the query asks for. -/
structure Arranges (query : Query α) (rows arranged : List α) : Prop where
  rows : arranged.Perm (rows.filter (wanted query.filters))
  ordered : arranged.Pairwise (Precedes query.orderBy)

def page (query : Query α) (arranged : List α) : List α :=
  (arranged.drop query.offset).take query.limit

def Answers (query : Query α) (rows answer : List α) : Prop :=
  ∃ arranged, query.Arranges rows arranged ∧ answer = query.page arranged

/-- The answer of a database that sorts the rows as it finds them. -/
def run (query : Query α) (rows : List α) : List α :=
  query.page ((rows.filter (wanted query.filters)).insertionSort (Precedes query.orderBy))

theorem run_answers (query : Query α) (rows : List α)
    (total : ∀ a b, Precedes query.orderBy a b ∨ Precedes query.orderBy b a)
    (trans : ∀ a b c, Precedes query.orderBy a b → Precedes query.orderBy b c →
      Precedes query.orderBy a c) : query.Answers rows (query.run rows) := by
  have : Std.Total (Precedes query.orderBy) := ⟨total⟩
  have : IsTrans α (Precedes query.orderBy) := ⟨trans⟩
  exact ⟨_, ⟨List.perm_insertionSort _ _, List.pairwise_insertionSort _ _⟩, rfl⟩

end Query

section Pages
variable {query : Query α} {rows : List α}

/-- The order in which the table holds its rows does not matter. -/
theorem Query.Arranges.unique {rows' arranged arranged' : List α}
    (separates : Separates query.orderBy rows) (same : rows'.Perm rows)
    (h : query.Arranges rows arranged) (h' : query.Arranges rows' arranged') :
    arranged = arranged' := by
  have agree : arranged.Perm arranged' := h.rows.trans ((same.filter _).symm.trans h'.rows.symm)
  have within : ∀ row ∈ arranged, row ∈ rows := fun row among =>
    List.mem_of_mem_filter (h.rows.mem_iff.mp among)
  exact agree.eq_of_pairwise (fun a b left right => separates a b (within a left)
    (within b (agree.mem_iff.mpr right))) h.ordered h'.ordered

theorem take_pages (arranged : List α) (limit n : Nat) :
    ((List.range n).flatMap fun k => (arranged.drop (k * limit)).take limit) =
      arranged.take (n * limit) := by
  induction n with
  | zero => simp
  | succ n ih =>
    rw [List.range_succ, List.flatMap_append, ih, Nat.succ_mul, List.take_add]
    simp

/-- Pages that are read one after the other until one is empty. -/
theorem pages_partition {limit : Nat} (positive : 1 ≤ limit) {pages : Nat → List α}
    {arranged : List α} (cut : ∀ k, pages k = (arranged.drop (k * limit)).take limit) :
    ∃ n, pages n = [] ∧ (∀ k < n, pages k ≠ []) ∧ (List.range n).flatMap pages = arranged := by
  have empty (k : Nat) : pages k = [] ↔ arranged.length ≤ k * limit := by
    rw [cut, List.take_eq_nil_iff, List.drop_eq_nil_iff]
    omega
  have reached : ∃ n, arranged.length ≤ n * limit :=
    ⟨arranged.length, Nat.le_mul_of_pos_right _ positive⟩
  refine ⟨Nat.find reached, (empty _).mpr (Nat.find_spec reached), fun k earlier => ?_, ?_⟩
  · exact fun none => Nat.find_min reached earlier ((empty k).mp none)
  · rw [funext cut, take_pages, List.take_of_length_le (Nat.find_spec reached)]

theorem mem_page_or_later {arranged : List α} {limit k : Nat} {a : α} (mem : a ∈ arranged.drop (k * limit)) :
    a ∈ (arranged.drop (k * limit)).take limit ∨ a ∈ arranged.drop ((k + 1) * limit) := by
  rw [← List.take_append_drop limit (arranged.drop (k * limit)), List.mem_append, List.drop_drop] at mem
  rwa [Nat.succ_mul]

/-- Pages that are read in turn while rows are inserted show every row that was
there at first: an insertion moves a row to a later place only. -/
theorem pages_cover {limit n : Nat} {arranged : Nat → List α}
    (grows : ∀ k < n, (arranged k).Sublist (arranged (k + 1)))
    (last : (arranged n).length ≤ (n + 1) * limit) {a : α} (mem : a ∈ arranged 0) :
    ∃ k ≤ n, a ∈ ((arranged k).drop (k * limit)).take limit := by
  by_contra unseen
  simp only [not_exists, not_and] at unseen
  have ahead (k : Nat) (before : k ≤ n) : a ∈ (arranged k).drop (k * limit) := by
    induction k with
    | zero => simpa using mem
    | succ k ih =>
      have later := (mem_page_or_later (ih (by omega))).resolve_left (unseen k (by omega))
      exact ((grows k (by omega)).drop _).subset later
  have beyond := (mem_page_or_later (ahead n le_rfl)).resolve_left (unseen n le_rfl)
  rw [List.drop_of_length_le last] at beyond
  exact List.not_mem_nil beyond

end Pages
end Select

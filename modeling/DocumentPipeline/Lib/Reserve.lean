/-! Identifiers drawn from a counter. Every party holds at most one at a time;
what it holds was drawn, and no other party holds it. -/

namespace Reserve
variable {ι : Type} {held held' : ι → Option Nat} {next next' : Nat}

structure Reserved (held : ι → Option Nat) (next : Nat) : Prop where
  below : ∀ i n, held i = some n → n < next
  apart : ∀ i j n, held i = some n → held j = some n → i = j

theorem Reserved.empty (nothing : ∀ i, held i = none) (next : Nat) : Reserved held next where
  below i n is := by cases (nothing i).symm.trans is
  apart i _ n is := by cases (nothing i).symm.trans is

theorem Reserved.fewer (h : Reserved held next) (more : next ≤ next')
    (kept : ∀ i n, held' i = some n → held i = some n) : Reserved held' next' where
  below i n is := Nat.lt_of_lt_of_le (h.below i n (kept i n is)) more
  apart i j n is is' := h.apart i j n (kept i n is) (kept j n is')

/-- One party moves; what it holds then it held before, or has just drawn. -/
theorem Reserved.move (h : Reserved held next) (more : next ≤ next') (i : ι)
    (others : ∀ j, j ≠ i → held' j = held j)
    (own : ∀ n, held' i = some n → held i = some n ∨ n = next ∧ next' = next + 1) :
    Reserved held' next' := by
  have before : ∀ j n, held' j = some n → held j = some n ∨ j = i ∧ n = next ∧ next' = next + 1 := by
    intro j n is
    by_cases same : j = i
    · subst same
      exact (own n is).imp_right fun drawn => ⟨rfl, drawn⟩
    · exact .inl (others j same ▸ is)
  refine ⟨fun j n is => ?_, fun j k n is is' => ?_⟩
  · obtain old | ⟨-, rfl, drawn⟩ := before j n is
    · exact Nat.lt_of_lt_of_le (h.below j n old) more
    · exact drawn ▸ Nat.lt_succ_self _
  · obtain old | ⟨rfl, rfl, -⟩ := before j n is
    · obtain old' | ⟨-, rfl, -⟩ := before k n is'
      · exact h.apart j k n old old'
      · exact absurd (h.below j _ old) (Nat.lt_irrefl _)
    · obtain old' | ⟨rfl, -, -⟩ := before k n is'
      · exact absurd (h.below k _ old') (Nat.lt_irrefl _)
      · rfl

end Reserve

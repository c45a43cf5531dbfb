import Mathlib.Data.List.Nodup

/-! Tokens that are issued one by one, held by parties and spent. A token is held
by one party at a time and, once spent, by none, so none is spent twice. -/

namespace Tokens
variable {ι κ : Type} {issued issued' : κ → Prop} {held held' : ι → List κ} {spent new : List κ}

structure Ledger (issued : κ → Prop) (held : ι → List κ) (spent : List κ) : Prop where
  issued_held : ∀ i, ∀ k ∈ held i, issued k
  issued_spent : ∀ k ∈ spent, issued k
  distinct : ∀ i, (held i).Nodup
  apart : ∀ i j k, k ∈ held i → k ∈ held j → i = j
  unspent : ∀ i, ∀ k ∈ held i, k ∉ spent
  once : spent.Nodup

theorem Ledger.empty (nothing : ∀ i, held i = []) : Ledger issued held [] where
  issued_held i k mem := by
    rw [nothing i] at mem
    cases mem
  issued_spent k mem := by cases mem
  distinct i := by
    rw [nothing i]
    exact .nil
  apart i j k mem := by
    rw [nothing i] at mem
    cases mem
  unspent i k _ mem := by cases mem
  once := .nil

/-- Parties may lose what they hold. -/
theorem Ledger.fewer (h : Ledger issued held spent) (more : ∀ k, issued k → issued' k)
    (kept : ∀ i, (held' i).Sublist (held i)) : Ledger issued' held' spent where
  issued_held i k mem := more k (h.issued_held i k ((kept i).subset mem))
  issued_spent k mem := more k (h.issued_spent k mem)
  distinct i := (h.distinct i).sublist (kept i)
  apart i j k mem mem' := h.apart i j k ((kept i).subset mem) ((kept j).subset mem')
  unspent i k mem := h.unspent i k ((kept i).subset mem)
  once := h.once

/-- One party moves: what it spends or holds then it held before, or it has just
been issued. -/
theorem Ledger.move (h : Ledger issued held spent) (more : ∀ k, issued k → issued' k) (i : ι)
    (others : ∀ j, j ≠ i → held' j = held j) (distinct : (new ++ held' i).Nodup)
    (own : ∀ k ∈ new ++ held' i, k ∈ held i ∨ issued' k ∧ ¬issued k) :
    Ledger issued' held' (new ++ spent) := by
  obtain ⟨newOnce, ownOnce, newApart⟩ := List.nodup_append.mp distinct
  have unspent : ∀ k ∈ new ++ held' i, k ∉ spent := by
    intro k mem isSpent
    obtain old | ⟨-, fresh⟩ := own k mem
    · exact h.unspent i k old isSpent
    · exact fresh (h.issued_spent k isSpent)
  have foreign : ∀ j, j ≠ i → ∀ k ∈ held j, k ∉ new ++ held' i := by
    intro j other k mem owned
    obtain old | ⟨-, fresh⟩ := own k owned
    · exact other (h.apart j i k mem old)
    · exact fresh (h.issued_held j k mem)
  have known : ∀ k ∈ new ++ held' i, issued' k := by
    intro k mem
    obtain old | ⟨fresh, -⟩ := own k mem
    · exact more k (h.issued_held i k old)
    · exact fresh
  refine ⟨fun j k mem => ?_, fun k mem => ?_, fun j => ?_, fun j l k mem mem' => ?_,
    fun j k mem isSpent => ?_, ?_⟩
  · by_cases same : j = i
    · subst same
      exact known k (List.mem_append_right _ mem)
    · rw [others j same] at mem
      exact more k (h.issued_held j k mem)
  · obtain isNew | old := List.mem_append.mp mem
    · exact known k (List.mem_append_left _ isNew)
    · exact more k (h.issued_spent k old)
  · by_cases same : j = i
    · subst same
      exact ownOnce
    · rw [others j same]
      exact h.distinct j
  · by_cases same : j = i <;> by_cases same' : l = i
    · rw [same, same']
    · subst same
      rw [others l same'] at mem'
      exact absurd (List.mem_append_right _ mem) (foreign l same' k mem')
    · subst same'
      rw [others j same] at mem
      exact absurd (List.mem_append_right _ mem') (foreign j same k mem)
    · rw [others j same] at mem
      rw [others l same'] at mem'
      exact h.apart j l k mem mem'
  · by_cases same : j = i
    · subst same
      obtain isNew | old := List.mem_append.mp isSpent
      · exact newApart k isNew k mem rfl
      · exact unspent k (List.mem_append_right _ mem) old
    · rw [others j same] at mem
      obtain isNew | old := List.mem_append.mp isSpent
      · exact foreign j same k mem (List.mem_append_left _ isNew)
      · exact h.unspent j k mem old
  · refine List.nodup_append.mpr ⟨newOnce, h.once, fun k isNew k' old same => ?_⟩
    subst same
    exact unspent k (List.mem_append_left _ isNew) old

end Tokens
